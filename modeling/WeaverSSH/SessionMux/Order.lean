import WeaverSSH.SessionMux.Credit

/-!
# The order of the frames of an end

The OPEN of its owner is there once, an ACCEPT comes before everything else, no DATA follows a
CLOSE, and every frame passes the checks of the codec. The order of DATA and CLOSE is the work of
`writeMu`: `Close` marks the stream closed first and then waits for the writer that is under way.
-/

namespace WeaverSSH.SessionMux

open List Option FrameType End SessionMux.Frame SessionMux.Stream

def Frame.isData (f : Frame) : Bool := f.type = .frameData

def Frame.isOpen (f : Frame) : Bool := f.type = .frameOpen

/-- The control points of `handleOpen` up to its ACCEPT. -/
def Reader.offers : Reader → Bool
  | .opened _ | .sending _ (.accept _) => true
  | _ => false

namespace End

variable {owner : Bool} {l : Limits} {e e' : End} {s s' : Stream} {new : List Frame}

/-! ## New frames -/

/-- The frames a step can set out to send on a stream that exists. -/
inductive Made (e : End) (s : Stream) (e' : End) : Frame → Prop
  | window (n : ℕ) : Made e s e' (s.windowFrame (putUint32 n))
  | data {p : Bytes} : s.alive → p.length ≤ s.limits.maxDataPayload → Made e s e' (s.dataFrame p)
  | close : Made e s e' s.closeFrame
  | reset : Made e s e' s.resetFrame
  | accept {h : Handle} : e.reader = .opened h → Made e s e' s.acceptFrame
  | reply {f : Frame} : e'.handled = e.handled ++ [f] → Made e s e' f.resetReply

variable {a : Mux.Act}

lemma Step.made (hstep : Step owner l e a e') (hl : Live owner l e s) (hs : e.stream = some s) :
    ∃ new, e'.outgo.Perm (e.outgo ++ new) ∧ ∀ f ∈ new, Made e s e' f := by
  cases hstep with
  | openStream _ hnone | openNew _ _ _ hnone => cases hs.symm.trans hnone
  | app _ hs₀ happ =>
    obtain rfl := mem_unique hs hs₀
    obtain ⟨-, hsent, hcredit⟩ := happ.credit hl.flow
    refine ⟨_, outgo_add rfl (by simp [sent, hsent]) rfl, ?_⟩
    rcases hcredit with ⟨-, hnone⟩ | ⟨grant, -, -, -, -, rfl, -⟩
    · simp [hnone]
    · simp only [bind_some, Call.pending?, toList_some, mem_singleton]
      rintro f rfl
      exact .window grant
  | call hcalls hs₀ hcall =>
    obtain rfl := mem_unique hs hs₀
    obtain ⟨hcp, -, hsent⟩ := hcall.source
    refine ⟨_, outgo_call hcalls hcp rfl (by simp [sent, hsent]) rfl, ?_⟩
    intro f hf
    rw [mem_toList] at hf
    cases hcall with
    | cancel | resetLock => obtain rfl := some.inj hf; exact .reset
    | closeLock => obtain rfl := some.inj hf; exact .close
    | init hinit =>
      obtain ⟨-, rfl, -⟩ := Mux.initialWindowFrame_eq hinit
      obtain rfl := some.inj hf
      exact .window _
    | writeChunk _ hchunk =>
      obtain rfl := some.inj hf
      obtain ⟨-, hloc, hterm, -⟩ := takeChunk_eq hl.flow hchunk
      exact .data ⟨hloc, hterm⟩ (takeChunk_length hl.flow hchunk).2
    | _ => cases hf
  | reader hs₀ hread =>
    obtain rfl := mem_unique hs hs₀
    obtain ⟨hrp, -⟩ := hread.source
    refine ⟨_, .of_eq (outgo_reader (e := e) rfl (by simp [sent, hread.credit.1]) hrp), ?_⟩
    intro f hf
    generalize hr : e.reader = r at hread
    cases hread with
    | failClose => obtain rfl := mem_singleton.mp hf; exact .reset
    | openAccept => obtain rfl := mem_singleton.mp hf; exact .accept hr
    | init hinit =>
      obtain ⟨-, rfl, -⟩ := Mux.initialWindowFrame_eq hinit
      obtain rfl := mem_singleton.mp hf
      exact .window _
    | _ => cases hf
  | accept => exact ⟨[], .of_eq (append_nil _).symm, by simp⟩
  | write => exact ⟨_, outgo_add (k := some _) rfl rfl rfl, by simp [Call.pending?]⟩
  | written =>
    rename_i site rest hw
    exact ⟨_, outgo_add rfl rfl rfl, by cases site <;> simp [Site.next, Call.pending?]⟩
  | openReturn hcalls | remove hcalls =>
    exact ⟨_, outgo_call (k := none) hcalls rfl (by simp) rfl rfl, by simp⟩
  | enqueue hcalls =>
    refine ⟨[], ?_, by simp⟩
    rw [append_nil]
    exact outgo_enqueue hcalls rfl (sentFrames_append _ _) rfl
  | readerEnqueue hr =>
    rename_i f site
    refine ⟨[], ?_, by simp⟩
    rw [append_nil]
    exact outgo_readerEnqueue hr (by cases site <;> rfl) rfl (sentFrames_append _ _)
  | readerRemove hr | publish hr | lookup hr =>
    exact ⟨_, .of_eq (outgo_reader (e := e) rfl rfl (by rw [hr]; rfl)), by simp [Reader.pending]⟩
  | backlogDrop hr hs₀ =>
    obtain rfl := mem_unique hs hs₀
    refine ⟨_, .of_eq (outgo_reader (e := e) rfl rfl (by rw [hr]; rfl)), ?_⟩
    intro f hf
    obtain rfl := mem_singleton.mp hf
    exact .reset
  | openRefused _ hr | unknownData hr =>
    refine ⟨_, .of_eq (outgo_reader (e := e) rfl ?_ (by rw [hr]; rfl)), ?_⟩
    · simp [sent]
    · intro f hf
      obtain rfl := mem_singleton.mp hf
      exact .reply (by simp [handled])
  | unknownDrop => exact ⟨[], .of_eq (by simp [outgo, sent]), by simp⟩

/-- What a step queues: nothing, the frame of a goroutine, or that of the reader loop. -/
inductive Queues (e e' : End) : Prop
  | nothing : e'.sent = e.sent → Queues e e'
  | goroutine {l₁ l₂ : List Call} {f : Frame} {site : Site} :
      e.calls = l₁ ++ .sending f site :: l₂ → e'.calls = l₁ ++ site.running.toList ++ l₂ →
      e'.sent = e.sent ++ [f] → e'.reader = e.reader → Queues e e'
  | reader {f : Frame} {site : ReaderSite} : e.reader = .sending f site → e'.calls = e.calls →
      e'.sent = e.sent ++ [f] → e'.reader = site.next → Queues e e'

lemma Step.queues (hstep : Step owner l e a e') (hl : Live owner l e s)
    (hs : e.stream = some s) : Queues e e' := by
  cases hstep with
  | openStream _ hnone | openNew _ _ _ hnone => cases hs.symm.trans hnone
  | app _ hs₀ happ =>
    obtain rfl := mem_unique hs hs₀
    exact .nothing (by simp [sent, (happ.credit hl.flow).2.1])
  | call _ _ hcall => exact .nothing (by simp [sent, hcall.source.2.2])
  | reader _ hread => exact .nothing (by simp [sent, hread.credit.1])
  | enqueue hcalls => exact .goroutine hcalls rfl (sentFrames_append _ _) rfl
  | readerEnqueue hr => exact .reader hr rfl (sentFrames_append _ _) rfl
  | openRefused | unknownData | unknownDrop =>
    exact .nothing (by simp [sent])
  | accept | write | written | openReturn | remove | readerRemove | publish | lookup
  | backlogDrop => exact .nothing rfl

lemma Live.fresh (hl : Live owner l e s) (h : e.reader.offers = true) : e.Fresh := by
  have hok := hl.reader
  generalize e.reader = r at h hok
  cases r with
  | opened => exact hok.1
  | sending f site =>
    cases site with
    | accept => exact hok.2.1
    | _ => cases h
  | _ => cases h

lemma Step.offers (hstep : Step owner l e a e') (hl : Live owner l e s) (hs : e.stream = some s)
    (h : e'.reader.offers = true) : e.reader.offers = true ∧ e'.sent = e.sent := by
  cases hstep with
  | openStream _ hnone | openNew _ _ _ hnone => cases hs.symm.trans hnone
  | reader _ hread =>
    refine ⟨?_, by simp [sent, hread.credit.1]⟩
    generalize e.reader = r at hread ⊢
    cases hread <;> first | rfl | cases h
  | readerEnqueue => rename_i f site hr; cases site <;> cases h
  | readerRemove | publish | lookup | backlogDrop | openRefused | unknownData => cases h
  | unknownDrop => exact ⟨h, by simp [sent]⟩
  | app _ hs₀ happ =>
    obtain rfl := mem_unique hs hs₀
    exact ⟨h, by simp [sent, (happ.credit hl.flow).2.1]⟩
  | call _ _ hcall => exact ⟨h, by simp [sent, hcall.source.2.2]⟩
  | enqueue hcalls =>
    rw [(hl.fresh h).calls] at hcalls
    simp at hcalls
  | accept | write | written | openReturn | remove => exact ⟨h, rfl⟩

/-! ## The invariant -/

/-- The order of the frames of an end whose stream exists. -/
structure Order (owner : Bool) (l : Limits) (e : End) (s : Stream) : Prop where
  /-- once CLOSE is queued, no goroutine is about to send DATA -/
  closed : (∃ f ∈ e.sent, f.type = .frameClose) →
    s.localClosed = true ∧ e.outgo.countP isData = e.sent.countP isData
  ordered : e.sent.Pairwise fun g f => g.type = .frameClose → f.type ≠ .frameData
  /-- the owner opens once -/
  opens : e.outgo.countP Frame.isOpen = if owner then 1 else 0
  /-- an ACCEPT is the first frame -/
  accepts : ∀ A f B, e.sent = A ++ f :: B → f.type = .frameAccept → A = []
  offers : e.reader.offers = true → owner = false ∧ e.sent = []
  kinds : ∀ f ∈ e.outgo, f.type = .frameOpen ∨ Mux.isLookup f.type = true
  ownerAccepts : owner = true → ∀ f ∈ e.outgo, f.type ≠ .frameAccept
  check : ∀ f ∈ e.outgo, writeFrameCheck l.codecMax f = none
  opened : owner = false → ∃ f ∈ e.handled, f.type = .frameOpen ∧ f.service = s.service

lemma Made.check {f : Frame} (hm : Made e s e' f) (hl : Live owner l e s)
    (hcodec : 4 ≤ l.codecMax) (hid : ∀ g, e'.handled = e.handled ++ [g] → g.streamID ≠ 0) :
    writeFrameCheck l.codecMax f = none := by
  have hne := hl.id_ne
  cases hm with
  | window n =>
    have hlen : (putUint32 n).length = 4 := rfl
    simp [writeFrameCheck, windowFrame, valid, validateFramePayloadLength, hlen, hne, hcodec]
  | data _ hmax =>
    rw [hl.limits] at hmax
    have hle := hmax.trans l.payload_le_codec
    simp [writeFrameCheck, dataFrame, valid, validateFramePayloadLength, hne, hle]
  | close =>
    simp [writeFrameCheck, closeFrame, valid, validateFramePayloadLength, hne]
  | reset =>
    simp [writeFrameCheck, resetFrame, valid, validateFramePayloadLength, hne]
  | accept =>
    simp [writeFrameCheck, acceptFrame, valid, validateFramePayloadLength, hne]
  | reply hg =>
    simp [writeFrameCheck, resetReply, valid, validateFramePayloadLength, hid _ hg]

lemma Made.kind {f : Frame} (hm : Made e s e' f) :
    Mux.isLookup f.type = true ∧ (f.type = .frameAccept → e.reader.offers = true) ∧
      (f.type = .frameData → s.localClosed = false) := by
  cases hm with
  | accept hr => exact ⟨rfl, fun _ => by rw [hr]; rfl, nofun⟩
  | data ha => exact ⟨rfl, nofun, fun _ => ha.1⟩
  | _ => exact ⟨rfl, nofun, nofun⟩

lemma outgo_sent (e : End) : e.sent <+: e.outgo := by
  unfold outgo
  rw [append_assoc]
  exact prefix_append _ _

section

variable (hl : Live owner l e s)
include hl

/-- The type of a frame a goroutine is about to queue, and who sends DATA. -/
lemma Live.pending {c : Call} {f : Frame} (hc : c ∈ e.calls)
    (hf : c.pending? = some f) : f.type ≠ .frameAccept ∧ (f.type = .frameData → c.holds = 1) := by
  have hok := hl.calls c hc
  cases c with
  | sending g site =>
    obtain rfl := some.inj hf
    have ht := hok.1
    cases site <;> simp_all [Site.frameType, Call.holds, Site.holds]
  | _ => cases hf

omit hl in
/-- Once a stream is closed locally and nothing is about to be sent on it, nothing will be. -/
lemma Order.count (hout : e'.outgo.Perm (e.outgo ++ new)) (hmade : ∀ f ∈ new, Made e s e' f)
    (hclosed : s.localClosed = true) (hsent : e.sent <+: e'.sent)
    (hcount : e.outgo.countP isData = e.sent.countP isData) :
    e'.outgo.countP isData = e'.sent.countP isData := by
  have hnew : new.countP isData = 0 := by
    rw [countP_eq_zero]
    intro f hf hd
    have hno := (hmade f hf).kind.2.2 (by simpa [isData] using hd)
    rw [hclosed] at hno
    cases hno
  have h₁ : e'.outgo.countP isData = e.outgo.countP isData := by
    rw [hout.countP_eq, countP_append, hnew, add_zero]
  have h₂ := hsent.sublist.countP_le (p := isData)
  have h₃ := (outgo_sent e').sublist.countP_le (p := isData)
  omega

lemma Live.alone {l₁ l₂ : List Call} {c : Call}
    (hc : e.calls = l₁ ++ c :: l₂) (hholds : c.holds = 1) :
    (∀ c' ∈ l₁, c'.holds = 0) ∧ (∀ c' ∈ l₂, c'.holds = 0) ∧ ∀ w ∈ e.waiting, w.holds = 0 := by
  have hh := hl.holds
  have hle : s.writeMu.toNat ≤ 1 := Bool.toNat_le _
  simp only [End.holds, hc, map_append, map_cons, sum_append, sum_cons, hholds] at hh
  have h₁ : (l₁.map Call.holds).sum = 0 := by omega
  have h₂ : (l₂.map Call.holds).sum = 0 := by omega
  have h₃ : (e.waiting.map Site.holds).sum = 0 := by omega
  exact ⟨fun c' hm => sum_eq_zero_iff.mp h₁ _ (mem_map_of_mem hm),
    fun c' hm => sum_eq_zero_iff.mp h₂ _ (mem_map_of_mem hm),
    fun w hm => sum_eq_zero_iff.mp h₃ _ (mem_map_of_mem hm)⟩

/-- Goroutines without `writeMu` are not about to send DATA. -/
lemma Live.quiet {k : List Call} (hsub : ∀ c ∈ k, c ∈ e.calls)
    (hholds : ∀ c ∈ k, c.holds = 0) : ∀ f ∈ k.filterMap Call.pending?, f.type ≠ .frameData := by
  intro f hf hd
  obtain ⟨c, hc, hcf⟩ := mem_filterMap.mp hf
  have h1 := (hl.pending (hsub c hc) hcf).2 hd
  rw [hholds c hc] at h1
  cases h1

lemma Live.reader_pending : ∀ f ∈ e.reader.pending, f.type ≠ .frameData ∧ f.type ≠ .frameClose := by
  intro f hf
  have hok := hl.reader
  generalize e.reader = r at hf hok
  cases r with
  | sending g site =>
    obtain rfl := mem_singleton.mp hf
    rw [hok.1]
    cases site <;> exact ⟨nofun, nofun⟩
  | _ => cases hf

omit hl in
lemma countP_isData_eq_zero {fs : List Frame} (h : ∀ f ∈ fs, f.type ≠ .frameData) :
    fs.countP isData = 0 := by
  rw [countP_eq_zero]
  intro f hf hd
  exact h f hf (by simpa [isData] using hd)

/-- The CLOSE a goroutine queues finds no DATA on its way: its sender would hold `writeMu`. -/
lemma Live.close_last {l₁ l₂ : List Call} {f : Frame} {site : Site}
    (hc : e.calls = l₁ ++ .sending f site :: l₂) (hc' : e'.calls = l₁ ++ site.running.toList ++ l₂)
    (hr : e'.reader = e.reader) (hf : f.type = .frameClose) :
    e'.outgo.countP isData = e'.sent.countP isData := by
  have hok : e.CallOK s (.sending f site) := hl.calls _ (by simp [hc])
  have hsite : (Call.sending f site).holds = 1 := by
    have ht := hok.1
    rw [hf] at ht
    cases site <;> first | rfl | cases ht
  obtain ⟨h₁, h₂, -⟩ := hl.alone hc hsite
  have hrun : site.running.toList.filterMap Call.pending? = [] := by cases site <;> rfl
  have hq₁ := countP_isData_eq_zero (hl.quiet (k := l₁) (fun c h => by simp [hc, h]) h₁)
  have hq₂ := countP_isData_eq_zero (hl.quiet (k := l₂) (fun c h => by simp [hc, h]) h₂)
  have hread := countP_isData_eq_zero fun f hf => (hl.reader_pending f hf).1
  simp [outgo, hc', hr, countP_append, filterMap_append, hrun, hq₁, hq₂, hread]

end

lemma append_split {α : Type*} {A B L R : List α} {w : α} (h : L ++ R = A ++ w :: B) :
    (∃ B', L = A ++ w :: B') ∨ ∃ A', A = L ++ A' ∧ R = A' ++ w :: B := by
  rcases append_eq_append_iff.mp h with ⟨A', hA, hR⟩ | ⟨t, hL, ht⟩
  · exact .inr ⟨A', hA, hR⟩
  · cases t with
    | nil => exact .inr ⟨[], by simpa using hL.symm, ht.symm⟩
    | cons x t =>
      obtain ⟨rfl, -⟩ := List.cons.inj ht
      exact .inl ⟨t, hL⟩

/-- **The step lemma.** -/
lemma Order.step (ho : Order owner l e s) (hl : Live owner l e s)
    (hcodec : 4 ≤ l.codecMax) (hs : e.stream = some s)
    (hstep : Step owner l e a e') (hchange : Change e s e' s')
    (hid : ∀ g, e'.handled = e.handled ++ [g] → g.streamID ≠ 0) : Order owner l e' s' := by
  obtain ⟨new, hout, hmade⟩ := hstep.made hl hs
  have hmem : ∀ f ∈ e'.outgo, f ∈ e.outgo ∨ Made e s e' f := fun f hf =>
    (mem_append.mp (hout.mem_iff.mp hf)).imp_right (hmade f)
  have hnewOpen : new.countP Frame.isOpen = 0 := by
    rw [countP_eq_zero]
    intro f hf hop
    have hk := (hmade f hf).kind.1
    rw [Frame.isOpen, decide_eq_true_eq] at hop
    rw [hop] at hk
    cases hk
  constructor
  case closed =>
    rintro ⟨g, hg, hgc⟩
    have hold : g ∈ e.sent → e.sent <+: e'.sent → s'.localClosed = true ∧
        e'.outgo.countP isData = e'.sent.countP isData := by
      intro hg hsent
      obtain ⟨hclosed, hcount⟩ := ho.closed ⟨g, hg, hgc⟩
      exact ⟨hchange.stream.localClosed hclosed, Order.count hout hmade hclosed hsent hcount⟩
    rcases hstep.queues hl hs with hsent | ⟨hc, hc', hsent, hr⟩ | ⟨hr, -, hsent, -⟩
    · exact hold (hsent ▸ hg) (hsent ▸ prefix_refl _)
    · rename_i l₁ l₂ f site
      rw [hsent] at hg
      rcases mem_append.mp hg with hg | hg
      · exact hold hg (hsent ▸ prefix_append _ _)
      · obtain rfl := mem_singleton.mp hg
        refine ⟨hchange.stream.localClosed ?_, hl.close_last hc hc' hr hgc⟩
        obtain ⟨ht, hok⟩ : e.CallOK s (.sending g site) := hl.calls _ (by simp [hc])
        rw [hgc] at ht
        cases site with
        | close => exact hok.2
        | _ => cases ht
    · rename_i f site
      rw [hsent] at hg
      rcases mem_append.mp hg with hg | hg
      · exact hold hg (hsent ▸ prefix_append _ _)
      · obtain rfl := mem_singleton.mp hg
        exact absurd hgc (hl.reader_pending g (by rw [hr]; exact mem_singleton_self g)).2
  case ordered =>
    rcases hstep.queues hl hs with hsent | ⟨hc, -, hsent, -⟩ | ⟨hr, -, hsent, -⟩
    · rw [hsent]
      exact ho.ordered
    · rename_i l₁ l₂ f site
      rw [hsent, pairwise_append]
      refine ⟨ho.ordered, pairwise_singleton _ _, ?_⟩
      intro g hg f' hf' hgc hfd
      obtain rfl := mem_singleton.mp hf'
      have hcount := (ho.closed ⟨g, hg, hgc⟩).2
      simp [outgo, hc, Call.pending?, countP_append, isData, hfd] at hcount
    · rename_i f site
      rw [hsent, pairwise_append]
      refine ⟨ho.ordered, pairwise_singleton _ _, ?_⟩
      intro g hg f' hf' hgc hfd
      obtain rfl := mem_singleton.mp hf'
      exact absurd hfd (hl.reader_pending f' (by rw [hr]; exact mem_singleton_self f')).1
  case opens => rw [hout.countP_eq, countP_append, hnewOpen]; exact ho.opens
  case accepts =>
    intro A g B hsplit hg
    rcases hstep.queues hl hs with hsent | ⟨hc, -, hsent, -⟩ | ⟨hr, -, hsent, -⟩
    · exact ho.accepts A g B (hsent ▸ hsplit) hg
    · rename_i l₁ l₂ f site
      rw [hsent] at hsplit
      rcases append_split hsplit with ⟨B', hB⟩ | ⟨A', -, hf⟩
      · exact ho.accepts A g B' hB hg
      · obtain rfl : g = f := by simpa using (show g ∈ [f] by simp [hf])
        exact absurd hg (hl.pending (c := .sending g site) (by simp [hc]) rfl).1
    · rename_i f site
      rw [hsent] at hsplit
      rcases append_split hsplit with ⟨B', hB⟩ | ⟨A', rfl, hf⟩
      · exact ho.accepts A g B' hB hg
      · obtain ⟨rfl, rfl, -⟩ : A' = [] ∧ g = f ∧ B = [] := by
          cases A' <;> simp_all
        have hok := hl.reader
        rw [hr] at hok
        have ht := hok.1
        rw [hg] at ht
        cases site with
        | accept => simp [(ho.offers (by rw [hr]; rfl)).2]
        | _ => cases ht
  case offers =>
    intro h
    obtain ⟨hold, hsent⟩ := hstep.offers hl hs h
    exact ⟨(ho.offers hold).1, hsent ▸ (ho.offers hold).2⟩
  case kinds =>
    intro f hf
    exact (hmem f hf).elim (ho.kinds f) fun hm => .inr hm.kind.1
  case ownerAccepts =>
    intro howner f hf hacc
    rcases hmem f hf with hold | hm
    · exact ho.ownerAccepts howner f hold hacc
    · have hno := (ho.offers (hm.kind.2.1 hacc)).1
      rw [howner] at hno
      cases hno
  case check =>
    intro f hf
    exact (hmem f hf).elim (ho.check f) fun hm => hm.check hl hcodec hid
  case opened =>
    intro howner
    obtain ⟨f, hf, ht, hsv⟩ := ho.opened howner
    exact ⟨f, (handled_isPrefix hchange.log).subset hf, ht,
      hsv.trans hchange.section_.2.service.symm⟩

end End

end WeaverSSH.SessionMux
