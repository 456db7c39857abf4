import WeaverSSH.SessionMux.Order

/-!
# The bytes of an end

The frames of an end carry a prefix of the bytes handed to `Write`, in the order in which the calls
took `writeMu`. What `Read` returned and what the buffer holds is a prefix of what arrived, and the
whole of it until the stream is closed.
-/

namespace WeaverSSH.SessionMux

open List Option Call End Event SessionMux.Frame SessionMux.Stream

/-- The bytes of a `Write` that took `writeMu`. -/
def Event.wroteData : Event → Bytes
  | .wrote _ p => p
  | _ => []

/-- The bytes a `Read` returned. -/
def Event.readData : Event → Bytes
  | .read _ out => out
  | _ => []

def Event.isWriteOK : Event → Bool
  | .writeOK .. => true
  | _ => false

def Event.isEOF : Event → Bool
  | .readEOF _ => true
  | _ => false

/-- The bytes handed to `Write`, in the order in which the calls took `writeMu`. -/
def wroteBytes (log : List Event) : Bytes := log.flatMap wroteData

/-- The bytes `Read` returned. -/
def readBytes (log : List Event) : Bytes := log.flatMap readData

@[simp] lemma wroteBytes_append (l₁ l₂ : List Event) :
    wroteBytes (l₁ ++ l₂) = wroteBytes l₁ ++ wroteBytes l₂ := flatMap_append

@[simp] lemma readBytes_append (l₁ l₂ : List Event) :
    readBytes (l₁ ++ l₂) = readBytes l₁ ++ readBytes l₂ := flatMap_append

/-- The bytes of a `Write` under way, and how far its chunks reach. -/
def Site.writer? : Site → Option (Bytes × ℕ)
  | .write _ p total => some (p, total)
  | _ => none

def Call.writer? : Call → Option (Bytes × ℕ)
  | .sending _ site => site.writer?
  | .writeLoop _ p total => some (p, total)
  | _ => none

/-- A `Write` that still waits for `writeMu` has something to write. -/
def Call.startOK : Call → Prop
  | .writeLock _ p => p ≠ []
  | _ => True

/-- The control points of `Close` up to its CLOSE. -/
def Call.isClose : Call → Bool
  | .closeLock _ | .sending _ (.close _) => true
  | _ => false

lemma ReaderStep.events {h : Handle} {s s' : Stream} {r r' : Reader} {evs : List Event}
    (hstep : ReaderStep h s r s' r' evs) : ∀ w ∈ evs, w.wroteData = [] ∧ w.isWriteOK = false := by
  cases hstep <;> simp [wroteData, isWriteOK]

/-- No goroutine reads, and the one that closes the remote direction says why. -/
lemma CallStep.reads {h : Handle} {s s' : Stream} {c : Call} {pick : Mux.Pick} {c' : Option Call}
    {evs : List Event} (hstep : CallStep h s c pick s' c' evs) (hs : s.Flow) :
    (∀ w ∈ evs, w.readData = [] ∧ w.isEOF = false) ∧ s'.readBuf = s.readBuf ∧
      (s'.remoteClosed = s.remoteClosed ∧ s'.terminalErr = s.terminalErr ∨
        s'.remoteClosed = true ∧ s'.terminalErr ≠ none) := by
  cases hstep with
  | init hinit =>
    obtain ⟨-, -, rfl⟩ := Mux.initialWindowFrame_eq hinit
    exact ⟨by simp, rfl, .inl ⟨rfl, rfl⟩⟩
  | abort =>
    rename_i err
    obtain ⟨t, ht⟩ := remoteClose_some s err
    rw [ht]
    exact ⟨by simp, rfl, .inr ⟨rfl, by simp⟩⟩
  | writeChunk _ hchunk =>
    obtain ⟨-, -, -, -, -, rfl⟩ := takeChunk_eq hs hchunk
    exact ⟨by simp, rfl, .inl ⟨rfl, rfl⟩⟩
  | writeLock | writeDone => exact ⟨by simp [readData, isEOF], rfl, .inl ⟨rfl, rfl⟩⟩
  | _ => exact ⟨by simp, rfl, .inl ⟨rfl, rfl⟩⟩

namespace End

variable {owner : Bool} {l : Limits} {e e' : End} {s s' : Stream} {evs : List Event}

/-- The `Write` calls under way: those past `writeMu.Lock()`. -/
def writers (e : End) : List (Bytes × ℕ) :=
  e.calls.filterMap Call.writer? ++ e.waiting.filterMap Site.writer?

def Closed (e : End) : Prop := ∃ h, closed h ∈ e.log

/-! ## The sending side -/

structure Writes (e : End) (s : Stream) : Prop where
  sent_isPrefix : dataBytes e.outgo <+: wroteBytes e.log
  settled : s.alive → e.writers = [] → dataBytes e.outgo = wroteBytes e.log
  /-- a `Write` under way has sent what it announced, or found the stream closed -/
  progress : ∀ p t, (p, t) ∈ e.writers →
    p ≠ [] ∧ (t = 0 ∧ ¬ s.alive ∨ dataBytes e.outgo ++ p.drop t = wroteBytes e.log)
  starts : ∀ c ∈ e.calls, c.startOK
  /-- a `Write` that returned success has sent everything -/
  returned : ∀ A w B, e.log = A ++ w :: B → w.isWriteOK = true → wroteBytes A <+: dataBytes e.outgo
  closes : ∀ c ∈ e.calls, c.isClose = true → e.Closed
  closed : ∀ f ∈ e.sent, f.type = .frameClose → e.Closed

lemma Live.outgo_data (hl : Live owner l e s) :
    dataBytes e.outgo = dataBytes e.sent ++ dataBytes (e.calls.filterMap pending?) := by
  have hr : dataBytes e.reader.pending = [] :=
    dataBytes_eq_nil fun f hf => (hl.reader_pending f hf).1
  simp [outgo, hr]

lemma Call.writers_eq_nil {cs : List Call} (h : ∀ c ∈ cs, c.holds = 0) :
    cs.filterMap Call.writer? = [] := by
  refine filterMap_eq_nil_iff.mpr fun c hm => ?_
  have h0 := h c hm
  cases c with
  | sending f site => cases site <;> first | rfl | cases h0
  | writeLoop => cases h0
  | _ => rfl

lemma Site.writers_eq_nil {sites : List Site} (h : ∀ site ∈ sites, site.holds = 0) :
    sites.filterMap Site.writer? = [] := by
  refine filterMap_eq_nil_iff.mpr fun site hm => ?_
  have h0 := h site hm
  cases site <;> first | rfl | cases h0

variable {l₁ l₂ : List Call} {c : Call} {c' : Option Call} {h : Handle} {a : Mux.Act}

/-- There is no second `Write` under way, and no DATA, besides the holder of `writeMu`. -/
lemma Live.sole (hl : Live owner l e s) (hc : e.calls = l₁ ++ c :: l₂) (hholds : c.holds = 1) :
    l₁.filterMap Call.writer? = [] ∧ l₂.filterMap Call.writer? = [] ∧
      e.waiting.filterMap Site.writer? = [] ∧ dataBytes (l₁.filterMap Call.pending?) = [] ∧
      dataBytes (l₂.filterMap Call.pending?) = [] := by
  obtain ⟨h₁, h₂, hw⟩ := hl.alone hc hholds
  exact ⟨Call.writers_eq_nil h₁, Call.writers_eq_nil h₂, Site.writers_eq_nil hw,
    dataBytes_eq_nil (hl.quiet (fun c h => by simp [hc, h]) h₁),
    dataBytes_eq_nil (hl.quiet (fun c h => by simp [hc, h]) h₂)⟩

lemma Writes.quiet {v : List Event} (hw : Writes e s) (hlog : e'.log = e.log ++ v)
    (hevs : ∀ w ∈ v, w.wroteData = [] ∧ w.isWriteOK = false)
    (hdata : dataBytes e'.outgo = dataBytes e.outgo) (hwriters : e'.writers.Perm e.writers)
    (halive : s'.alive → s.alive) (hstart : ∀ c ∈ e'.calls, c ∈ e.calls ∨ c.startOK)
    (hclose : ∀ c ∈ e'.calls, c.isClose = true → c ∈ e.calls ∨ e'.Closed)
    (hsent : ∀ f ∈ e'.sent, f.type = .frameClose → f ∈ e.sent ∨ e'.Closed) : Writes e' s' := by
  have hwrote : wroteBytes e'.log = wroteBytes e.log := by
    rw [hlog, wroteBytes_append]
    have : wroteBytes v = [] := flatMap_eq_nil_iff.mpr fun w hm => (hevs w hm).1
    rw [this, append_nil]
  have hclosed : e.Closed → e'.Closed := by
    rintro ⟨h, hm⟩
    exact ⟨h, hlog ▸ mem_append_left _ hm⟩
  constructor
  case sent_isPrefix => rw [hdata, hwrote]; exact hw.sent_isPrefix
  case settled =>
    intro ha hnil
    rw [hdata, hwrote]
    rw [hnil] at hwriters
    exact hw.settled (halive ha) hwriters.nil_eq.symm
  case progress =>
    intro p t hm
    obtain ⟨hne, hp⟩ := hw.progress p t (hwriters.mem_iff.mp hm)
    refine ⟨hne, ?_⟩
    rw [hdata, hwrote]
    exact hp.imp_left fun h => ⟨h.1, fun ha => h.2 (halive ha)⟩
  case starts => exact fun c hc => (hstart c hc).elim (hw.starts c) (fun h => h)
  case returned =>
    intro A w B hsplit hok
    rw [hdata]
    rcases append_split (hlog ▸ hsplit) with ⟨B', hB⟩ | ⟨A', -, hevs'⟩
    · exact hw.returned A w B' hB hok
    · rw [(hevs w (by simp [hevs'])).2] at hok
      cases hok
  case closes =>
    exact fun c hc hcl => (hclose c hc hcl).elim (fun h => hclosed (hw.closes c h hcl)) (fun h => h)
  case closed =>
    exact fun f hf ht => (hsent f hf ht).elim (fun h => hclosed (hw.closed f h ht)) (fun h => h)

lemma Live.outgo_call (hl : Live owner l e s) (hl' : Live owner l e' s')
    (hc : e.calls = l₁ ++ c :: l₂) (hcp : c.pending? = none)
    (hc' : e'.calls = l₁ ++ c'.toList ++ l₂) (hsent : e'.sent = e.sent) :
    ∃ A B, dataBytes e.outgo = dataBytes e.sent ++ (A ++ B) ∧
      dataBytes e'.outgo = dataBytes e.sent ++ (A ++ dataBytes (c'.toList.filterMap pending?)
        ++ B) ∧ A = dataBytes (l₁.filterMap pending?) ∧
      B = dataBytes (l₂.filterMap pending?) := by
  refine ⟨_, _, ?_, ?_, rfl, rfl⟩
  · simp [hl.outgo_data, hc, hcp]
  · simp [hl'.outgo_data, hc', hsent]

section

variable (hw : Writes e s) (hl : Live owner l e s)
include hw hl

lemma Writes.call_quiet (hl' : Live owner l e' s') (hg : s.Grows s') {k : Option Call}
    (hc : e.calls = l₁ ++ c :: l₂) (hcp : c.pending? = none)
    (hc' : e'.calls = l₁ ++ k.toList ++ l₂) (hlog : e'.log = e.log)
    (hwaiting : e'.waiting = e.waiting) (hdata : ∀ f ∈ k.bind pending?, f.type ≠ .frameData)
    (hwriter : c.writer? = none) (hwriter' : k.bind writer? = none)
    (hstart : ∀ c₀ ∈ k, c₀.startOK) (hclose : ∀ c₀ ∈ k, c₀.isClose = true → c.isClose = true) :
    Writes e' s' := by
  have hsent : e'.sent = e.sent := by simp [sent, hlog]
  obtain ⟨A, B, hD, hD', -⟩ := hl.outgo_call hl' hc hcp hc' hsent
  refine hw.quiet (v := []) (by simpa using hlog) (by simp) ?_ ?_ hg.alive
    (fun c₀ hm => (mem_replaced hc hc' hm).imp_right (hstart c₀)) ?_
    (fun f hf _ => .inl (hsent ▸ hf))
  · have hnil : dataBytes (k.toList.filterMap pending?) = [] := by
      refine dataBytes_eq_nil fun f hf => hdata f ?_
      cases k with
      | none => simp at hf
      | some k => simpa using hf
    rw [hD, hD', hnil, append_nil]
  · have hnil : k.toList.filterMap Call.writer? = [] := by
      cases k with
      | none => rfl
      | some k => simpa using hwriter'
    simp [writers, hc, hc', hwaiting, hwriter, hnil]
  · intro c₀ hm hcl
    refine (mem_replaced hc hc' hm).imp_right fun hnew => ?_
    obtain ⟨h, hh⟩ := hw.closes c (by simp [hc]) (hclose c₀ hnew hcl)
    exact ⟨h, hlog ▸ hh⟩

omit hl in
/-- Calls that go on elsewhere keep what the old ones promised. -/
lemma Writes.others (hc : e.calls = l₁ ++ c :: l₂) (hc' : e'.calls = l₁ ++ c'.toList ++ l₂)
    (hlog : e.log <+: e'.log) (hstart : ∀ c₀ ∈ c', c₀.startOK)
    (hclose : ∀ c₀ ∈ c', c₀.isClose = false) :
    (∀ c₀ ∈ e'.calls, c₀.startOK) ∧ ∀ c₀ ∈ e'.calls, c₀.isClose = true → e'.Closed := by
  have hclosed : e.Closed → e'.Closed := fun ⟨h, hm⟩ => ⟨h, hlog.subset hm⟩
  refine ⟨fun c₀ hm => (mem_replaced hc hc' hm).elim (hw.starts c₀) (hstart c₀), ?_⟩
  intro c₀ hm hcl
  rcases mem_replaced hc hc' hm with hold | hnew
  · exact hclosed (hw.closes c₀ hold hcl)
  · rw [hclose c₀ hnew] at hcl
    cases hcl

/-- A `Write` ends: everything is sent, or the stream is closed. -/
lemma Writes.finish (hl' : Live owner l e' s) {p : Bytes} {total : ℕ}
    (hc : e.calls = l₁ ++ .writeLoop h p total :: l₂)
    (hc' : e'.calls = l₁ ++ (some (writeUnlock h)).toList ++ l₂)
    (hlog : e'.log = e.log ++ evs) (hwaiting : e'.waiting = e.waiting)
    (hevs : ∀ w ∈ evs, w = .writeOK h p ∧ p.length ≤ total)
    (hend : s.alive → p.length ≤ total) : Writes e' s := by
  have hnosent : sentFrames evs = [] := by
    refine filterMap_eq_nil_iff.mpr fun w hm => ?_
    rw [(hevs w hm).1]
    rfl
  have hnowrote : ∀ A ⊆ evs, wroteBytes A = [] := by
    refine fun A hA => flatMap_eq_nil_iff.mpr fun w hm => ?_
    rw [(hevs w (hA hm)).1]
    rfl
  have hsent : e'.sent = e.sent := by simp [sent, hlog, hnosent]
  obtain ⟨A, B, hD, hD', -⟩ := hl.outgo_call hl' hc rfl hc' hsent
  obtain ⟨hn₁, hn₂, hn₃, -, -⟩ := hl.sole hc rfl
  obtain ⟨hp, hprog⟩ := hw.progress p total (by simp [writers, hc, Call.writer?])
  have hDD : dataBytes e'.outgo = dataBytes e.outgo := by
    simp [hD, hD', filterMap_cons, pending?]
  have hwrote : wroteBytes e'.log = wroteBytes e.log := by
    simp [hlog, hnowrote evs (List.Subset.refl _)]
  have hwriters : e'.writers = [] := by
    simp [writers, hc', hwaiting, hn₁, hn₂, hn₃, filterMap_cons, Call.writer?]
  have hdone : p.length ≤ total → dataBytes e.outgo = wroteBytes e.log := by
    intro hle
    rcases hprog with ⟨rfl, -⟩ | heq
    · exact absurd (length_eq_zero_iff.mp (Nat.le_zero.mp hle)) hp
    · rwa [drop_eq_nil_of_le hle, append_nil] at heq
  obtain ⟨hstarts, hcloses⟩ := hw.others hc hc' (hlog ▸ prefix_append _ _)
    (by simp [startOK]) (by simp [isClose])
  refine ⟨?_, ?_, ?_, hstarts, ?_, hcloses, ?_⟩
  · rw [hDD, hwrote]
    exact hw.sent_isPrefix
  · intro ha _
    rw [hDD, hwrote]
    exact hdone (hend ha)
  · intro q t hm
    rw [hwriters] at hm
    cases hm
  · intro A w B hsplit hwok
    rw [hDD]
    rcases append_split (hlog ▸ hsplit) with ⟨B', hB⟩ | ⟨A', hA', hevs'⟩
    · exact hw.returned A w B' hB hwok
    · have hle := (hevs w (by simp [hevs'])).2
      rw [hA', wroteBytes_append, hnowrote A' (hevs' ▸ subset_append_left _ _),
        append_nil, hdone hle]
  · intro f hf ht
    obtain ⟨h₀, hm⟩ := hw.closed f (hsent ▸ hf) ht
    exact ⟨h₀, hlog ▸ mem_append_left _ hm⟩

lemma Writes.call (hl' : Live owner l e' s') {pick : Mux.Pick}
    (hc : e.calls = l₁ ++ c :: l₂) (hstep : CallStep h s c pick s' c' evs)
    (hc' : e'.calls = l₁ ++ c'.toList ++ l₂) (hlog : e'.log = e.log ++ evs)
    (hwaiting : e'.waiting = e.waiting) : Writes e' s' := by
  have hg := (hstep.frame hl.flow).1
  have hok : e.CallOK s c := hl.calls c (by simp [hc])
  have hsent : e'.sent = e.sent := by simp [sent, hlog, hstep.source.2.2]
  have hclosedSent : ∀ f ∈ e'.sent, f.type = .frameClose → e'.Closed := by
    intro f hf ht
    obtain ⟨h₀, hm⟩ := hw.closed f (hsent ▸ hf) ht
    exact ⟨h₀, hlog ▸ mem_append_left _ hm⟩
  obtain ⟨A, B, hD, hD', hA, hB⟩ := hl.outgo_call hl' hc hstep.source.1 hc' hsent
  cases hstep with
  | writeLock hmu =>
    rename_i p
    -- nobody held `writeMu`, so no `Write` was under way
    have hnone : e.writers = [] := by
      have hh := hl.holds
      rw [hmu, Bool.toNat_false, holds, Nat.add_eq_zero_iff] at hh
      rw [writers, append_eq_nil_iff]
      exact ⟨Call.writers_eq_nil fun c hm => sum_eq_zero_iff.mp hh.1 _ (mem_map_of_mem hm),
        Site.writers_eq_nil fun w hm => sum_eq_zero_iff.mp hh.2 _ (mem_map_of_mem hm)⟩
    have hwriters : e'.writers = [(p, 0)] := by
      rw [writers, append_eq_nil_iff, hc, filterMap_append, filterMap_cons,
        append_eq_nil_iff] at hnone
      obtain ⟨⟨hn₁, hn₂⟩, hn₃⟩ := hnone
      simp [writers, hc', hwaiting, hn₁, hn₃, Call.writer?] at hn₂ ⊢
      exact hn₂
    have hDD : dataBytes e'.outgo = dataBytes e.outgo := by
      simp [hD, hD', filterMap_cons, pending?]
    have hwrote : wroteBytes e'.log = wroteBytes e.log ++ p := by
      simp [hlog, wroteBytes, wroteData]
    have hp : p ≠ [] := hw.starts (.writeLock h p) (by simp [hc])
    obtain ⟨hstarts, hcloses⟩ := hw.others hc hc' (hlog ▸ prefix_append _ _)
      (by simp [startOK]) (by simp [isClose])
    refine ⟨?_, ?_, ?_, hstarts, ?_, hcloses, hclosedSent⟩
    · rw [hDD, hwrote]
      exact hw.sent_isPrefix.trans (prefix_append _ _)
    · intro _ hnil
      rw [hwriters] at hnil
      cases hnil
    · intro q t hm
      rw [hwriters, mem_singleton] at hm
      obtain ⟨rfl, rfl⟩ := Prod.mk.inj hm
      refine ⟨hp, ?_⟩
      by_cases ha : s.alive
      · right
        rw [hDD, hwrote, hw.settled ha hnone, drop_zero]
      · exact .inl ⟨rfl, ha⟩
    · intro A w B hsplit hwok
      rw [hDD]
      rcases append_split (hlog ▸ hsplit) with ⟨B', hB⟩ | ⟨A', -, hevs⟩
      · exact hw.returned A w B' hB hwok
      · obtain rfl : w = _ := mem_singleton.mp (show w ∈ [wrote h p] by simp [hevs])
        cases hwok
  | writeChunk hlt hchunk =>
    rename_i p data total
    obtain ⟨hn₁, hn₂, hn₃, hd₁, hd₂⟩ := hl.sole hc rfl
    obtain ⟨-, hloc, hterm, -, hdata, -⟩ := Stream.takeChunk_eq hl.flow hchunk
    obtain ⟨hp, hprog⟩ := hw.progress p total (by simp [writers, hc, Call.writer?])
    have heq : dataBytes e.outgo ++ p.drop total = wroteBytes e.log :=
      hprog.resolve_left fun h' => h'.2 ⟨hloc, hterm⟩
    have hDD : dataBytes e'.outgo = dataBytes e.outgo ++ data := by
      simp [hD, hD', hA, hB, hd₁, hd₂, Call.pending?, Stream.dataFrame, Frame.data]
    have hwrote : wroteBytes e'.log = wroteBytes e.log := by simp [hlog]
    have hwriters : e'.writers = [(p, total + data.length)] := by
      simp [writers, hc', hwaiting, hn₁, hn₂, hn₃, Call.writer?, Site.writer?]
    have hsplit : data ++ p.drop (total + data.length) = p.drop total := by
      obtain ⟨t, ht⟩ : data <+: p.drop total := hdata ▸ take_prefix _ _
      rw [← drop_drop, ← ht, drop_left]
    have heq' : dataBytes e'.outgo ++ p.drop (total + data.length) = wroteBytes e'.log := by
      rw [hDD, append_assoc, hsplit, heq, hwrote]
    obtain ⟨hstarts, hcloses⟩ := hw.others hc hc' (hlog ▸ prefix_append _ _)
      (by simp [startOK]) (by simp [isClose])
    refine ⟨⟨_, heq'⟩, ?_, ?_, hstarts, ?_, hcloses, hclosedSent⟩
    · intro _ hnil
      rw [hwriters] at hnil
      cases hnil
    · intro q t hm
      rw [hwriters, mem_singleton] at hm
      obtain ⟨rfl, rfl⟩ := Prod.mk.inj hm
      exact ⟨hp, .inr heq'⟩
    · intro A w B hsplit hwok
      rw [hDD]
      rw [hlog, append_nil] at hsplit
      exact (hw.returned A w B hsplit hwok).trans (prefix_append _ _)
  | writeFailed hlt hwhy =>
    refine hw.finish hl hl' hc hc' hlog hwaiting (by simp) fun ha => ?_
    rcases hwhy with h0 | h0 | h0
    · rw [hl.isOpen hok] at h0
      cases h0
    · rw [ha.1] at h0
      cases h0
    · exact absurd ha.2 h0
  | writeDone hle =>
    exact hw.finish hl hl' hc hc' hlog hwaiting (by simp [hle]) fun _ => hle
  | cancel | resetLock | closeLock =>
    exact hw.call_quiet hl hl' hg hc rfl hc' (by simpa using hlog) hwaiting
      (by simp [pending?, resetFrame, closeFrame]) rfl rfl
      (by simp [startOK]) (by simp [isClose])
  | init hinit =>
    obtain ⟨-, rfl, -⟩ := Mux.initialWindowFrame_eq hinit
    exact hw.call_quiet hl hl' hg hc rfl hc' (by simpa using hlog) hwaiting
      (by simp [pending?, windowFrame]) rfl rfl (by simp [startOK])
      (by simp [isClose])
  | _ =>
    exact hw.call_quiet hl hl' hg hc rfl hc' (by simpa using hlog) hwaiting
      (by simp [pending?]) rfl rfl (by simp [startOK]) (by simp [isClose])

lemma Writes.app (hl' : Live owner l e' s') (hstep : AppStep h a s s' c' evs)
    (hc' : e'.calls = e.calls ++ c'.toList) (hlog : e'.log = e.log ++ evs)
    (hwaiting : e'.waiting = e.waiting) : Writes e' s' := by
  obtain ⟨-, hsent, -⟩ := hstep.credit hl.flow
  have hsent' : e'.sent = e.sent := by simp [sent, hlog, hsent]
  have hnew : dataBytes (c'.toList.filterMap Call.pending?) = [] ∧
      c'.toList.filterMap Call.writer? = [] ∧ (∀ c ∈ c', c.startOK) ∧
      (∀ c ∈ c', c.isClose = true → ∃ h, Event.closed h ∈ evs) ∧
      ∀ w ∈ evs, w.wroteData = [] ∧ w.isWriteOK = false := by
    cases hstep <;> simp [filterMap_cons, pending?, writer?, Site.writer?,
      startOK, isClose, wroteData, isWriteOK, windowFrame, data]
  obtain ⟨hdata, hwriter, hstart, hclose, hevs⟩ := hnew
  refine hw.quiet hlog hevs ?_ ?_ (hstep.frame hl.flow).1.alive ?_ ?_
    (fun f hf _ => .inl (hsent' ▸ hf))
  · simp [hl.outgo_data, hl'.outgo_data, hc', hsent', hdata]
  · simp [writers, hc', hwaiting, hwriter]
  · intro c hc
    simp only [hc', mem_append, mem_toList] at hc
    exact hc.imp_right (hstart c)
  · intro c hc hcl
    simp only [hc', mem_append, mem_toList] at hc
    refine hc.imp_right fun hm => ?_
    obtain ⟨h₀, hh⟩ := hclose c hm hcl
    exact ⟨h₀, hlog ▸ mem_append_right _ hh⟩

lemma Writes.enqueue (hl' : Live owner l e' s)
    {f : Frame} {site : Site} (hc : e.calls = l₁ ++ .sending f site :: l₂)
    (hc' : e'.calls = l₁ ++ site.running.toList ++ l₂)
    (hwaiting : e'.waiting = e.waiting ++ site.waits.toList) (hlog : e'.log = e.log ++ [.sent f]) :
    Writes e' s := by
  obtain ⟨ht, -⟩ : e.CallOK s (.sending f site) := hl.calls _ (by simp [hc])
  have hsent : e'.sent = e.sent ++ [f] := by simp [sent, hlog]
  have hrun : site.running.toList.filterMap pending? = [] := by cases site <;> rfl
  have hclosed : e.Closed → e'.Closed := by
    rintro ⟨h, hm⟩
    exact ⟨h, hlog ▸ mem_append_left _ hm⟩
  refine hw.quiet hlog (by simp [wroteData, isWriteOK]) ?_ ?_ (fun h => h) ?_ ?_ ?_
  · -- DATA is queued by the holder of `writeMu`, and then no other DATA is waiting before it
    by_cases hd : f.type = .frameData
    · obtain ⟨-, -, -, hd₁, hd₂⟩ := hl.sole hc ((hl.pending (by simp [hc]) rfl).2 hd)
      simp [hl.outgo_data, hl'.outgo_data, hc, hc', hsent, hrun, hd₁, hd₂, pending?]
    · simp [hl.outgo_data, hl'.outgo_data, hc, hc', hsent, hrun, pending?, Frame.data_of_ne hd]
  · have hmove : site.running.toList.filterMap Call.writer? = [] ∧
        site.waits.toList.filterMap Site.writer? = site.writer?.toList := by
          cases site <;> exact ⟨rfl, rfl⟩
    have hold : (Call.sending f site).writer? = site.writer? := rfl
    rw [writers, writers, hc, hc', hwaiting]
    simp only [filterMap_append, hmove.1, hmove.2, append_nil]
    cases hsw : site.writer? with
    | none => simp [hold, hsw]
    | some w =>
      simp only [filterMap_cons, hold, hsw, toList_some]
      rw [← Multiset.coe_eq_coe]
      simp only [← Multiset.coe_add, ← Multiset.cons_coe, ← Multiset.singleton_add]
      rw [Multiset.coe_nil, add_zero]
      abel
  · intro c hm
    refine (mem_replaced hc hc' hm).imp_right fun hnew => ?_
    cases site <;> first | (cases hnew; done) | (obtain rfl := some.inj hnew; trivial)
  · intro c hm hcl
    refine (mem_replaced hc hc' hm).imp_right fun hnew => ?_
    cases site <;> first | (cases hnew; done) | (obtain rfl := some.inj hnew; cases hcl)
  · intro g hg hgc
    rw [hsent] at hg
    rcases mem_append.mp hg with hold | hnew
    · exact .inl hold
    · right
      obtain rfl := mem_singleton.mp hnew
      refine hclosed (hw.closes (.sending g site) (by simp [hc]) ?_)
      rw [hgc] at ht
      cases site <;> first | rfl | cases ht

lemma Writes.leave (hl' : Live owner l e' s)
    (hc : e.calls = l₁ ++ c :: l₂) (hcp : c.pending? = none)
    (hcw : c.writer? = none) (hc' : e'.calls = l₁ ++ l₂) (hwaiting : e'.waiting = e.waiting)
    (hlog : e'.log = e.log) : Writes e' s :=
  hw.call_quiet hl hl' (.refl s) (k := none) hc hcp (by simpa using hc') hlog hwaiting (by simp)
    hcw rfl (by simp) (by simp)

lemma Writes.pass {v : List Event} (hl' : Live owner l e' s')
    (hg : s.Grows s') (hcalls : e'.calls = e.calls) (hwaiting : e'.waiting = e.waiting)
    (hlog : e'.log = e.log ++ v) (hevs : ∀ w ∈ v, w.wroteData = [] ∧ w.isWriteOK = false)
    (hsent : ∀ f ∈ sentFrames v, f ∈ e.reader.pending) : Writes e' s' := by
  have hsent' : e'.sent = e.sent ++ sentFrames v := by simp [sent, hlog]
  refine hw.quiet hlog hevs ?_ (by simp [writers, hcalls, hwaiting]) hg.alive
    (fun c hc => .inl (hcalls ▸ hc)) (fun c hc _ => .inl (hcalls ▸ hc)) ?_
  · have hnil : dataBytes (sentFrames v) = [] :=
      dataBytes_eq_nil fun f hf => (hl.reader_pending f (hsent f hf)).1
    simp [hl.outgo_data, hl'.outgo_data, hcalls, hsent', hnil]
  · intro f hf ht
    rw [hsent'] at hf
    rcases mem_append.mp hf with hold | hnew
    · exact .inl hold
    · exact absurd ht (hl.reader_pending f (hsent f hnew)).2

/-- **The step lemma** of the sending side. -/
lemma Writes.step (hl' : Live owner l e' s') (hs : e.stream = some s) (hs' : e'.stream = some s')
    (hstep : Step owner l e a e') : Writes e' s' := by
  have hsame : e'.stream = e.stream → s' = s := fun h => some.inj (hs'.symm.trans (h.trans hs))
  cases hstep with
  | openStream _ hnone | openNew _ _ _ hnone => cases hs.symm.trans hnone
  | app _ hs₀ happ =>
    obtain rfl := mem_unique hs hs₀
    obtain rfl := some.inj hs'
    exact hw.app hl hl' happ rfl rfl rfl
  | call hcalls hs₀ hcall =>
    obtain rfl := mem_unique hs hs₀
    obtain rfl := some.inj hs'
    exact hw.call hl hl' hcalls hcall rfl rfl rfl
  | reader hs₀ hread =>
    obtain rfl := mem_unique hs hs₀
    obtain rfl := some.inj hs'
    refine hw.pass hl hl' (hread.frame hl.flow).1 rfl rfl rfl hread.events ?_
    simp [hread.credit.1]
  | enqueue hcalls =>
    obtain rfl := hsame rfl
    exact hw.enqueue hl hl' hcalls rfl rfl rfl
  | openReturn hcalls | remove hcalls =>
    obtain rfl := hsame rfl
    exact hw.leave hl hl' hcalls rfl rfl rfl rfl rfl
  | write _ hne =>
    rename_i h p
    obtain rfl := hsame rfl
    refine hw.quiet (v := []) (append_nil _).symm (by simp) ?_ ?_ (fun h => h) ?_ ?_
      (fun f hf _ => .inl hf)
    · simp [hl.outgo_data, hl'.outgo_data, filterMap_cons, Call.pending?, End.sent]
    · simp [writers, filterMap_cons, Call.writer?]
    · intro c hc
      refine (mem_append.mp hc).imp_right fun hm => ?_
      obtain rfl := mem_singleton.mp hm
      exact hne
    · intro c hc hcl
      refine (mem_append.mp hc).imp_right fun hm => ?_
      obtain rfl := mem_singleton.mp hm
      cases hcl
  | written hwait =>
    rename_i site rest
    obtain rfl := hsame rfl
    have hnone : site.next.toList.filterMap Call.pending? = [] := by cases site <;> rfl
    have hwr : site.next.toList.filterMap Call.writer? = [site].filterMap Site.writer? := by
      cases site <;> rfl
    refine hw.quiet (v := []) (append_nil _).symm (by simp) ?_ ?_ (fun h => h) ?_ ?_
      (fun f hf _ => .inl hf)
    · simp [hl.outgo_data, hl'.outgo_data, hnone, sent]
    · rw [writers, writers, hwait, filterMap_append, hwr, append_assoc,
        ← filterMap_append, singleton_append]
    · intro c hc
      refine (mem_append.mp hc).imp_right fun hm => ?_
      rw [mem_toList] at hm
      cases site <;> first | (cases hm; done) | (obtain rfl := some.inj hm; trivial)
    · intro c hc hcl
      refine (mem_append.mp hc).imp_right fun hm => ?_
      rw [mem_toList] at hm
      cases site <;> first | (cases hm; done) | (obtain rfl := some.inj hm; cases hcl)
  | readerEnqueue hr =>
    obtain rfl := hsame rfl
    refine hw.pass hl hl' (.refl _) rfl rfl rfl (by simp [wroteData, isWriteOK]) ?_
    simp [hr, Reader.pending]
  | openRefused | unknownData | unknownDrop =>
    obtain rfl := hsame rfl
    refine hw.pass hl hl' (.refl _) rfl rfl rfl (by simp [wroteData, isWriteOK]) ?_
    simp
  | accept | readerRemove | backlogDrop | publish | lookup =>
    obtain rfl := hsame rfl
    exact hw.pass (v := []) hl hl' (.refl _) rfl rfl (append_nil _).symm (by simp)
      (by simp [sentFrames])

end

/-! ## The receiving side -/

def PeerClosed (e : End) : Prop := ∃ f ∈ e.handled, f.type = .frameClose

structure Reads (e : End) (s : Stream) : Prop where
  read_isPrefix : readBytes e.log ++ s.readBuf <+: dataBytes e.handled
  open_ : s.remoteClosed = false → readBytes e.log ++ s.readBuf = dataBytes e.handled
  closed : s.remoteClosed = true → s.terminalErr = none →
    e.PeerClosed ∧ readBytes e.log ++ s.readBuf = dataBytes e.handled
  eof : ∀ w ∈ e.log, w.isEOF = true → e.PeerClosed ∧ readBytes e.log = dataBytes e.handled

section

variable (hr : Reads e s)
include hr

lemma Reads.keep (hlog : e'.log = e.log ++ evs)
    (hevs : ∀ w ∈ evs, w.readData = [] ∧ w.isEOF = false)
    (hdata : dataBytes (handledFrames evs) = []) (hbuf : s'.readBuf = s.readBuf)
    (hopen : s'.remoteClosed = false → s.remoteClosed = false)
    (hclosed : s'.remoteClosed = true → s'.terminalErr = none →
      s.terminalErr = none ∧ (s.remoteClosed = true ∨ e'.PeerClosed)) : Reads e' s' := by
  have hread : readBytes e'.log = readBytes e.log := by
    have hnil : readBytes evs = [] := flatMap_eq_nil_iff.mpr fun w hm => (hevs w hm).1
    rw [hlog, readBytes_append, hnil, append_nil]
  have hin : dataBytes e'.handled = dataBytes e.handled := by
    simp [handled, hlog, hdata]
  have hpeer : e.PeerClosed → e'.PeerClosed := by
    rintro ⟨f, hf, ht⟩
    exact ⟨f, (handled_isPrefix (hlog ▸ prefix_append _ _)).subset hf, ht⟩
  constructor
  case read_isPrefix => rw [hread, hbuf, hin]; exact hr.read_isPrefix
  case open_ => intro h0; rw [hread, hbuf, hin]; exact hr.open_ (hopen h0)
  case closed =>
    intro h1 h0
    obtain ⟨hterm, hwhy⟩ := hclosed h1 h0
    rw [hread, hbuf, hin]
    by_cases hrc : s.remoteClosed = true
    · exact ⟨hpeer (hr.closed hrc hterm).1, (hr.closed hrc hterm).2⟩
    · exact ⟨hwhy.resolve_left hrc, hr.open_ (by simpa using hrc)⟩
  case eof =>
    intro w hw heof
    rw [hread, hin]
    rw [hlog] at hw
    rcases mem_append.mp hw with hold | hnew
    · exact ⟨hpeer (hr.eof w hold heof).1, (hr.eof w hold heof).2⟩
    · rw [(hevs w hnew).2] at heof
      cases heof

/-- DATA arrives: it is appended to the buffer, or finds the stream closed. -/
lemma Reads.got {f : Frame} (hlog : e'.log = e.log ++ evs)
    (hevs : ∀ w ∈ evs, w.readData = [] ∧ w.isEOF = false) (hf : handledFrames evs = [f])
    (ht : f.type = .frameData) (hno : ¬ e.PeerClosed)
    (hbuf : (s'.readBuf = s.readBuf ++ f.payload ∧ s.remoteClosed = false ∧
        s'.remoteClosed = false) ∨
      (s'.readBuf = s.readBuf ∧ s.remoteClosed = true ∧ s'.remoteClosed = true ∧
        s'.terminalErr = s.terminalErr)) : Reads e' s' := by
  have hread : readBytes e'.log = readBytes e.log := by
    have hnil : readBytes evs = [] := flatMap_eq_nil_iff.mpr fun w hm => (hevs w hm).1
    rw [hlog, readBytes_append, hnil, append_nil]
  have hin : dataBytes e'.handled = dataBytes e.handled ++ f.payload := by
    simp [handled, hlog, hf, data_of_eq ht]
  have heof : ∀ w ∈ e'.log, w.isEOF = true → False := by
    intro w hw h1
    rw [hlog] at hw
    rcases mem_append.mp hw with hold | hnew
    · exact hno (hr.eof w hold h1).1
    · rw [(hevs w hnew).2] at h1
      cases h1
  rcases hbuf with ⟨hb, hopen, hopen'⟩ | ⟨hb, hclosed, hclosed', hterm⟩
  · have heq : readBytes e'.log ++ s'.readBuf = dataBytes e'.handled := by
      rw [hread, hb, hin, ← hr.open_ hopen, append_assoc]
    refine ⟨heq ▸ prefix_refl _, fun _ => heq, fun h1 => ?_, fun w hw h1 => (heof w hw h1).elim⟩
    rw [hopen'] at h1
    cases h1
  · refine ⟨?_, fun h0 => ?_, fun _ h0 => ?_, fun w hw h1 => (heof w hw h1).elim⟩
    · rw [hread, hb, hin]
      exact hr.read_isPrefix.trans (prefix_append _ _)
    · rw [hclosed'] at h0
      cases h0
    · exact absurd (hr.closed hclosed (hterm ▸ h0)).1 hno

lemma Reads.app (hl : Live owner l e s)
    (hstep : AppStep h a s s' c' evs) (hlog : e'.log = e.log ++ evs) : Reads e' s' := by
  -- `Read` moves bytes from the buffer to the application
  have hread : ∀ out, evs = [.read h out] → out ++ s'.readBuf = s.readBuf →
      s'.remoteClosed = s.remoteClosed → s'.terminalErr = s.terminalErr → Reads e' s' := by
    rintro out rfl hbuf hrc hterm
    have hbytes : readBytes e'.log ++ s'.readBuf = readBytes e.log ++ s.readBuf := by
      rw [← hbuf, hlog]
      simp [readBytes, readData]
    have hin : e'.handled = e.handled := by
      simp [handled, hlog, handledFrames, handled?]
    refine ⟨?_, ?_, ?_, ?_⟩
    · rw [hbytes, hin]
      exact hr.read_isPrefix
    · rw [hbytes, hin, hrc]
      exact hr.open_
    · rw [hbytes, hin, hrc, hterm, PeerClosed, hin]
      exact hr.closed
    · intro w hw heof
      rw [hlog] at hw
      have hold : w ∈ e.log := by
        refine (mem_append.mp hw).resolve_right fun hnew => ?_
        rw [mem_singleton.mp hnew] at heof
        cases heof
      obtain ⟨hpeer, heq⟩ := hr.eof w hold heof
      rw [PeerClosed, hin]
      refine ⟨hpeer, ?_⟩
      have hle := hr.read_isPrefix.length_le
      rw [← heq, length_append] at hle
      have hnil : s.readBuf = [] := length_eq_zero_iff.mp (by omega)
      rw [hnil, append_eq_nil_iff] at hbuf
      rw [hlog, readBytes_append, ← heq, hbuf.1]
      simp [readBytes, readData]
  cases hstep with
  | readNothing =>
    exact hr.keep hlog (by simp) rfl rfl (fun h => h) (fun h1 h0 => ⟨h0, .inl h1⟩)
  | readFailed | close =>
    exact hr.keep hlog (by simp [readData, isEOF]) rfl rfl (fun h => h)
      (fun h1 h0 => ⟨h0, .inl h1⟩)
  | reset => exact hr.keep hlog (by simp) rfl rfl (by simp) (by simp)
  | readViolation hv => exact absurd hv (read_ne_violation hl.flow)
  | read hd | readGrant hd =>
    obtain ⟨-, rfl, ⟨-, -, rfl⟩ | ⟨-, rfl, -⟩⟩ := read_eq hl.flow hd <;>
      exact hread _ rfl (take_append_drop _ _) rfl rfl
  | readEOF heof =>
    obtain ⟨hnil, hclosed, hterm⟩ :
        s.readBuf = [] ∧ s.remoteClosed = true ∧ s.terminalErr = none := by
      unfold Stream.read Stream.returnCredit at heof
      split_ifs at heof <;> grind
    have hin : e'.handled = e.handled := by
      simp [handled, hlog, handledFrames, handled?]
    have hbytes : readBytes e'.log = readBytes e.log := by
      simp [hlog, readBytes, readData]
    refine ⟨?_, ?_, ?_, fun _ _ _ => ?_⟩
    · rw [hbytes, hin]
      exact hr.read_isPrefix
    · rw [hbytes, hin]
      exact hr.open_
    · rw [hbytes, hin, PeerClosed, hin]
      exact hr.closed
    · rw [hbytes, hin, PeerClosed, hin]
      have hc := hr.closed hclosed hterm
      rwa [hnil, append_nil] at hc

/-- What the reader loop does to the stream. `hgood` is what the peer guarantees of its DATA. -/
lemma Reads.read (hl : Live owner l e s) {r' : Reader}
    (hstep : ReaderStep h s e.reader s' r' evs) (hlog : e'.log = e.log ++ evs)
    (hgood : ∀ f, handledFrames evs = [f] → f.type = .frameData → ¬ e.PeerClosed ∧
      s.service = f.service ∧ s.windowAdvertised = true ∧
      (s.remoteClosed = false → ∃ t, s.deliver f.payload = .ok t)) : Reads e' s' := by
  have hsignal : ∀ err f, evs = [.handled f] ∨ (∃ e₁, evs = [.handled f, .violation f e₁]) →
      f.type ≠ .frameData → s' = s.signalAccepted err → Reads e' s' := by
    rintro err f hevs ht rfl
    obtain ⟨x, hx⟩ := signalAccepted_eq s err
    rw [hx]
    refine hr.keep hlog ?_ ?_ rfl (fun h => h) (fun h1 h0 => ⟨h0, .inl h1⟩)
    · rcases hevs with rfl | ⟨e₁, rfl⟩ <;> simp [readData, isEOF]
    · rcases hevs with rfl | ⟨e₁, rfl⟩ <;>
        simp [handledFrames, filterMap_cons, handled?, data_of_ne ht]
  have hclose : ∀ err, evs = [] → s' = s.remoteClose (some err) → Reads e' s' := by
    rintro err rfl rfl
    obtain ⟨t, ht⟩ := remoteClose_some s err
    rw [ht]
    exact hr.keep hlog (by simp) rfl rfl (by simp) (by simp)
  have hsame : evs = [] → s'.readBuf = s.readBuf → s'.remoteClosed = s.remoteClosed →
      s'.terminalErr = s.terminalErr → Reads e' s' := by
    rintro rfl hb hrc hterm
    refine hr.keep hlog (by simp) rfl hb (fun h => hrc ▸ h) (fun h1 h0 => ?_)
    exact ⟨hterm ▸ h0, .inl (hrc ▸ h1)⟩
  have hreader := hl.reader
  generalize hrd : e.reader = rd at hstep hreader
  cases hstep with
  | accept ht | windowService ht | windowPayload ht | closeService ht =>
    exact hsignal _ _ (.inl rfl) (by simp [ht]) rfl
  | windowRefused ht => exact hsignal _ _ (.inr ⟨_, rfl⟩) (by simp [ht]) rfl
  | reset _ _ ht => exact hsignal _ _ (.inl rfl) ht rfl
  | resetClose | failClose | openFull | openFail => exact hclose _ rfl rfl
  | init hinit =>
    obtain ⟨-, -, rfl⟩ := Mux.initialWindowFrame_eq hinit
    exact hsame rfl rfl rfl rfl
  | data | closeKept | closeRemove | openAccept | initFailed | mark => exact hsame rfl rfl rfl rfl
  | window ht _ hdec hadd =>
    have hk : s'.readBuf = s.readBuf ∧ s'.remoteClosed = s.remoteClosed ∧
        s'.terminalErr = s.terminalErr := by
      obtain ⟨-, rfl⟩ | ⟨-, -, -, -, rfl⟩ | ⟨-, -, -, -, rfl⟩ :=
        addSendCredit_eq hl.flow (decodeWindowCredit_lt hdec).2 hadd <;>
        exact ⟨rfl, rfl, rfl⟩
    refine hr.keep hlog (by simp [readData, isEOF]) ?_ hk.1 (fun h => hk.2.1 ▸ h)
      (fun h1 h0 => ⟨hk.2.2 ▸ h0, .inl (hk.2.1 ▸ h1)⟩)
    have hnd := data_of_ne (show _ ≠ FrameType.frameData by rw [ht]; simp)
    simp [hnd]
  | close ht =>
    rename_i f hsv
    rw [remoteClose_none]
    refine hr.keep hlog (by simp [readData, isEOF]) ?_ rfl (by simp)
      (fun _ h0 => ⟨h0, .inr ⟨f, ?_, ht⟩⟩)
    · simp [data_of_ne (f := f) (by simp [ht])]
    · simp [handled, hlog]
  | dataRefused ht hwhy =>
    obtain ⟨-, hsv, hadv, -⟩ := hgood _ rfl ht
    rcases hwhy with h0 | h0
    · rw [hl.isOpen hadv] at h0
      cases h0
    · exact absurd hsv h0
  | deliver hdel =>
    rename_i f
    obtain ⟨hno, -, hadv, -⟩ := hgood f rfl hreader
    obtain ⟨hnil, rfl⟩ | ⟨-, hopen, -, -, rfl⟩ := deliver_eq hl.flow hdel
    · refine hr.keep hlog (by simp [readData, isEOF]) ?_ rfl (fun h => h)
        (fun h1 h0 => ⟨h0, .inl h1⟩)
      simp [data, hnil]
    · exact hr.got hlog (by simp [readData, isEOF]) rfl hreader hno
        (.inl ⟨rfl, hopen, hopen⟩)
  | deliverRefused hdel =>
    rename_i f err
    obtain ⟨hno, -, hadv, hopen⟩ := hgood f rfl hreader
    have hclosed : s.remoteClosed = true := by
      by_contra h0
      obtain ⟨t, ht⟩ := hopen (by simpa using h0)
      rw [hdel] at ht
      cases ht
    obtain ⟨x, hx⟩ := signalAccepted_eq s (some err)
    rw [hx]
    exact hr.got hlog (by simp [readData, isEOF]) rfl hreader hno
      (.inr ⟨rfl, hclosed, hclosed, rfl⟩)

/-- **The step lemma** of the receiving side. -/
lemma Reads.step (hl : Live owner l e s)
    (hs : e.stream = some s) (hs' : e'.stream = some s') (hstep : Step owner l e a e')
    (hgood : ∀ f, e'.handled = e.handled ++ [f] → f.type = .frameData → ¬ e.PeerClosed ∧
      s.service = f.service ∧ s.windowAdvertised = true ∧
      (s.remoteClosed = false → ∃ t, s.deliver f.payload = .ok t)) : Reads e' s' := by
  have hsame : e'.stream = e.stream → s' = s := fun h => some.inj (hs'.symm.trans (h.trans hs))
  have hkeep : ∀ evs, e'.stream = e.stream → e'.log = e.log ++ evs →
      (∀ w ∈ evs, w.readData = [] ∧ w.isEOF = false) → dataBytes (handledFrames evs) = [] →
      Reads e' s' := by
    intro evs hst hlog hevs hdata
    obtain rfl := hsame hst
    exact hr.keep hlog hevs hdata rfl (fun h => h) (fun h1 h0 => ⟨h0, .inl h1⟩)
  cases hstep with
  | openStream _ hnone | openNew _ _ _ hnone => cases hs.symm.trans hnone
  | app _ hs₀ happ =>
    obtain rfl := mem_unique hs hs₀
    obtain rfl := some.inj hs'
    exact hr.app hl happ rfl
  | call _ hs₀ hcall =>
    obtain rfl := mem_unique hs hs₀
    obtain rfl := some.inj hs'
    obtain ⟨hevs, hbuf, hflags⟩ := hcall.reads hl.flow
    refine hr.keep rfl hevs (by simp [hcall.source.2.1]) hbuf ?_ ?_
    · rcases hflags with ⟨hrc, -⟩ | ⟨hrc, -⟩
      · exact fun h => hrc ▸ h
      · exact fun h => by rw [hrc] at h; cases h
    · rcases hflags with ⟨hrc, hterm⟩ | ⟨-, hterm⟩
      · exact fun h1 h0 => ⟨hterm ▸ h0, .inl (hrc ▸ h1)⟩
      · exact fun _ h0 => absurd h0 hterm
  | reader hs₀ hread =>
    obtain rfl := mem_unique hs hs₀
    obtain rfl := some.inj hs'
    refine hr.read hl hread rfl fun f hf => hgood f ?_
    simp [handled, hf]
  | unknownData _ hlst ht =>
    rename_i f hrd
    obtain rfl := hsame rfl
    obtain ⟨hno, -, hadv, -⟩ := hgood f (by simp [handled]) ht
    -- a stream that left the table is closed
    have hclosed : s'.remoteClosed = true := by
      rcases (hl.unlisted hlst).1 with h | h
      · exact h
      · rw [h.2] at hadv
        cases hadv
    exact hr.got rfl (by simp [readData, isEOF]) rfl ht hno
      (.inr ⟨rfl, hclosed, hclosed, rfl⟩)
  | openRefused _ _ ht =>
    rename_i f _ _
    refine hkeep _ rfl rfl (by simp [readData, isEOF]) ?_
    simp [data_of_ne (f := f) (by simp [ht])]
  | unknownDrop _ _ _ ht =>
    refine hkeep _ rfl rfl (by simp [readData, isEOF]) ?_
    simp [data_of_ne ht]
  | enqueue | readerEnqueue =>
    exact hkeep _ rfl rfl (by simp [readData, isEOF]) rfl
  | accept | write | written | openReturn | remove | readerRemove | backlogDrop | publish
  | lookup => exact hkeep [] rfl (append_nil _).symm (by simp) rfl

end

end End

end WeaverSSH.SessionMux
