import WeaverSSH.SessionMux.Calm

/-!
# The two ends of a stream

`Pair` joins the two ends of one stream identifier: each has handled a prefix of what the other has
queued. So the next frame is one that an end may expect (`Pair.honest`), and every step keeps both.

An end that has no stream is `Absent`: the owner until it opens the stream, the other end until the
OPEN arrives, and for good when it is refused.
-/

namespace WeaverSSH.SessionMux

open List Call End Event SessionMux.Frame Option Reader SessionMux.Stream

/-- Limits that come from the payload setting `dp`, with a codec that can carry a WINDOW. -/
structure Limits.Matched (dp : ℕ) (l : Limits) : Prop where
  payload : l.maxDataPayload = min dp l.initialWindow
  codec : 4 ≤ l.codecMax

namespace End

variable {dp pw : ℕ} {owner : Bool} {l lp : Limits} {e e' p : End} {s t : Stream} {f : Frame}

/-! ## One end -/

/-- An end without a stream. -/
structure Absent (owner : Bool) (l : Limits) (e : End) : Prop where
  stream : e.stream = none
  listed : e.listed = false
  fresh : e.Fresh
  reader : e.reader = .ready ∨ ∃ f site, e.reader = .sending f site ∧ site.next = .ready
  resets : ∀ f ∈ e.outgo, f.type = .frameReset ∧ writeFrameCheck l.codecMax f = none
  unopened : owner = true → e.log = [] ∧ e.reader = .ready
  refused : owner = false → e.outgo ≠ [] → ∃ f ∈ e.handled, f.type = .frameOpen
  log : ∀ w ∈ e.log, (∃ f, w = .sent f) ∨ ∃ f, w = .handled f

structure Sane (owner : Bool) (l : Limits) (pw : ℕ) (e : End) (s : Stream) : Prop where
  stream : e.stream = some s
  live : Live owner l e s
  credit : Credit l pw e s
  order : Order owner l e s
  writes : Writes e s
  reads : Reads e s

def OK (owner : Bool) (l : Limits) (pw : ℕ) (e : End) : Prop :=
  e.Absent owner l ∨ ∃ s, e.Sane owner l pw s

lemma OK.sane (h : e.OK owner l pw) (hs : e.stream = some s) : e.Sane owner l pw s := by
  rcases h with ha | ⟨s₀, hs₀⟩
  · rw [ha.stream] at hs
    cases hs
  · obtain rfl := some.inj (hs₀.stream.symm.trans hs)
    exact hs₀

lemma OK.sane_of_sent (h : e.OK owner l pw) (hf : f ∈ e.sent) (ht : f.type ≠ .frameReset) :
    ∃ s, e.Sane owner l pw s := by
  rcases h with ha | hs
  · exact absurd (ha.resets f ((outgo_sent e).subset hf)).1 ht
  · exact hs

/-- Every frame an end sends passes the checks of the codec and belongs to a stream. -/
lemma OK.check (h : e.OK owner l pw) (hf : f ∈ e.outgo) :
    writeFrameCheck l.codecMax f = none ∧ (f.type = .frameOpen ∨ Mux.isLookup f.type = true) := by
  rcases h with ha | ⟨s, hs⟩
  · obtain ⟨ht, hc⟩ := ha.resets f hf
    exact ⟨hc, .inr (by rw [ht]; rfl)⟩
  · exact ⟨hs.order.check f hf, hs.order.kinds f hf⟩

lemma streamID_ne_zero {n : ℕ} (hc : writeFrameCheck n f = none)
    (hk : f.type = .frameOpen ∨ Mux.isLookup f.type = true) : f.streamID ≠ 0 := by
  intro h0
  have hno : f.type ≠ .framePing ∧ f.type ≠ .framePong := by
    constructor <;> intro ht <;> rw [ht] at hk <;> rcases hk with hk | hk <;> cases hk
  unfold writeFrameCheck at hc
  split at hc
  · cases hc
  split at hc
  · cases hc
  split at hc
  · cases hc
  · rw [if_pos ⟨h0, hno⟩] at hc
    cases hc

/-- An end that did not open the stream sends nothing before it has handled the OPEN. -/
lemma OK.opened (h : e.OK false l pw) (hsent : e.sent ≠ []) :
    ∃ f ∈ e.handled, f.type = .frameOpen := by
  rcases h with ha | ⟨s, hs⟩
  · refine ha.refused rfl fun h0 => hsent ?_
    exact prefix_nil.mp (h0 ▸ outgo_sent e)
  · obtain ⟨f, hf, ht, -⟩ := hs.order.opened rfl
    exact ⟨f, hf, ht⟩

lemma OK.opens (h : e.OK owner l pw) : e.sent.countP Frame.isOpen ≤ if owner then 1 else 0 := by
  rcases h with ha | ⟨s, hs⟩
  · have hzero : e.sent.countP Frame.isOpen = 0 := by
      rw [countP_eq_zero]
      intro f hf hop
      have ht := (ha.resets f ((outgo_sent e).subset hf)).1
      rw [Frame.isOpen, ht] at hop
      cases hop
    rw [hzero]
    exact Nat.zero_le _
  · rw [← hs.order.opens]
    exact (outgo_sent e).sublist.countP_le

/-! ## The pair -/

/-- The two ends of a stream: `e` owns it when `owner` says so. -/
structure Pair (dp : ℕ) (owner : Bool) (l lp : Limits) (e p : End) : Prop where
  mine : e.OK owner l lp.initialWindow
  theirs : p.OK (!owner) lp l.initialWindow
  into : e.handled <+: p.sent
  outof : p.handled <+: e.sent
  service : ∀ s t, e.stream = some s → p.stream = some t → s.service = t.service
  first : ∀ f B, (if owner then e else p).sent = f :: B → f.type = .frameOpen
  matched : l.Matched dp
  matched' : lp.Matched dp

section

variable (hp : Pair dp owner l lp e p)
include hp

lemma Pair.symm : Pair dp (!owner) lp l p e where
  mine := hp.theirs
  theirs := by rw [Bool.not_not]; exact hp.mine
  into := hp.outof
  outof := hp.into
  service := fun s t hs ht => (hp.service t s ht hs).symm
  first := by
    have h := hp.first
    cases owner <;> simpa using h
  matched := hp.matched'
  matched' := hp.matched

/-- What an end may assume of the next frame it handles. -/
lemma Pair.honest (hs : e.stream = some s)
    (hf : e.handled ++ [f] <+: p.sent) : Honest lp.initialWindow dp e s f := by
  have hmem : f ∈ p.sent := hf.subset (by simp)
  have hout : f ∈ p.outgo := (outgo_sent p).subset hmem
  have hle : ∀ {t}, p.Sane (!owner) lp l.initialWindow t →
      (dataBytes e.handled).length + f.data.length ≤ creditSum e.outgo ∧
      creditSum e.handled + f.credit ≤ lp.initialWindow + (dataBytes e.outgo).length := by
    intro t ht
    have hsent := outgo_sent p
    have hd := (dataBytes_isPrefix (hf.trans hsent)).length_le
    have hc := creditSum_le (hf.trans hsent)
    have hd' := (dataBytes_isPrefix (hp.outof.trans (outgo_sent e))).length_le
    have hc' := creditSum_le (hp.outof.trans (outgo_sent e))
    have h₁ := ht.credit.send_le
    have h₂ := ht.credit.recv_le
    simp only [dataBytes_append, dataBytes_cons, dataBytes_nil, append_nil,
      length_append, creditSum_append, creditSum_cons, creditSum_nil, add_zero] at hd hc
    constructor <;> omega
  constructor
  case service =>
    intro ht
    obtain ⟨t, hsane⟩ := hp.theirs.sane_of_sent hmem ht
    rw [hsane.credit.service f hout ht, hp.service s t hs hsane.stream]
  case data =>
    intro ht
    obtain ⟨t, hsane⟩ := hp.theirs.sane_of_sent hmem (by rw [ht]; nofun)
    obtain ⟨hne, hlen⟩ := hsane.credit.datas f hout ht
    have hpay := hp.matched'.payload
    have h₁ := (hle hsane).1
    rw [data_of_eq ht] at h₁
    exact ⟨hne, by omega, h₁⟩
  case window =>
    intro ht
    obtain ⟨t, hsane⟩ := hp.theirs.sane_of_sent hmem (by rw [ht]; nofun)
    obtain ⟨c, hdec⟩ := hsane.credit.windows f hout ht
    have h₂ := (hle hsane).2
    rw [credit_of_eq ht hdec] at h₂
    refine ⟨c, hdec, h₂, fun _ hnil => ?_⟩
    rcases hsane.credit.first f hout ht with heq | hne
    · rwa [credit_of_eq ht hdec] at heq
    · refine absurd ?_ hne
      have hpre := dataBytes_isPrefix (hp.outof.trans (outgo_sent e))
      rw [hnil] at hpre
      exact prefix_nil.mp hpre

lemma Pair.streamID (hf : e.handled ++ [f] <+: p.sent) : f.streamID ≠ 0 := by
  have hout : f ∈ p.outgo := (outgo_sent p).subset (hf.subset (by simp))
  obtain ⟨hc, hk⟩ := hp.theirs.check hout
  exact streamID_ne_zero hc hk

end

/-- Before the owner has sent its OPEN the other end is silent. -/
lemma Pair.silent (hp : Pair dp true l lp e p) (hsent : e.sent = []) : p.sent = [] := by
  by_contra hne
  obtain ⟨f, hf, -⟩ := hp.theirs.opened hne
  have hpre := hp.outof
  rw [hsent, prefix_nil] at hpre
  rw [hpre] at hf
  cases hf

variable {a : Mux.Act}

/-- While nothing was heard, an end sends nothing but OPEN. -/
lemma Live.opening (hl : Live owner l e s) (hs : e.stream = some s)
    (hstep : Step owner l e a e') (hheard : ¬ e.Heard) :
    e'.sent = e.sent ∨ ∃ f, e'.sent = e.sent ++ [f] ∧ f.type = .frameOpen := by
  rcases hstep.queues hl hs with hsent | ⟨hc, -, hsent, -⟩ | ⟨hr, -, hsent, -⟩
  · exact .inl hsent
  · rename_i l₁ l₂ f site
    obtain ⟨ht, hok⟩ : e.CallOK s (.sending f site) := hl.calls _ (by simp [hc])
    refine .inr ⟨f, hsent, ?_⟩
    cases site with
    | opening => exact ht
    | cancel => exact absurd hok.2 hheard
    | openWindow | write | readGrant => exact absurd (hl.advertised hok) hheard
    | close | reset => exact absurd (hl.advertised hok.1) hheard
  · rename_i f site
    have hok := hl.reader
    rw [hr] at hok
    cases site with
    | accept => exact absurd hok.2.2.2 hheard
    | window => exact absurd (hl.advertised hok.2.2) hheard
    | reset => exact absurd hok.2.2 hheard
    | reply | ignored => exact absurd hok.2 hheard

lemma sent_isPrefix (hlog : e.log <+: e'.log) : e.sent <+: e'.sent := by
  obtain ⟨t, ht⟩ := hlog
  simp only [sent, ← ht, sentFrames_append]
  exact prefix_append _ _

lemma Pair.dataOrder (hp : Pair dp owner l lp e p) (hf : e.handled ++ [f] <+: p.sent)
    (ht : f.type = .frameData) : ¬ e.PeerClosed := by
  rintro ⟨g, hg, hgc⟩
  obtain ⟨u, hsane⟩ := hp.theirs.sane_of_sent (hf.subset (by simp : f ∈ _)) (by rw [ht]; nofun)
  have hord := hsane.order.ordered.sublist hf.sublist
  rw [pairwise_append] at hord
  exact hord.2.2 g hg f (mem_singleton_self f) hgc ht

lemma Pair.sane_step (hp : Pair dp owner l lp e p)
    (hsane : e.Sane owner l lp.initialWindow s) (hstep : Step owner l e a e')
    (hguard : e'.handled <+: p.sent) :
    ∃ s', e'.Sane owner l lp.initialWindow s' ∧ Change e s e' s' := by
  obtain ⟨hs, hl, hc, ho, hw, hr⟩ := hsane
  obtain ⟨s', hs', hchange⟩ := hl.step hs hstep
  have hl' := hl.change hchange
  have hh : ∀ f, e'.handled = e.handled ++ [f] → Honest lp.initialWindow dp e s f :=
    fun f hf => hp.honest hs (hf ▸ hguard)
  refine ⟨s', ⟨hs', hl', ?_, ?_, ?_, ?_⟩, hchange⟩
  · exact hc.step hl lp.window_le hp.matched.payload hs hs' hstep hh
  · exact ho.step hl hp.matched.codec hs hstep hchange fun g hg => hp.streamID (hg ▸ hguard)
  · exact hw.step hl hl' hs hs' hstep
  · refine hr.step hl hs hs' hstep fun f hf ht => ?_
    have hhf := hh f hf
    exact ⟨hp.dataOrder (hf ▸ hguard) ht, (hhf.service (by rw [ht]; nofun)).symm,
      hc.advertised ht hhf, hc.deliver_ok hl hp.matched.payload ht hhf⟩

lemma Absent.opened (ha : e.Absent true l) {id : StreamID} {h : Handle} {service : ServiceID}
    {metadata : Bytes} (hid : id ≠ 0) (hsv : service.valid = true)
    (hlen : metadata.length ≤ l.codecMax) : Sane true l pw { e with
      stream := some (newStream l id service [] false), listed := true
      calls := e.calls ++ [.sending
        ((newStream l id service [] false).openFrame metadata) (.opening h)] }
      (newStream l id service [] false) := by
  obtain ⟨hlog, hrd⟩ := ha.unopened rfl
  obtain ⟨hcalls, hwaiting, hheld, hqueued⟩ := ha.fresh
  refine ⟨rfl, ?_, ?_, ?_, ?_, ?_⟩
  · constructor
    case flow => exact flow_newStream _ _ _ _ _
    case limits => rfl
    case id_ne => exact hid
    case holds => simp [End.holds, hcalls, hwaiting, Call.holds, Site.holds, newStream]
    case pre => simp [End.pre, hcalls, hwaiting, hrd, Call.pre, Site.pre, Reader.pre, newStream]
    case calls => simp [hcalls, CallOK, SiteOK, Site.frameType, Stream.openFrame]
    case waiting => simp [hwaiting]
    case reader => simp [hrd, ReaderOK]
    all_goals simp [newStream, hheld, hqueued]
  · constructor <;> simp [outgo, sent, handled, hlog, hcalls, hrd, sentFrames,
      handledFrames, pending?, pending, openFrame, data, credit, newStream]
  · constructor
    case check =>
      simp [outgo, sent, hlog, hcalls, hrd, sentFrames, pending?, pending,
        writeFrameCheck, openFrame, FrameType.valid, validateFramePayloadLength, newStream,
        hid, hlen, hsv]
    all_goals simp [outgo, End.sent, End.handled, hlog, hcalls, hrd, sentFrames, handledFrames,
      Call.pending?, Reader.pending, Reader.offers, Stream.openFrame, Frame.isOpen, Frame.isData,
      newStream]
  · constructor <;> simp [outgo, writers, sent, hlog, hcalls, hwaiting, hrd, sentFrames,
      wroteBytes, pending?, pending, openFrame, data, writer?,
      Site.writer?, startOK, isClose, filterMap_cons]
  · constructor <;> simp [handled, hlog, handledFrames, readBytes, newStream]

lemma Absent.offered (ha : e.Absent false l) {h : Handle} (hin : e.handled = [])
    (ht : f.type = .frameOpen) (hid : f.streamID ≠ 0) : Sane false l pw { e with
      stream := some (newStream l f.streamID f.service f.payload true), listed := true
      reader := .opened h
      log := e.log ++ [.handled f] } (newStream l f.streamID f.service f.payload true) := by
  obtain ⟨hcalls, hwaiting, hheld, hqueued⟩ := ha.fresh
  have hout : e.outgo = [] := by
    by_contra hne
    obtain ⟨g, hg, -⟩ := ha.refused rfl hne
    rw [hin] at hg
    cases hg
  have hsent : e.sent = [] := prefix_nil.mp (hout ▸ outgo_sent e)
  have hlog : e.log = [] := by
    rw [eq_nil_iff_forall_not_mem]
    intro w hw
    rcases ha.log w hw with ⟨g, rfl⟩ | ⟨g, rfl⟩
    · have hm : g ∈ e.sent := mem_filterMap.mpr ⟨_, hw, rfl⟩
      rw [hsent] at hm
      cases hm
    · have hm : g ∈ e.handled := mem_filterMap.mpr ⟨_, hw, rfl⟩
      rw [hin] at hm
      cases hm
  have hnd : f.data = [] := data_of_ne (by rw [ht]; nofun)
  have hnc : f.credit = 0 := credit_of_ne (by rw [ht]; nofun)
  refine ⟨rfl, ?_, ?_, ?_, ?_, ?_⟩
  · have hheard : End.Heard { e with
        stream := some (newStream l f.streamID f.service f.payload true)
        listed := true
        reader := .opened h
        log := e.log ++ [.handled f] } :=
      heard_of_mem (mem_append_right _ (mem_singleton_self (Event.handled f)))
    constructor
    case flow => exact flow_newStream _ _ _ _ _
    case limits => rfl
    case id_ne => exact hid
    case holds => simp [End.holds, hcalls, hwaiting, newStream]
    case pre => simp [End.pre, hcalls, hwaiting, Reader.pre, newStream]
    case calls => simp [hcalls]
    case waiting => simp [hwaiting]
    case reader => exact ⟨⟨hcalls, hwaiting, hheld, hqueued⟩, rfl, hheard⟩
    case acceptor => exact fun _ => hheard
    all_goals simp [newStream, hheld, hqueued]
  · constructor <;> simp [outgo, sent, handled, hlog, hcalls, sentFrames, handledFrames,
      filterMap_cons, sent?, handled?, pending, newStream, hnd, hnc]
  · constructor <;> simp [outgo, sent, handled, hlog, hcalls, sentFrames, handledFrames,
      filterMap_cons, sent?, handled?, pending, offers, newStream, ht]
  · constructor
    case returned =>
      intro A w B hsplit hok
      rw [hlog] at hsplit
      obtain rfl : w = .handled f := by
        have : w ∈ [Event.handled f] := by simp [show [Event.handled f] = A ++ w :: B from hsplit]
        simpa using this
      cases hok
    all_goals simp [outgo, writers, sent, hlog, hcalls, hwaiting, sentFrames, wroteBytes,
      filterMap_cons, sent?, wroteData, pending]
  · constructor <;> simp [handled, hlog, readBytes, readData, isEOF, newStream, hnd]

lemma Pair.open_first (hp : Pair dp false l lp e p) (hf : e.handled ++ [f] <+: p.sent)
    (ht : f.type = .frameOpen) : e.handled = [] := by
  cases hin : e.handled with
  | nil => rfl
  | cons g r =>
    rw [hin] at hf
    obtain ⟨u, hu⟩ := hf
    have hg := hp.first g (r ++ [f] ++ u) (by simp [← hu])
    have hle := hp.theirs.opens
    simp [← hu, countP_append, Frame.isOpen, ht, hg] at hle

lemma Pair.heard_open (hp : Pair dp false l lp e p) (hf : e.handled ++ [f] <+: p.sent)
    (ht : f.type ≠ .frameOpen) : ∃ g ∈ e.handled, g.type = .frameOpen := by
  obtain ⟨u, hu⟩ := hf
  cases hin : e.handled with
  | nil => exact absurd (hp.first f u (by simp [← hu, hin])) ht
  | cons g r => exact ⟨g, by simp, hp.first g (r ++ [f] ++ u) (by simp [← hu, hin])⟩

lemma Absent.reply (ha : e.Absent false l) {site : ReaderSite} (hsite : site.next = .ready)
    (hrd : e.reader = .ready) (hid : f.streamID ≠ 0)
    (hopen : ∃ g ∈ e.handled ++ [f], g.type = .frameOpen) : Absent false l { e with
      reader := .sending f.resetReply site, log := e.log ++ [.handled f] } := by
  have hin : handledFrames (e.log ++ [.handled f]) = e.handled ++ [f] := by
    simp [handled]
  have hout := outgo_reader (e := e) (d := { e with
    reader := .sending f.resetReply site, log := e.log ++ [.handled f] }) rfl
    (by simp [sent]) (by rw [hrd]; rfl)
  refine ⟨ha.stream, ha.listed, ⟨ha.fresh.1, ha.fresh.2, ha.fresh.3, ha.fresh.4⟩,
    .inr ⟨_, _, rfl, hsite⟩, ?_, by simp, fun _ _ => ?_, ?_⟩
  · intro g hg
    rw [hout] at hg
    rcases mem_append.mp hg with hold | hnew
    · exact ha.resets g hold
    · obtain rfl := mem_singleton.mp hnew
      simp [writeFrameCheck, resetReply, FrameType.valid, validateFramePayloadLength, hid]
  · rw [handled, hin]
    exact hopen
  · intro w hw
    rcases mem_append.mp hw with hold | hnew
    · exact ha.log w hold
    · exact .inr ⟨f, mem_singleton.mp hnew⟩

/-- What an absent end can do: answer, drop a frame, or make its stream. -/
lemma Pair.absent_step (hp : Pair dp owner l lp e p) (ha : e.Absent owner l)
    (hstep : Step owner l e a e') (hguard : e'.handled <+: p.sent) :
    e'.OK owner l lp.initialWindow ∧ e.log <+: e'.log ∧ (owner = true → e'.sent = []) ∧
      ∀ s t, e'.stream = some s → p.stream = some t → s.service = t.service := by
  obtain ⟨hcalls, hwaiting, hheld, hqueued⟩ := ha.fresh
  have hnone := ha.stream
  have hsilent : owner = true → e.sent = [] ∧ p.sent = [] := by
    rintro rfl
    have hsent : e.sent = [] := by rw [sent, (ha.unopened rfl).1]; rfl
    exact ⟨hsent, hp.silent hsent⟩
  -- an owner without a stream has nothing to handle
  have hacceptor : ∀ f, e'.handled = e.handled ++ [f] → owner = false := by
    intro f hf
    by_contra hown
    rw [Bool.not_eq_false] at hown
    rw [(hsilent hown).2, prefix_nil, hf, append_eq_nil_iff] at hguard
    cases hguard.2
  cases hstep with
  | openStream hown _ hid hsv hlen =>
    subst hown
    refine ⟨.inr ⟨_, ha.opened hid hsv hlen⟩, prefix_refl _, fun _ => (hsilent rfl).1, ?_⟩
    intro s t _ ht
    obtain ⟨g, hg, -⟩ := (hp.theirs.sane ht).order.opened rfl
    have hpre := hp.outof
    rw [(hsilent rfl).1, prefix_nil] at hpre
    rw [hpre] at hg
    cases hg
  | openNew hown hrd hlst hnone' ht hid =>
    rename_i h f
    subst hown
    have hf : e.handled ++ [f] <+: p.sent := by
      simpa [handled] using hguard
    refine ⟨.inr ⟨_, ha.offered (hp.open_first hf ht) ht hid⟩, prefix_append _ _, by simp, ?_⟩
    intro s t hs htp
    obtain rfl := some.inj hs
    have hout : f ∈ p.outgo := (outgo_sent p).subset (hf.subset (by simp))
    exact (hp.theirs.sane htp).credit.service f hout (by simp [ht])
  | openRefused hown hrd ht =>
    rename_i f
    subst hown
    have hf : e.handled ++ [f] <+: p.sent := by
      simpa [handled] using hguard
    exact ⟨.inl (ha.reply rfl hrd (hp.streamID hf) ⟨f, by simp, ht⟩), prefix_append _ _, by simp,
      fun s t hs => by rw [hnone] at hs; cases hs⟩
  | unknownData hrd hlst ht =>
    rename_i f
    obtain rfl := hacceptor f (by simp [handled])
    have hf : e.handled ++ [f] <+: p.sent := by
      simpa [handled] using hguard
    obtain ⟨g, hg, hgo⟩ := hp.heard_open hf (by simp [ht])
    exact ⟨.inl (ha.reply rfl hrd (hp.streamID hf) ⟨g, mem_append_left _ hg, hgo⟩),
      prefix_append _ _, by simp, fun s t hs => by rw [hnone] at hs; cases hs⟩
  | unknownDrop hrd hlst hlk hnd hna =>
    rename_i f
    obtain rfl := hacceptor f (by simp [handled])
    refine ⟨.inl ⟨hnone, ha.listed, ⟨hcalls, hwaiting, hheld, hqueued⟩, ha.reader, ?_, by simp, ?_,
      ?_⟩, prefix_append _ _, by simp, fun s t hs => by rw [hnone] at hs; cases hs⟩
    · have := ha.resets
      simpa [outgo, sent] using this
    · intro _ hne
      obtain ⟨g, hg, hgo⟩ := ha.refused rfl
        (by simpa [outgo, sent] using hne)
      exact ⟨g, (handled_isPrefix (prefix_append _ _)).subset hg, hgo⟩
    · intro w hw
      rcases mem_append.mp hw with hold | hnew
      · exact ha.log w hold
      · exact .inr ⟨f, mem_singleton.mp hnew⟩
  | readerEnqueue hrd =>
    rename_i f site
    have hown : owner = false := by
      by_contra hown
      rw [(ha.unopened (by simpa using hown)).2] at hrd
      cases hrd
    subst hown
    have hnext : site.next = .ready := by
      rcases ha.reader with h0 | ⟨g, site', h0, hnext⟩
      · rw [hrd] at h0
        cases h0
      · obtain ⟨-, rfl⟩ := sending.inj (hrd.symm.trans h0)
        exact hnext
    have hout := outgo_readerEnqueue (e := e) (d := { e with
      reader := site.next, log := e.log ++ [.sent f] }) hrd (by rw [hnext]; rfl) rfl
      (sentFrames_append _ _)
    refine ⟨.inl ⟨hnone, ha.listed, ⟨hcalls, hwaiting, hheld, hqueued⟩, .inl hnext, ?_, by simp, ?_,
      ?_⟩, prefix_append _ _, by simp, fun s t hs => by rw [hnone] at hs; cases hs⟩
    · exact fun g hg => ha.resets g (hout.mem_iff.mp hg)
    · intro _ hne
      obtain ⟨g, hg, hgo⟩ := ha.refused rfl fun h0 => hne (by rw [h0] at hout; exact hout.eq_nil)
      exact ⟨g, (handled_isPrefix (prefix_append _ _)).subset hg, hgo⟩
    · intro w hw
      rcases mem_append.mp hw with hold | hnew
      · exact ha.log w hold
      · exact .inl ⟨f, mem_singleton.mp hnew⟩
  | accept hq => rw [hqueued] at hq; cases hq
  | write hh | app hh => rw [hheld] at hh; cases hh
  | call hc | enqueue hc | openReturn hc | remove hc => rw [hcalls] at hc; simp at hc
  | written hw => rw [hwaiting] at hw; cases hw
  | reader hs | backlogDrop _ hs => rw [hnone] at hs; cases hs
  | lookup _ hlst => rw [ha.listed] at hlst; cases hlst
  | readerRemove hrd | publish hrd =>
    rcases ha.reader with h0 | ⟨g, site', h0, -⟩ <;> rw [hrd] at h0 <;> cases h0

/-- **The step lemma.** Both ends keep their invariants whatever either of them does. -/
lemma Pair.step (hp : Pair dp owner l lp e p) (hstep : Step owner l e a e')
    (hguard : e'.handled <+: p.sent) : Pair dp owner l lp e' p := by
  rcases hp.mine with ha | ⟨s, hsane⟩
  · obtain ⟨hok, hlog, hsent, hservice⟩ := hp.absent_step ha hstep hguard
    refine ⟨hok, hp.theirs, hguard, hp.outof.trans (sent_isPrefix hlog), hservice, ?_, hp.matched,
      hp.matched'⟩
    intro f B hf
    cases owner with
    | true => rw [if_pos rfl, hsent rfl] at hf; cases hf
    | false => exact hp.first f B hf
  · obtain ⟨s', hsane', hchange⟩ := hp.sane_step hsane hstep hguard
    refine ⟨.inr ⟨s', hsane'⟩, hp.theirs, hguard,
      hp.outof.trans (sent_isPrefix hchange.log), ?_, ?_, hp.matched, hp.matched'⟩
    · intro s₀ t hs₀ ht
      obtain rfl := some.inj (hs₀.symm.trans hsane'.stream)
      rw [hchange.section_.2.service]
      exact hp.service s t hsane.stream ht
    · intro f B hf
      cases owner with
      | false => exact hp.first f B hf
      | true =>
        rw [if_pos rfl] at hf
        by_cases hnil : e.sent = []
        · -- the first frame: nothing was heard yet
          have hheard : ¬ e.Heard := by
            have hinto := hp.into
            rw [hp.silent hnil, prefix_nil] at hinto
            exact fun h => h hinto
          rcases hsane.live.opening hsane.stream hstep hheard with h0 | ⟨g, hg, ht⟩
          · rw [h0, hnil] at hf
            cases hf
          · rw [hg, hnil, nil_append] at hf
            obtain ⟨rfl, -⟩ := List.cons.inj hf
            exact ht
        · obtain ⟨u, hu⟩ := sent_isPrefix hchange.log
          obtain ⟨g, r, hgr⟩ := exists_cons_of_ne_nil hnil
          rw [← hu, hgr, cons_append] at hf
          obtain ⟨rfl, -⟩ := List.cons.inj hf
          exact hp.first _ r (by rw [if_pos rfl]; exact hgr)

/-! ## What the pair guarantees -/

section

variable (hp : Pair dp owner l lp e p)
include hp

/-- An OPEN arrives at an end that does not own the identifier and has no stream for it. -/
lemma Pair.open_ok (hf : e.handled ++ [f] <+: p.sent)
    (ht : f.type = .frameOpen) : owner = false ∧ e.listed = false ∧ e.stream = none := by
  have hown : owner = false := by
    by_contra hno
    rw [Bool.not_eq_false] at hno
    subst hno
    have hle := hp.theirs.opens
    have hpos : 0 < p.sent.countP Frame.isOpen :=
      countP_pos_iff.mpr ⟨f, hf.subset (by simp), by simpa [Frame.isOpen] using ht⟩
    simp only [Bool.not_true, Bool.false_eq_true, if_false] at hle
    omega
  subst hown
  rcases hp.mine with ha | ⟨s, hsane⟩
  · exact ⟨rfl, ha.listed, ha.stream⟩
  · obtain ⟨g, hg, -⟩ := hsane.order.opened rfl
    rw [hp.open_first hf ht] at hg
    cases hg

/-- An ACCEPT finds the stream it answers, with its service. -/
lemma Pair.accept_ok (hf : e.handled ++ [f] <+: p.sent)
    (ht : f.type = .frameAccept) : e.listed = true := by
  obtain ⟨u, hu⟩ := hf
  have hmem : f ∈ p.sent := by simp [← hu]
  obtain ⟨t, hsane⟩ := hp.theirs.sane_of_sent hmem (by rw [ht]; nofun)
  have hown : owner = true := by
    by_contra hno
    exact hsane.order.ownerAccepts (by simpa using hno) f ((outgo_sent p).subset hmem) ht
  subst hown
  have hin : e.handled = [] := hsane.order.accepts e.handled f u (by simp [← hu]) ht
  rcases hp.mine with ha | ⟨s, hsane'⟩
  · have hsent : e.sent = [] := by rw [sent, (ha.unopened rfl).1]; rfl
    rw [hp.silent hsent] at hmem
    cases hmem
  · by_contra hno
    exact (hsane'.live.unlisted (by simpa using hno)).2 hin

lemma Pair.read_isPrefix : readBytes e.log <+: wroteBytes p.log := by
  rcases hp.mine with ha | ⟨s, hsane⟩
  · have hnil : readBytes e.log = [] := by
      refine flatMap_eq_nil_iff.mpr fun w hw => ?_
      rcases ha.log w hw with ⟨g, rfl⟩ | ⟨g, rfl⟩ <;> rfl
    rw [hnil]
    exact nil_prefix
  · have h₁ : readBytes e.log <+: dataBytes p.outgo :=
      (prefix_append _ _).trans (hsane.reads.read_isPrefix.trans
        (dataBytes_isPrefix (hp.into.trans (outgo_sent p))))
    rcases hp.theirs with ha | ⟨t, hsane'⟩
    · have hnil : dataBytes p.outgo = [] :=
        dataBytes_eq_nil fun g hg => by rw [(ha.resets g hg).1]; nofun
      rw [hnil, prefix_nil] at h₁
      rw [h₁]
      exact nil_prefix
    · exact h₁.trans hsane'.writes.sent_isPrefix

/-- `io.EOF` is returned after the peer's `Close`, and after every byte of every `Write` the
peer has seen succeed. -/
lemma Pair.eof {w : Event} (hw : w ∈ e.log) (heof : w.isEOF = true) :
    p.Closed ∧ ∀ A v B, p.log = A ++ v :: B → v.isWriteOK = true →
      wroteBytes A <+: readBytes e.log := by
  rcases hp.mine with ha | ⟨s, hsane⟩
  · rcases ha.log w hw with ⟨g, rfl⟩ | ⟨g, rfl⟩ <;> cases heof
  · obtain ⟨⟨g, hg, hgc⟩, heq⟩ := hsane.reads.eof w hw heof
    have hgs : g ∈ p.sent := hp.into.subset hg
    obtain ⟨t, hsane'⟩ := hp.theirs.sane_of_sent hgs (by rw [hgc]; nofun)
    refine ⟨hsane'.writes.closed g hgs hgc, fun A v B hsplit hok => ?_⟩
    -- no DATA follows the CLOSE, and none is still on its way
    have hsent : dataBytes p.sent = dataBytes e.handled := by
      obtain ⟨u, hu⟩ := hp.into
      have hord := hsane'.order.ordered
      rw [← hu, pairwise_append] at hord
      have hnil : dataBytes u = [] := dataBytes_eq_nil fun f hf => hord.2.2 g hg f hf hgc
      rw [← hu, dataBytes_append, hnil, append_nil]
    have hout : dataBytes p.outgo = dataBytes p.sent := by
      have hcount := (hsane'.order.closed ⟨g, hgs, hgc⟩).2
      obtain ⟨u, hu⟩ := outgo_sent p
      rw [← hu, countP_append] at hcount
      have hnil : dataBytes u = [] := by
        refine dataBytes_eq_nil fun f hf ht => ?_
        have hpos : 0 < u.countP isData :=
          countP_pos_iff.mpr ⟨f, hf, by simpa [isData] using ht⟩
        omega
      rw [← hu, dataBytes_append, hnil, append_nil]
    rw [heq, ← hsent, ← hout]
    exact hsane'.writes.returned A v B hsplit hok

end

/-! ## When nobody resets -/

structure CalmPair (e p : End) : Prop where
  mine : ∀ s, e.stream = some s → Calm e s
  theirs : ∀ t, p.stream = some t → Calm p t

/-- Whatever an honest and calm peer sends is welcome. -/
lemma Pair.welcome (hp : Pair dp owner l lp e p) (hcalm : CalmPair e p)
    (hs : e.stream = some s) (hf : e.handled ++ [f] <+: p.sent) : Welcome e s f := by
  have hsane := hp.mine.sane hs
  have hh := hp.honest hs hf
  have hmem : f ∈ p.sent := hf.subset (by simp)
  constructor
  case service => exact fun ht => (hh.service ht).symm
  case notOpen =>
    intro ht
    rw [(hp.open_ok hf ht).2.2] at hs
    cases hs
  case window =>
    intro ht hatt
    exact hsane.credit.addSendCredit_ok hsane.live lp.window_le ht hh hatt
  case data =>
    intro ht
    have hadv := hsane.credit.advertised ht hh
    have hnever : ¬ e.Never s := fun hn => by rw [hn.2] at hadv; cases hadv
    have hopen : s.remoteClosed = false := by
      by_contra hno
      rcases (hcalm.mine s hs).closed (by simpa using hno) with hc | ⟨g, hg, hgr⟩ | hn
      · exact hp.dataOrder hf ht hc
      · obtain ⟨t, hsane'⟩ := hp.theirs.sane_of_sent hmem (by rw [ht]; nofun)
        have hcp := hcalm.theirs t hsane'.stream
        have hnp := hcp.resets g ((outgo_sent p).subset (hp.into.subset hg)) hgr
        have hdp := hcp.datas f ((outgo_sent p).subset hmem) ht
        rw [hnp.2] at hdp
        cases hdp
      · exact hnever hn
    refine ⟨hsane.live.isOpen hadv, hopen, ?_,
      hsane.credit.deliver_ok hsane.live hp.matched.payload ht hh hopen⟩
    by_contra hno
    rcases (hsane.live.unlisted (by simpa using hno)).1 with hc | hn
    · rw [hopen] at hc
      cases hc
    · exact hnever hn

lemma calm_new (hnone : e.stream = none) (hp : Pair dp owner l lp e p)
    (hstep : Step owner l e a e') (hguard : e'.handled <+: p.sent) (hs : e'.stream = some s) :
    Calm e' s := by
  have ha : e.Absent owner l := by
    rcases hp.mine with ha | ⟨s₀, hsane⟩
    · exact ha
    · rw [hsane.stream] at hnone
      cases hnone
  obtain ⟨hcalls, hwaiting, -, -⟩ := ha.fresh
  cases hstep with
  | openStream hown =>
    obtain rfl := some.inj hs
    obtain ⟨hlog, hrd⟩ := ha.unopened hown
    constructor <;> simp [outgo, sent, hlog, hcalls, hwaiting, hrd, sentFrames,
      pending?, pending, openFrame, newStream, CallCalm, ReaderCalm]
  | openNew hown hrd hlst hno ht hid =>
    rename_i h f
    subst hown
    obtain rfl := some.inj hs
    have hf : e.handled ++ [f] <+: p.sent := by
      simpa [handled] using hguard
    have hin := hp.open_first hf ht
    have hout : e.outgo = [] := by
      by_contra hne
      obtain ⟨g, hg, -⟩ := ha.refused rfl hne
      rw [hin] at hg
      cases hg
    have hout' := outgo_reader (e := e) (d := { e with
      stream := some (newStream l f.streamID f.service f.payload true)
      listed := true
      reader := .opened h
      log := e.log ++ [.handled f] }) rfl (by simp [sent])
      (by rw [hrd]; rfl)
    constructor
    case resets => simp [hout', hout, pending]
    case datas => simp [hout', hout, pending]
    case faultless =>
      intro w hw
      rcases mem_append.mp hw with hold | hnew
      · rcases ha.log w hold with ⟨g, rfl⟩ | ⟨g, rfl⟩ <;> rfl
      · rw [mem_singleton.mp hnew]
        rfl
    all_goals simp [newStream, hcalls, hwaiting, ReaderCalm]
  | app _ hs₀ | call _ hs₀ | reader hs₀ => rw [hnone] at hs₀; cases hs₀
  | _ => rw [hnone] at hs; cases hs

/-- **The step lemma.** -/
lemma Pair.calm_step (hp : Pair dp owner l lp e p) (hcalm : CalmPair e p)
    (hstep : Step owner l e a e') (hguard : e'.handled <+: p.sent) (hreset : ∀ h, a ≠ .reset h) :
    CalmPair e' p := by
  refine ⟨fun s' hs' => ?_, hcalm.theirs⟩
  cases hs : e.stream with
  | none => exact calm_new hs hp hstep hguard hs'
  | some s =>
    obtain ⟨t, hsane', hchange⟩ := hp.sane_step (hp.mine.sane hs) hstep hguard
    obtain rfl := some.inj (hs'.symm.trans hsane'.stream)
    exact (hcalm.mine s hs).step (hp.mine.sane hs).live hsane'.live hs hs' hstep hchange.toGrows
      hreset fun f hf => hp.welcome hcalm hs (hf ▸ hguard)

/-- **Conservation of credit.** Credit in hand, bytes on their way, bytes unread or not yet
returned, and credit on its way add up to the receiver's window. -/
lemma Pair.conserved (hp : Pair dp owner l lp e p) (hcalm : CalmPair e p)
    (hs : e.stream = some s) (ht : p.stream = some t) (halive : s.alive)
    (hopen : t.remoteClosed = false) (hadv : t.windowAdvertised = true) :
    s.sendCredit + (dataBytes e.outgo).length + t.readBuf.length + t.pendingWindow +
      creditSum p.outgo = lp.initialWindow + (dataBytes p.handled).length +
      creditSum e.handled := by
  have hsane := hp.mine.sane hs
  have hsane' := hp.theirs.sane ht
  have hatt : e.attached := by
    by_cases hlst : e.listed = true
    · exact .inl hlst
    · rcases (hcalm.mine s hs).unlisted (by simpa using hlst) with hno | ⟨g, hg, hgr⟩
      · exact absurd halive hno
      · have hn := (hcalm.theirs t ht).resets g ((outgo_sent p).subset (hp.into.subset hg)) hgr
        rw [hn.2] at hadv
        cases hadv
  have h₁ := hsane.credit.send_eq halive hatt
  have h₂ := hsane'.credit.recv_eq hadv hopen
  have h₃ := hsane'.live.flow.recv_eq hadv hopen
  rw [hsane'.live.limits] at h₃
  omega

end End

end WeaverSSH.SessionMux
