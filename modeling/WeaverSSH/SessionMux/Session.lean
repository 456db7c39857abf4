import WeaverSSH.SessionMux.Net
import WeaverSSH.SessionMux.Simulation

/-!
# A session

Two muxes whose callers are orderly, joined by a reliable transport. `Net.Joined` says that each
side is sound, tidy and healthy; that what one has queued is what the other has handled, followed by
what is on the way (`Net.Fifo`); and that for every identifier the two views are a `Pair`. So the
next frame is one the mux accepts (`Joined.accepts`), and its step is a step of one end
(`Mux.Move.follows`), which keeps the pair (`End.Pair.step`).
-/

namespace WeaverSSH.SessionMux

open Transition Function List Side Option Config Mux

/-! ## What the sections do to the queues -/

section

variable {h : Handle} {s s' : Stream} {a : Mux.Act} {c' : Option Call} {r r' : Reader}
  {evs : List Event}

lemma AppStep.quiet (hstep : AppStep h a s s' c' evs) :
    sentFrames evs = [] ∧ handledFrames evs = [] := by
  cases hstep <;> exact ⟨rfl, rfl⟩

lemma ReaderStep.inbox (hstep : ReaderStep h s r s' r' evs) :
    sentFrames evs = [] ∧ handledFrames evs ++ r'.inbox = r.inbox := by
  cases hstep <;> exact ⟨rfl, rfl⟩

lemma ReaderSite.inbox_next (site : ReaderSite) : site.next.inbox = [] := by
  cases site <;> rfl

end

namespace Mux

variable {m m' : Mux} {a : Act} {i : StreamID}

/-- The frames queued and not yet given to the transport. -/
def queue (m : Mux) : List Frame := m.requests.map WriteRequest.frame

/-- What a step without the transport does to the queues: what it sends goes to the end of
`outgoing`, and the frame in hand stays there until it is handled. -/
structure Passes (m m' : Mux) : Prop where
  sent : ∃ new, sentFrames m'.log = sentFrames m.log ++ new ∧ m'.queue = m.queue ++ new
  handled : handledFrames m'.log ++ m'.reader.inbox = handledFrames m.log ++ m.reader.inbox

lemma Passes.quiet {v : List Event} (hlog : m'.log = m.log ++ v) (hsent : sentFrames v = [])
    (hreq : m'.requests = m.requests)
    (hin : handledFrames v ++ m'.reader.inbox = m.reader.inbox) : Passes m m' where
  sent := ⟨[], by simp [hlog, hsent], by simp [queue, hreq]⟩
  handled := by rw [hlog, handledFrames_append, append_assoc, hin]

lemma Passes.same (hlog : m'.log = m.log) (hreq : m'.requests = m.requests)
    (hin : m'.reader.inbox = m.reader.inbox) : Passes m m' :=
  .quiet (v := []) (by simp [hlog]) rfl hreq (by simpa [handledFrames] using hin)

variable {f : Frame}

lemma Passes.push {w : Option Site} (hlog : m'.log = m.log ++ [.sent f])
    (hw : m'.writer = m.writer) (ho : m'.outgoing = m.outgoing ++ [⟨f, w⟩])
    (hin : m'.reader.inbox = m.reader.inbox) : Passes m m' where
  sent := ⟨[f], by simp [hlog], by simp [queue, requests_push hw ho]⟩
  handled := by simp [hlog, hin]

/-- Every step of a healthy mux that does not involve the transport. -/
lemma Move.passes (hm : Move m a m') (hh : Healthy m) (hh' : Healthy m')
    (hlocal : Net.isLocal a = true) : Passes m m' := by
  cases hm with
  | openStream | accept | write | openReturn | remove => exact .same rfl rfl rfl
  | app _ _ hstep =>
    obtain ⟨hsent, hin⟩ := hstep.quiet
    exact .quiet rfl hsent rfl (by rw [hin]; rfl)
  | call _ _ _ hstep =>
    obtain ⟨-, hin, hsent⟩ := hstep.source
    exact .quiet rfl hsent rfl (by rw [hin]; rfl)
  | reader _ hstep => exact .quiet rfl hstep.inbox.1 rfl hstep.inbox.2
  | enqueue => exact .push rfl rfl rfl rfl
  | readerEnqueue hr =>
    refine .push rfl rfl rfl ?_
    rw [hr]
    exact ReaderSite.inbox_next _
  | readerRemove hr | backlogDrop hr | publish hr | lookup hr =>
    refine .same rfl rfl ?_
    rw [hr]
    rfl
  | openRefused hr | openNew hr | unknownData hr | unknownDrop hr | ping hr | pong hr =>
    refine .quiet rfl rfl rfl ?_
    rw [hr]
    rfl
  | take hw hout => exact .same rfl (by simp [requests, hw, hout]) rfl
  | readFrame | readFailed | written | writeFailed => cases hlocal
  | giveUp _ hd | openDone _ hd | readerGiveUp _ hd | publishDone _ hd | writerExit _ hd
  | abandon _ _ hd | abandonWriting _ _ hd => simp [hh.done] at hd
  | stopDone hs | stopConn hs | stopSignal hs | stopTerminate hs => simp [hh.stopping] at hs
  | openFailDrop | handleFailed | acceptFailed | takeFailed | closeMux =>
    exact absurd hh' (not_healthy_shutdown _ _)

lemma Move.written_queue (hm : Move m .written m') :
    ∃ r, m.writer = .writing r ∧ m.queue = r.frame :: m'.queue ∧ m'.log = m.log ∧
      m'.reader = m.reader := by
  cases hm with
  | app _ _ hstep => cases hstep
  | written hw => exact ⟨_, hw, by simp [queue, requests, hw], rfl, rfl⟩

lemma Move.readFrame_inbox (hm : Move m (.readFrame f) m') :
    m.reader.inbox = [] ∧ m'.reader.inbox = [f] ∧ m'.queue = m.queue ∧ m'.log = m.log := by
  cases hm with
  | app _ _ hstep => cases hstep
  | readFrame hr => exact ⟨by rw [hr]; rfl, rfl, rfl, rfl⟩

lemma Move.role (hm : Move m a m') (hh' : Healthy m') (hh : Healthy m) : m'.role = m.role := by
  cases hm with
  | openFailDrop | handleFailed | acceptFailed | readFailed | takeFailed | writeFailed
  | closeMux => exact absurd hh' (not_healthy_shutdown _ _)
  | readerGiveUp _ hd => simp [hh.done] at hd
  | _ => rfl

/-! ## What one stream sees -/

lemma filterMap_filter_eq {α β : Type*} {g : α → Option β} {q : α → Bool} {p : β → Bool}
    (h : ∀ w f, g w = some f → q w = p f) (l : List α) :
    (l.filter q).filterMap g = (l.filterMap g).filter p := by
  induction l with
  | nil => rfl
  | cons w l ih =>
    cases hg : g w with
    | none => by_cases hq : q w = true <;> simp [hg, hq, ih]
    | some f =>
      have hqp := h w f hg
      by_cases hq : q w = true
      · simp [hg, hq, ← hqp, ih]
      · simp [hg, hq, ← hqp, ih]

lemma view_sent (m : Mux) (i : StreamID) :
    (m.view i).sent = (sentFrames m.log).filter fun f => f.streamID = i := by
  refine filterMap_filter_eq (fun w f hw => ?_) m.log
  cases w <;> cases hw
  simp [Event.sid]

lemma view_handled (m : Mux) (i : StreamID) :
    (m.view i).handled = (handledFrames m.log).filter fun f => f.streamID = i := by
  refine filterMap_filter_eq (fun w f hw => ?_) m.log
  cases w <;> cases hw
  simp [Event.sid]

end Mux

/-! ## The invariant -/

namespace Net

variable {dp : ℕ} {n n' : Net} {x : Side} {i : StreamID} {f : Frame}

/-- The callers of both sides are orderly. -/
def orderly (n : Net) : Act → Bool
  | .mux x a => (n.mux x).orderly a
  | _ => true

/-- What `x` has queued is what the other side has handled, has in hand, and what is still on its
way there. -/
def Fifo (n : Net) (x : Side) : Prop :=
  sentFrames (n.mux x).log = handledFrames (n.mux x.other).log ++
    ((n.mux x.other).reader.inbox ++ (n.wire x ++ (n.mux x).queue))

/-- Two muxes in a session. -/
structure Joined (dp : ℕ) (n : Net) : Prop where
  sound : ∀ x, (n.mux x).Sound
  tidy : ∀ x, (n.mux x).Tidy
  healthy : ∀ x, (n.mux x).Healthy
  roles : ∀ x, (n.mux x.other).role ≠ (n.mux x).role
  capacity : ∀ x, (n.wire x).length ≤ n.capacity
  fifo : ∀ x, n.Fifo x
  pair : ∀ x i, End.Pair dp ((n.mux x).owns i) (n.mux x).limits (n.mux x.other).limits
    ((n.mux x).view i) ((n.mux x.other).view i)

lemma Fifo.handled (hf : n.Fifo x) (i : StreamID) :
    ((n.mux x.other).view i).handled <+: ((n.mux x).view i).sent := by
  rw [view_handled, view_sent, hf, filter_append]
  exact prefix_append _ _

lemma Fifo.next (hf : n.Fifo x) (hin : (n.mux x.other).reader.inbox = [f]) :
    ((n.mux x.other).view f.streamID).handled ++ [f] <+: ((n.mux x).view f.streamID).sent := by
  rw [view_handled, view_sent, hf, hin, filter_append, filter_append]
  rw [filter_cons_of_pos (by simp), filter_nil, ← append_assoc]
  exact prefix_append _ _

lemma Joined.next (hj : Joined dp n) (hin : (n.mux x).reader.inbox = [f]) :
    ((n.mux x).view f.streamID).handled ++ [f] <+: ((n.mux x.other).view f.streamID).sent := by
  have hnext := (hj.fifo x.other).next (f := f) (by rwa [other_other])
  rwa [other_other] at hnext

/-- **The peer is honest.** -/
lemma Joined.accepts (hj : Joined dp n) (x : Side) : (n.mux x).Accepts := by
  have hin : ∀ f, (n.mux x).reader = .handling f → (n.mux x).reader.inbox = [f] := by
    intro f hr
    rw [hr]
    rfl
  constructor
  case kind =>
    intro f hr
    have hmem := (hj.next (hin f hr)).subset (by simp : f ∈ _ ++ [f])
    exact ((hj.pair x f.streamID).theirs.check ((End.outgo_sent _).subset hmem)).2
  case opens =>
    intro f hr hf
    have hnext := hj.next (hin f hr)
    have hp := hj.pair x f.streamID
    obtain ⟨hown, hlisted, hnone⟩ := hp.open_ok hnext hf
    exact ⟨peerOwns_iff.mpr ⟨hp.streamID hnext, hown⟩, by simpa [view] using hlisted,
      notMem_ids_of_view hnone⟩
  case accept =>
    intro f hr hf hnone
    have hlisted := (hj.pair x f.streamID).accept_ok (hj.next (hin f hr)) hf
    simp [view, hnone] at hlisted
  case service =>
    intro f h s hr hs hf
    have hpoints := (hj.tidy x).reader
    rw [hr] at hpoints
    have hid : s.id = f.streamID := by
      have hs' := ids_of_heap hs
      exact some.inj (hs'.symm.trans hpoints)
    have hnext := hj.next (x := x) (f := f) (by rw [hr]; rfl)
    have hview := (hj.tidy x).view_stream hs
    rw [hid] at hview
    exact (((hj.pair x f.streamID).honest hview hnext).service (by simp [hf])).symm
  case reader =>
    intro h e hr
    have hpoints := (hj.tidy x).reader
    rw [hr] at hpoints
    have hlt : h < (n.mux x).heap.length := by
      have : h < (n.mux x).ids.length := hpoints
      rwa [ids, length_map] at this
    have hs := List.getElem?_eq_getElem hlt
    have hlive := ((hj.pair x _).mine.sane ((hj.tidy x).view_stream hs)).live.reader
    have hsid : (n.mux x).reader.sid (n.mux x).ids = some ((n.mux x).heap[h]).id := by
      rw [hr]
      exact congrArg some (idAt_eq (ids_of_heap hs))
    rw [show ((n.mux x).view ((n.mux x).heap[h]).id).reader = (n.mux x).reader by
      simp [view, hsid], hr] at hlive
    exact hlive
  case outgoing =>
    intro r hr
    have hmem : r.frame ∈ sentFrames (n.mux x).log := by
      rw [hj.fifo x]
      have : r.frame ∈ (n.mux x).queue := by
        refine mem_map_of_mem ?_
        unfold requests
        split <;> simp [hr]
      simp [this]
    have hsent : r.frame ∈ ((n.mux x).view r.frame.streamID).sent := by
      rw [view_sent]
      simpa using hmem
    exact ((hj.pair x r.frame.streamID).mine.check ((End.outgo_sent _).subset hsent)).1

/-! ## Every step keeps it -/

/-- Every stream is calm at both ends. -/
def Quiet (n : Net) : Prop :=
  ∀ x i, End.CalmPair ((n.mux x).view i) ((n.mux x.other).view i)

variable {m' : Mux}

lemma Fifo.local (hj : ∀ y, n.Fifo y) (hp : (n.mux x).Passes m') (y : Side) :
    (n.setMux x m').Fifo y := by
  obtain ⟨new, hsent, hqueue⟩ := hp.sent
  by_cases hy : y = x
  · subst hy
    have h := hj y
    simp only [Fifo, setMux, update_self, update_of_ne y.other_ne] at h ⊢
    rw [hsent, hqueue, h]
    simp
  · obtain rfl := eq_other_of_ne hy
    have h := hj x.other
    simp only [Fifo, setMux, other_other, update_self, update_of_ne x.other_ne] at h ⊢
    rw [h, ← append_assoc, ← hp.handled, append_assoc]

lemma Fifo.transmit (hj : ∀ y, n.Fifo y) (hm : Mux.Move (n.mux x) .written m')
    (hf : n.writing x = some f) (y : Side) :
    ((n.setMux x m').setWire x (n.wire x ++ [f])).Fifo y := by
  obtain ⟨r, hw, hqueue, hlog, hreader⟩ := hm.written_queue
  obtain rfl : r.frame = f := by simpa [writing, hw] using hf
  by_cases hy : y = x
  · subst hy
    have h := hj y
    simp only [Fifo, setMux, setWire, update_self, update_of_ne y.other_ne]
      at h ⊢
    rw [hlog, h, hqueue]
    simp
  · obtain rfl := eq_other_of_ne hy
    have h := hj x.other
    simp only [Fifo, setMux, setWire, other_other, update_self, update_of_ne x.other_ne] at h ⊢
    rw [hlog, hreader, h]

lemma Fifo.receive {rest : List Frame} (hj : ∀ y, n.Fifo y)
    (hm : Mux.Move (n.mux x) (.readFrame f) m') (hwire : n.wire x.other = f :: rest) (y : Side) :
    ((n.setMux x m').setWire x.other rest).Fifo y := by
  obtain ⟨hin, hin', hqueue, hlog⟩ := hm.readFrame_inbox
  by_cases hy : y = x
  · subst hy
    have h := hj y
    simp only [Fifo, setMux, setWire, update_self, update_of_ne y.other_ne,
      update_of_ne y.ne_other] at h ⊢
    rw [hlog, hqueue, h]
  · obtain rfl := eq_other_of_ne hy
    have h := hj x.other
    simp only [Fifo, setMux, setWire, other_other, update_self, update_of_ne x.other_ne] at h ⊢
    rw [h, hlog, hin, hin', hwire]
    simp

/-- One mux has taken a step, and the queues are in order. -/
lemma Joined.update {k : Net} (hj : Joined dp n) {a : Mux.Act}
    (hm : Mux.Move (n.mux x) a m') (ho : (n.mux x).orderly a = true) (hread : a ≠ .readFailed)
    (hwrite : a ≠ .writeFailed) (hmux : k.mux = Function.update n.mux x m')
    (hcap : ∀ y, (k.wire y).length ≤ k.capacity) (hfifo : m'.Healthy → ∀ y, k.Fifo y) :
    Joined dp k ∧ ((∀ h, a ≠ .reset h) → n.Quiet → k.Quiet) := by
  have hacc := hj.accepts x
  have hh' := hm.healthy (hj.tidy x) (hj.healthy x) ho hacc hread hwrite
  have ht' := hm.tidy (hj.sound x) (hj.tidy x) (hj.healthy x) hh' ho hacc
  have hrole := hm.role hh' (hj.healthy x)
  have hself : k.mux x = m' := by rw [hmux, update_self]
  have hother : k.mux x.other = n.mux x.other := by
    rw [hmux, update_of_ne x.other_ne]
  have heach : ∀ {P : Side → Prop}, P x → P x.other → ∀ y, P y := by
    intro P hx ho y
    by_cases hy : y = x
    · exact hy ▸ hx
    · exact eq_other_of_ne hy ▸ ho
  have hguard : ∀ i, (m'.view i).handled <+: ((n.mux x.other).view i).sent := by
    intro i
    have h := (hfifo hh' x.other).handled i
    rwa [other_other, hself, hother] at h
  have hends : ∀ i, m'.view i = (n.mux x).view i ∨
      End.Step ((n.mux x).owns i) (n.mux x).limits ((n.mux x).view i) a (m'.view i) := by
    intro i
    rcases hm.follows (hj.sound x) (hj.tidy x) (hj.healthy x) hh' ho hacc with hsame | ⟨j,
      hstep, hrest⟩
    · exact .inl (hsame i)
    · by_cases hij : i = j
      · exact .inr (hij ▸ hstep)
      · exact .inl (hrest i hij)
  have hpair : ∀ i, End.Pair dp ((n.mux x).owns i) (n.mux x).limits (n.mux x.other).limits
      (m'.view i) ((n.mux x.other).view i) := by
    intro i
    rcases hends i with hsame | hstep
    · exact hsame ▸ hj.pair x i
    · exact (hj.pair x i).step hstep (hguard i)
  have howns : ∀ i, m'.owns i = (n.mux x).owns i := fun i => by rw [owns, owns, hrole]
  refine ⟨⟨?_, ?_, ?_, ?_, hcap, hfifo hh', ?_⟩, fun hreset hquiet => ?_⟩
  · exact heach (hself ▸ (hj.sound x).move hm) (hother ▸ hj.sound x.other)
  · exact heach (hself ▸ ht') (hother ▸ hj.tidy x.other)
  · exact heach (hself ▸ hh') (hother ▸ hj.healthy x.other)
  · refine heach ?_ ?_
    · rw [hself, hother, hrole]
      exact hj.roles x
    · rw [other_other, hself, hother, hrole]
      exact (hj.roles x).symm
  · refine heach (fun i => ?_) (fun i => ?_)
    · rw [hself, hother, howns, hm.limits]
      exact hpair i
    · have hsymm := (hpair i).symm
      rw [← owns_other (hj.roles x)] at hsymm
      rw [other_other, hself, hother, hm.limits]
      exact hsymm
  · have hcalm : ∀ i, End.CalmPair (m'.view i) ((n.mux x.other).view i) := by
      intro i
      rcases hends i with hsame | hstep
      · exact hsame ▸ hquiet x i
      · exact (hj.pair x i).calm_step (hquiet x i) hstep (hguard i) hreset
    refine heach (fun i => ?_) (fun i => ?_)
    · rw [hself, hother]
      exact hcalm i
    · rw [other_other, hself, hother]
      exact ⟨(hcalm i).theirs, (hcalm i).mine⟩

/-- The application of neither side resets a stream. -/
def resets : Act → Bool
  | .mux _ (.reset _) => true
  | _ => false

/-- A rendezvous is a transmission and a reception over a wire with room for one frame. -/
lemma Joined.handoff (hj : Joined dp n) {m' p' : Mux} (hm : Mux.Move (n.mux x) .written m')
    (hp : Mux.Move (n.mux x.other) (.readFrame f) p') (hf : n.writing x = some f)
    (hzero : n.capacity = 0) : Joined dp ((n.setMux x m').setMux x.other p') ∧
      (resets (.handoff x) = false → n.Quiet → ((n.setMux x m').setMux x.other p').Quiet) := by
  have hnil : ∀ y, n.wire y = [] := by
    intro y
    have := hj.capacity y
    rwa [hzero, Nat.le_zero, length_eq_zero_iff] at this
  let n₁ : Net := { (n.setMux x m').setWire x (n.wire x ++ [f]) with capacity := 1 }
  have hwire₁ : n₁.wire x.other.other = f :: [] := by
    simp [n₁, setWire, setMux, other_other, hnil]
  have hmux₁ : n₁.mux x.other = n.mux x.other := update_of_ne x.other_ne _ _
  obtain ⟨hj₁, hq₁⟩ := hj.update (k := n₁) hm rfl nofun nofun rfl
    (fun y => by by_cases hy : y = x <;> simp [n₁, setWire, setMux, hnil, hy])
    fun _ => Fifo.transmit hj.fifo hm hf
  rw [← hmux₁] at hp
  obtain ⟨hj₂, hq₂⟩ := hj₁.update (k := (n.setMux x m').setMux x.other p') hp rfl nofun nofun rfl
    (fun y => by simp [setMux, hnil]) fun _ y => by
      have h := Fifo.receive hj₁.fifo hp hwire₁ y
      have hwire : (((n₁.setMux x.other p').setWire x.other.other []).wire) = n.wire := by
        funext z
        by_cases hz : z = x <;>
          simp [n₁, setMux, setWire, other_other, hnil, hz]
      unfold Fifo at h ⊢
      rw [hwire] at h
      exact h
  exact ⟨hj₂, fun _ hq => hq₂ nofun (hq₁ nofun hq)⟩

/-- **The step lemma.** -/
lemma Joined.step {a : Act} (hj : Joined dp n) (ho : n.orderly a = true)
    (hs : n.step a = some n') : Joined dp n' ∧ (resets a = false → n.Quiet → n'.Quiet) := by
  have hconn : n.broken = false := by simp [broken, (hj.healthy _).connClosed]
  cases a with
  | mux x a =>
    simp only [Net.step] at hs
    split at hs
    · rename_i hlocal
      obtain ⟨m', hm', rfl⟩ := by simpa [bind_eq_some_iff] using hs
      have hm := Mux.Move.of_step hm'
      obtain ⟨hj', hq⟩ := hj.update (k := n.setMux x m') hm ho (by rintro rfl; cases hlocal)
        (by rintro rfl; cases hlocal) rfl hj.capacity
        fun hh' => Fifo.local hj.fifo (hm.passes (hj.healthy x) hh' hlocal)
      refine ⟨hj', fun hreset => hq fun h hah => ?_⟩
      subst hah
      cases hreset
    · cases hs
  | transmit x =>
    simp only [Net.step, bind_eq_bind, bind_eq_some_iff] at hs
    obtain ⟨f, hf, m', hm', hs⟩ := hs
    split at hs
    · rename_i hroom
      obtain rfl := some.inj hs
      have hm := Mux.Move.of_step hm'
      have hcap : ∀ y, (((n.setMux x m').setWire x (n.wire x ++ [f])).wire y).length ≤
          n.capacity := by
        intro y
        by_cases hy : y = x
        · subst hy
          simpa [setWire, setMux] using hroom
        · simpa [setWire, setMux, update_of_ne hy] using hj.capacity y
      obtain ⟨hj', hq⟩ := hj.update (k := (n.setMux x m').setWire x (n.wire x ++ [f])) hm rfl
        nofun nofun rfl hcap fun _ => Fifo.transmit hj.fifo hm hf
      exact ⟨hj', fun _ => hq nofun⟩
    · cases hs
  | receive x =>
    simp only [Net.step] at hs
    split at hs
    · cases hs
    · rename_i f rest hwire
      obtain ⟨m', hm', rfl⟩ := by simpa [bind_eq_some_iff] using hs
      have hm := Mux.Move.of_step hm'
      have hcap : ∀ y, (((n.setMux x m').setWire x.other rest).wire y).length ≤ n.capacity := by
        intro y
        by_cases hy : y = x.other
        · subst hy
          have hcap := hj.capacity x.other
          rw [hwire, length_cons] at hcap
          simp only [setWire, setMux, update_self]
          omega
        · simpa [setWire, setMux, update_of_ne hy] using hj.capacity y
      obtain ⟨hj', hq⟩ := hj.update (k := (n.setMux x m').setWire x.other rest) hm rfl
        nofun nofun rfl hcap fun _ => Fifo.receive hj.fifo hm hwire
      exact ⟨hj', fun _ => hq nofun⟩
  | handoff x =>
    simp only [Net.step, bind_eq_bind, bind_eq_some_iff] at hs
    obtain ⟨f, hf, m', hm', p', hp', hs⟩ := hs
    split at hs
    · rename_i hzero
      obtain rfl := some.inj hs
      exact hj.handoff (Mux.Move.of_step hm') (Mux.Move.of_step hp') hf hzero
    · cases hs
  | readFailed x | writeFailed x => simp [Net.step, hconn] at hs

end Net

/-! ## The start -/

variable {c : Config} {l : Limits}

lemma Config.limits_eq (hl : c.limits = .ok l) :
    l.initialWindow = c.window ∧ l.maxDataPayload = min c.dataPayload c.window ∧
      l.codecMax = c.codecMax := by
  unfold limits at hl
  split_ifs at hl
  obtain rfl := Except.ok.inj hl
  exact ⟨rfl, rfl, rfl⟩

lemma Mux.new_eq {m : Mux} (hnew : new c = .ok m) :
    ∃ role l, c.limits = .ok l ∧ (c.role = 1 ∧ role = .initiator ∨ c.role = 2 ∧ role = .responder) ∧
      m = { role, limits := l, backlog := c.backlog, nextID := role.firstID
            allowed := c.allowedServices.getD defaultAllowed } := by
  unfold new at hnew
  split at hnew
  · rename_i hrole
    cases hl : c.limits with
    | error => rw [hl] at hnew; cases hnew
    | ok l =>
      rw [hl] at hnew
      exact ⟨.initiator, l, rfl, .inl ⟨hrole, rfl⟩, (Except.ok.inj hnew).symm⟩
  · rename_i hrole
    cases hl : c.limits with
    | error => rw [hl] at hnew; cases hnew
    | ok l =>
      rw [hl] at hnew
      exact ⟨.responder, l, rfl, .inr ⟨hrole, rfl⟩, (Except.ok.inj hnew).symm⟩
  · cases hnew

/-- Two configurations for the two ends of a session. The payload settings are the same, and the
codec has room for the four bytes of a WINDOW. -/
structure Config.Peers (left right : Config) : Prop where
  initiator : left.role = 1
  responder : right.role = 2
  dataPayload : left.maxDataPayload = right.maxDataPayload
  payload : left.maxPayload = right.maxPayload
  codec : 4 ≤ left.codecMax

variable {p : ServiceID → Bool}

variable {role : Role} {b : ℕ}

lemma Mux.new_tidy :
    ({ role, limits := l, backlog := b, nextID := role.firstID, allowed := p } : Mux).Tidy := by
  constructor
  case nextID => cases role <;> simp [owns, Role.firstID]
  all_goals simp [ids, requests, Reader.Points]

lemma Mux.new_healthy :
    ({ role, limits := l, backlog := b, nextID := role.firstID, allowed := p } : Mux).Healthy := by
  constructor <;> simp

lemma Mux.new_view (i : StreamID) :
    ({ role, limits := l, backlog := b, nextID := role.firstID, allowed := p } : Mux).view i =
      {} := by
  simp [view, requests, Reader.sid]

lemma End.absent_nil (owner : Bool) (l : Limits) : ({} : End).Absent owner l := by
  constructor
  case fresh => exact ⟨rfl, rfl, rfl, rfl⟩
  all_goals simp [End.outgo, End.sent, sentFrames, Reader.pending]

namespace Net

variable {left right : Config} {capacity : ℕ} {n₀ n : Net}

/-- `New` on both sides of a transport. -/
def new (left right : Config) (capacity : ℕ) : Except MuxErr Net :=
  match Mux.new left with
  | .error e => .error e
  | .ok l =>
    match Mux.new right with
    | .error e => .error e
    | .ok r => .ok (initial l r capacity)

lemma new_eq (hnew : new left right capacity = .ok n₀) :
    ∃ l r, Mux.new left = .ok l ∧ Mux.new right = .ok r ∧ n₀ = initial l r capacity := by
  unfold new at hnew
  split at hnew
  · cases hnew
  · split at hnew
    · cases hnew
    · exact ⟨_, _, ‹_›, ‹_›, (Except.ok.inj hnew).symm⟩

section

variable (hnew : Net.new left right capacity = .ok n₀)
include hnew

lemma Joined.new (hpeers : left.Peers right) : Joined left.dataPayload n₀ ∧ n₀.Quiet := by
  obtain ⟨l, r, hl, hr, rfl⟩ := new_eq hnew
  obtain ⟨rl, ll, hll, hrl, rfl⟩ := Mux.new_eq hl
  obtain ⟨rr, lr, hlr, hrr, rfl⟩ := Mux.new_eq hr
  obtain rfl : rl = .initiator := by
    rcases hrl with ⟨-, h⟩ | ⟨h, -⟩
    · exact h
    · rw [hpeers.initiator] at h; cases h
  obtain rfl : rr = .responder := by
    rcases hrr with ⟨h, -⟩ | ⟨-, h⟩
    · rw [hpeers.responder] at h; cases h
    · exact h
  have hcodec : right.codecMax = left.codecMax := by
    rw [codecMax, codecMax, hpeers.payload]
  have hdp : right.dataPayload = left.dataPayload := by
    rw [dataPayload, dataPayload, hpeers.dataPayload, hcodec]
  obtain ⟨hw, hp, hc⟩ := limits_eq hll
  obtain ⟨hw', hp', hc'⟩ := limits_eq hlr
  have hmatch : ll.Matched left.dataPayload :=
    ⟨by rw [hp, hw], by rw [hc]; exact hpeers.codec⟩
  have hmatch' : lr.Matched left.dataPayload :=
    ⟨by rw [hp', hw', hdp], by rw [hc', hcodec]; exact hpeers.codec⟩
  have hpair : ∀ i : StreamID,
      End.Pair left.dataPayload (decide (i % 2 = 1)) ll lr ({} : End) {} := by
    intro i
    refine ⟨.inl (End.absent_nil _ _), .inl (End.absent_nil _ _), prefix_rfl,
      prefix_rfl, by simp, by simp [End.sent, sentFrames], hmatch, hmatch'⟩
  have hcalm : End.CalmPair ({} : End) {} := ⟨by simp, by simp⟩
  refine ⟨⟨?_, ?_, ?_, ?_, ?_, ?_, ?_⟩, ?_⟩
  · intro x
    cases x <;> exact ⟨by simp [initial], by simp [initial]⟩
  · intro x
    cases x <;> exact new_tidy
  · intro x
    cases x <;> exact new_healthy
  · intro x
    cases x <;> simp [initial, other]
  · intro x
    exact Nat.zero_le _
  · intro x
    cases x <;> rfl
  · intro x i
    cases x
    · simp only [initial, other, new_view]
      exact hpair i
    · simp only [initial, other, new_view]
      have h := (hpair i).symm
      rcases mod_two i with h0 | h0 <;> simpa [owns, h0] using h
  · intro x i
    cases x <;> simp only [initial, other, new_view] <;> exact hcalm

/-- **Along every orderly run** the two muxes stay joined. -/
lemma Joined.reachable (hpeers : left.Peers right)
    (hrun : Reachable Net.step (fun n a => n.orderly a = true) n₀ n) : Joined left.dataPayload n :=
  hrun.invariant (Joined.new hnew hpeers).1 fun _ _ _ hj ho hs => (hj.step ho hs).1

/-- **Along every orderly run without `Reset`** every stream stays calm. -/
lemma Quiet.reachable (hpeers : left.Peers right)
    (hrun : Reachable Net.step (fun n a => n.orderly a = true ∧ resets a = false) n₀ n) :
    Joined left.dataPayload n ∧ n.Quiet := by
  refine hrun.invariant (P := fun n => Joined left.dataPayload n ∧ n.Quiet)
    (Joined.new hnew hpeers) ?_
  rintro n a n' ⟨hj, hq⟩ ⟨ho, hr⟩ hs
  obtain ⟨hj', hq'⟩ := hj.step ho hs
  exact ⟨hj', hq' hr hq⟩

end

end Net

end WeaverSSH.SessionMux
