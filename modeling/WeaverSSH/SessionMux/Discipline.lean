import WeaverSSH.SessionMux.Codec
import WeaverSSH.SessionMux.Guarantees
import WeaverSSH.SessionMux.Identifiers

/-!
# The frames of a stream

For every orderly run of two muxes: in which order the types of a stream's frames may stand, that
the connection neither loses nor repeats nor reorders them, as frames and as bytes, and that the
goroutines that send them exclude each other. And for every run at all of one mux: which streams a
peer may open (`peer_streams_allowed`).
-/

namespace WeaverSSH.SessionMux

open Transition List Net

/-- Where `closingRun` ends. -/
lemma closing_reached : ∃ n₀ n, new smallLeft smallRight 4 = .ok n₀ ∧
    Reachable step (fun n a => n.orderly a = true) n₀ n ∧
    (∃ A f B, sentFrames ((n.mux .left).history 1) = A ++ f :: B ∧ f.type = .frameData) ∧
    ∃ s, ((n.mux .left).view 1).stream = some s ∧ s.windowAdvertised = true := by
  have hends : ends step orderly (new smallLeft smallRight 4) closingRun
      (fun n => (sentFrames ((n.mux .left).history 1)).any (·.type = .frameData) &&
        ((n.mux .left).view 1).stream.any (·.windowAdvertised)) = true := by decide +kernel
  obtain ⟨n₀, n, hnew, hrun, hend⟩ := exists_of_ends hends
  simp only [Bool.and_eq_true, any_eq_true, Option.any_eq_true, decide_eq_true_eq] at hend
  obtain ⟨⟨f, hf, ht⟩, hs⟩ := hend
  obtain ⟨A, B, hsent⟩ := append_of_mem hf
  exact ⟨n₀, n, hnew, hrun, ⟨A, f, B, hsent, ht⟩, hs⟩

lemma limits_step {n n' : Net} {a : Act} (hs : n.step a = some n') (y : Side) :
    (n'.mux y).limits = (n.mux y).limits := by
  have hset (k : Net) {x : Side} {m : Mux} (hm : m.limits = (k.mux x).limits) (y : Side) :
      ((k.setMux x m).mux y).limits = (k.mux y).limits := by
    by_cases hy : y = x
    · subst hy
      simpa [setMux] using hm
    · simp [setMux, Function.update_of_ne hy]
  cases a with
  | mux x a | readFailed x | writeFailed x =>
    simp only [step] at hs
    split at hs
    · obtain ⟨m, hm, rfl⟩ := by simpa [Option.bind_eq_some_iff] using hs
      exact hset n (Mux.Move.of_step hm).limits y
    · cases hs
  | transmit x =>
    simp only [step, Option.bind_eq_bind, Option.bind_eq_some_iff] at hs
    obtain ⟨f, -, m, hm, hs⟩ := hs
    split at hs
    · obtain rfl := Option.some.inj hs
      exact hset n (Mux.Move.of_step hm).limits y
    · cases hs
  | receive x =>
    simp only [step] at hs
    split at hs
    · cases hs
    · obtain ⟨m, hm, rfl⟩ := by simpa [Option.bind_eq_some_iff] using hs
      exact hset n (Mux.Move.of_step hm).limits y
  | handoff x =>
    simp only [step, Option.bind_eq_bind, Option.bind_eq_some_iff] at hs
    obtain ⟨f, -, m, hm, p, hp, hs⟩ := hs
    split at hs
    · obtain rfl := Option.some.inj hs
      have hm := hset n (Mux.Move.of_step hm).limits
      exact (hset _ ((Mux.Move.of_step hp).limits.trans (hm x.other).symm) y).trans (hm y)
    · cases hs

section Session

variable {left right : Config} {capacity : ℕ} {n₀ n : Net}
  (hnew : new left right capacity = .ok n₀) (hpeers : left.Peers right)
  (hrun : Reachable step (fun n a => n.orderly a = true) n₀ n) (x : Side)
include hnew hpeers hrun

/-- **The order of a stream's frames.** The side that opens a stream starts with its one OPEN, and
the other side sends none. An ACCEPT is the first frame of the side that did not open, and no DATA
follows a CLOSE. `WriteFrame` refuses none of them. -/
theorem frames_in_order (i : StreamID) {A B : List Frame} {f : Frame}
    (hsent : sentFrames ((n.mux x).history i) = A ++ f :: B) :
    writeFrameCheck (n.mux x).limits.codecMax f = none ∧
    (f.type = .frameOpen ↔ (n.mux x).owns i = true ∧ A = []) ∧
    (f.type = .frameAccept → (n.mux x).owns i = false ∧ A = []) ∧
    (f.type = .frameData → ∀ g ∈ A, g.type ≠ .frameClose) := by
  have hp := (Net.Joined.reachable hnew hpeers hrun).pair x i
  have hsent : ((n.mux x).view i).sent = A ++ f :: B := hsent
  have hmem : f ∈ ((n.mux x).view i).sent := by simp [hsent]
  have hout := (End.outgo_sent _).subset hmem
  have hopens := hp.mine.opens
  have hfirst := hp.first
  refine ⟨(hp.mine.check hout).1, ⟨fun ht => ?_, ?_⟩, fun ht => ?_, fun ht g hg hclose => ?_⟩
  · rw [hsent, countP_append, countP_cons_of_pos (by simp [Frame.isOpen, ht])] at hopens
    cases howns : (n.mux x).owns i with
    | false => simp [howns] at hopens
    | true =>
      rw [howns] at hfirst hopens
      refine ⟨rfl, ?_⟩
      cases A with
      | nil => rfl
      | cons g A =>
        have hg : g.type = .frameOpen := hfirst g (A ++ f :: B) hsent
        have hg : Frame.isOpen g = true := by rw [Frame.isOpen, hg]; rfl
        rw [countP_cons_of_pos hg, if_pos rfl] at hopens
        omega
  · rintro ⟨howns, rfl⟩
    rw [howns] at hfirst
    exact hfirst f B hsent
  · obtain ⟨s, hs⟩ := hp.mine.sane_of_sent hmem (by simp [ht])
    refine ⟨?_, hs.order.accepts A f B hsent ht⟩
    by_contra howns
    exact hs.order.ownerAccepts (by simpa using howns) f hout ht
  · obtain ⟨s, hs⟩ := hp.mine.sane_of_sent hmem (by simp [ht])
    have hordered := hs.order.ordered
    rw [hsent, pairwise_append] at hordered
    exact hordered.2.2 g hg f mem_cons_self hclose ht

omit hnew hpeers hrun in
theorem frames_in_order_closing : ∃ n₀ n A f B, new smallLeft smallRight 4 = .ok n₀ ∧
    Reachable step (fun n a => n.orderly a = true) n₀ n ∧
    sentFrames ((n.mux .left).history 1) = A ++ f :: B ∧ f.type = .frameData ∧
    ∀ g ∈ A, g.type ≠ .frameClose := by
  obtain ⟨n₀, n, hnew, hrun, ⟨A, f, B, hsent, ht⟩, -⟩ := closing_reached
  have horder := frames_in_order hnew small_peers hrun .left 1 hsent
  exact ⟨n₀, n, A, f, B, hnew, hrun, hsent, ht, horder.2.2.2 ht⟩

/-- **No frame is lost, repeated or overtaken.** What one side has put into its queue is what the
other side has handled, followed by what its reader loop holds, the wire and the queue. -/
theorem frames_delivered : sentFrames (n.mux x).log = handledFrames (n.mux x.other).log ++
      ((n.mux x.other).reader.inbox ++ (n.wire x ++ (n.mux x).queue)) :=
  (Net.Joined.reachable hnew hpeers hrun).fifo x

omit hnew hpeers hrun in
theorem frames_delivered_closing : ∃ n₀ n, new smallLeft smallRight 4 = .ok n₀ ∧
    Reachable step (fun n a => n.orderly a = true) n₀ n ∧
    handledFrames (n.mux .right).log <+: sentFrames (n.mux .left).log := by
  obtain ⟨n₀, n, hnew, hrun, -⟩ := closing_reached
  exact ⟨n₀, n, hnew, hrun, _, (frames_delivered hnew small_peers hrun .left).symm⟩

lemma codecMax_eq : (n.mux x).limits.codecMax = left.codecMax := by
  refine hrun.invariant (P := fun n => ∀ x, (n.mux x).limits.codecMax = left.codecMax) ?_
    (fun _ _ _ h _ hs y => by rw [limits_step hs y, h y]) x
  obtain ⟨l, r, hl, hr, rfl⟩ := new_eq hnew
  obtain ⟨_, _, hll, -, rfl⟩ := Mux.new_eq hl
  obtain ⟨_, _, hlr, -, rfl⟩ := Mux.new_eq hr
  have hcodec : right.codecMax = left.codecMax := by
    rw [Config.codecMax, Config.codecMax, hpeers.payload]
  intro y
  cases y with
  | left => exact (Config.limits_eq hll).2.2
  | right => exact (Config.limits_eq hlr).2.2.trans hcodec

/-- **Frames survive as bytes.** What one side has put into its queue, written as bytes one frame
after the other, is read by the other side as the same frames, whatever comes after. -/
theorem bytes_read_back : ∃ bytes,
    Codec.writeFrames left.maxPayload (sentFrames (n.mux x).log) = .ok bytes ∧
    ∀ rest, Codec.readFrames right.maxPayload (sentFrames (n.mux x).log).length (bytes ++ rest) =
      .ok (sentFrames (n.mux x).log, rest) := by
  rw [← hpeers.payload]
  refine Codec.exists_writeFrames fun f hf => ?_
  have hsent : f ∈ ((n.mux x).view f.streamID).sent := by
    rw [Mux.view_sent]
    exact mem_filter.mpr ⟨hf, by simp⟩
  have hp := (Joined.reachable hnew hpeers hrun).pair x f.streamID
  have hcheck := (hp.mine.check ((End.outgo_sent _).subset hsent)).1
  rwa [codecMax_eq hnew hpeers hrun] at hcheck

omit hnew hpeers hrun in
theorem bytes_read_back_closing : ∃ n₀ n bytes, new smallLeft smallRight 4 = .ok n₀ ∧
    Reachable step (fun n a => n.orderly a = true) n₀ n ∧
    Codec.writeFrames smallLeft.maxPayload (sentFrames (n.mux .left).log) = .ok bytes ∧
    Codec.readFrames smallRight.maxPayload (sentFrames (n.mux .left).log).length bytes =
      .ok (sentFrames (n.mux .left).log, []) := by
  obtain ⟨n₀, n, hnew, hrun, -⟩ := closing_reached
  obtain ⟨bytes, hwrite, hread⟩ := bytes_read_back hnew small_peers hrun .left
  have hread := hread []
  rw [append_nil] at hread
  exact ⟨n₀, n, bytes, hnew, hrun, hwrite, hread⟩

/-- **`writeMu` excludes.** It is held exactly while one goroutine stands between its `Lock` and
its `Unlock`, and at most one goroutine of a stream ever gets to send its initial window. -/
theorem writes_exclusive (i : StreamID) {s : Stream} (hs : ((n.mux x).view i).stream = some s) :
    ((n.mux x).view i).holds = s.writeMu.toNat ∧
      ((n.mux x).view i).pre + s.windowAdvertised.toNat ≤ 1 := by
  have hlive := (((Net.Joined.reachable hnew hpeers hrun).pair x i).mine.sane hs).live
  exact ⟨hlive.holds, hlive.pre⟩

omit hnew hpeers hrun in
theorem writes_exclusive_closing : ∃ n₀ n, new smallLeft smallRight 4 = .ok n₀ ∧
    Reachable step (fun n a => n.orderly a = true) n₀ n ∧ ((n.mux .left).view 1).pre = 0 := by
  obtain ⟨n₀, n, hnew, hrun, -, s, hs, hadv⟩ := closing_reached
  have hpre := (writes_exclusive hnew small_peers hrun .left 1 hs).2
  rw [hadv] at hpre
  exact ⟨n₀, n, hnew, hrun, Nat.le_zero.mp (Nat.le_of_succ_le_succ hpre)⟩

end Session

namespace Mux

variable {m m' : Mux} {a : Act}

/-- A step adds no stream but of the next identifier or of a service that is allowed. -/
def Admits (m m' : Mux) : Prop :=
  m'.allowed = m.allowed ∧ ∀ t ∈ m'.heap, (∃ s ∈ m.heap, s.Kept t) ∨ t.id = m.nextID ∨
    t.service.valid = true ∧ m.allowed t.service = true

lemma Admits.shutdown (h : Admits m m') (e : MuxErr) : Admits m (m'.shutdown e) := by
  unfold Mux.shutdown
  split <;> exact h

lemma Admits.notify (h : Admits m m') (r : WriteRequest) (e : Option MuxErr) :
    Admits m (m'.notify r e) := by
  unfold Mux.notify
  split
  · exact h
  · rw [spawn_eq]
    exact h

lemma Move.admits (hm : Move m a m') (hsound : Sound m) : Admits m m' := by
  have hold {t : Stream} (ht : t ∈ m.heap) : ∃ s ∈ m.heap, s.Kept t := ⟨t, ht, .refl t⟩
  have hsame {n : Mux} (h : n.allowed = m.allowed ∧ n.heap = m.heap) : Admits m n :=
    ⟨h.1, fun t ht => .inl (hold (h.2 ▸ ht))⟩
  have hset {n : Mux} {h : Handle} {s s' : Stream} (hs : m.heap[h]? = some s) (hkept : s.Kept s')
      (hn : n.allowed = m.allowed ∧ n.heap = m.heap.set h s') : Admits m n := by
    refine ⟨hn.1, fun t ht => .inl ?_⟩
    rcases mem_or_eq_of_mem_set (hn.2 ▸ ht) with ht | rfl
    · exact hold ht
    · exact ⟨s, mem_of_getElem? hs, hkept⟩
  cases hm with
  | openStream =>
    refine ⟨rfl, fun t ht => (mem_append.mp ht).imp hold fun ht => .inl ?_⟩
    rw [mem_singleton.mp ht]
    rfl
  | openNew _ _ hvalid hallowed =>
    refine ⟨rfl, fun t ht => (mem_append.mp ht).imp hold fun ht => .inr ?_⟩
    rw [mem_singleton.mp ht]
    exact ⟨hvalid, hallowed⟩
  | app _ hs hstep | call _ _ hs hstep | reader hs hstep =>
    exact hset hs (hstep.flow (hsound.get hs).1).2 ⟨rfl, rfl⟩
  | stopSignal _ hs => exact hset hs (Stream.kept_signalAccepted _ _) ⟨rfl, rfl⟩
  | stopTerminate _ hs => exact hset hs (Stream.kept_remoteClose _ _) ⟨rfl, rfl⟩
  | readerGiveUp =>
    rename_i site _ _
    cases site with
    | reply =>
      refine Admits.shutdown ?_ _
      exact hsame ⟨rfl, rfl⟩
    | _ => exact hsame ⟨rfl, rfl⟩
  | openFailDrop | handleFailed | acceptFailed | readFailed | closeMux =>
    refine Admits.shutdown ?_ _
    exact hsame ⟨rfl, rfl⟩
  | takeFailed | writeFailed =>
    refine Admits.shutdown (Admits.notify ?_ _ _) _
    exact hsame ⟨rfl, rfl⟩
  | _ => exact hsame ⟨rfl, rfl⟩

/-- **A peer opens only what the configuration allows.** In every state a mux reaches from `New`,
whatever frames it was fed and however its callers ran, a stream that it did not open itself has a
service in `AllowedServices`. -/
theorem peer_streams_allowed {c : Config} {m₀ m : Mux} (hnew : Mux.new c = .ok m₀)
    (hr : Reachable step (fun _ _ => True) m₀ m) {s : Stream} (hs : s ∈ m.heap)
    (hpeer : m.owns s.id = false) :
    s.service.valid = true ∧ c.allowedServices.getD Config.defaultAllowed s.service = true := by
  -- The next identifier stays one of the mux's own, so that no stream it opens passes for a peer's.
  have hinv := hr.invariant (P := fun m => Sound m ∧ m.owns m.nextID = true ∧
    m.allowed = c.allowedServices.getD Config.defaultAllowed ∧ ∀ s ∈ m.heap, m.owns s.id = true ∨
      s.service.valid = true ∧ m.allowed s.service = true) ?_ ?_
  · obtain ⟨-, -, hallowed, hstreams⟩ := hinv
    have hok := (hstreams s hs).resolve_left (by simp [hpeer])
    rwa [hallowed] at hok
  · obtain ⟨role, l, -, -, rfl⟩ := new_eq hnew
    exact ⟨⟨by simp, by simp⟩, new_tidy.nextID, rfl, by simp⟩
  · rintro m a m' ⟨hsound, hnext, hallowed, hstreams⟩ - hstep
    have hmove := Move.of_step hstep
    obtain ⟨hrole, hnext', -⟩ := hmove.adds
    obtain ⟨hallowed', hadmits⟩ := hmove.admits hsound
    have howns (i : StreamID) : m'.owns i = m.owns i := by rw [owns, owns, hrole]
    refine ⟨hsound.move hmove, ?_, hallowed'.trans hallowed, fun t ht => ?_⟩
    · rw [howns, hnext']
      split
      · exact owns_add_two hnext
      · exact hnext
    · rw [howns, hallowed']
      rcases hadmits t ht with ⟨s, hs, hkept⟩ | hid | hok
      · rw [hkept.id, hkept.service]
        exact hstreams s hs
      · exact .inl (hid ▸ hnext)
      · exact .inr hok

theorem peer_streams_allowed_exec : ∃ m₀ m, Mux.new smallResponder = .ok m₀ ∧
    Reachable step (fun _ _ => True) m₀ m ∧ ∃ s ∈ m.heap, m.owns s.id = false ∧
      Config.defaultAllowed s.service = true := by
  have hends : ends step (fun _ _ => true) (Mux.new smallResponder) smallResponderRun
      (fun m => m.heap.any fun s => m.owns s.id = false) = true := by decide +kernel
  obtain ⟨m₀, m, hnew, hrun, hend⟩ := exists_of_ends hends
  simp only [any_eq_true, decide_eq_true_eq] at hend
  obtain ⟨s, hs, hpeer⟩ := hend
  have hreach := hrun.mono fun _ _ _ => trivial
  exact ⟨m₀, m, hnew, hreach, s, hs, hpeer, (peer_streams_allowed hnew hreach hs hpeer).2⟩

end Mux

end WeaverSSH.SessionMux
