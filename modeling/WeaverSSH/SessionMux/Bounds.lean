import WeaverSSH.Framework.Transition
import WeaverSSH.SessionMux.Move

/-!
# Bounded buffering against an arbitrary peer

No assumption is made on the frames the reader loop is given, nor on the order in which the callers,
the two loops and `shutdown` run: `Mux.Sound` says that every stream ever created keeps its credit
bookkeeping (`Stream.Flow`) under the limits of its mux, and that the table points at streams of the
identifiers it maps. Every move keeps it (`Sound.move`).
-/

namespace WeaverSSH.SessionMux

open Transition Function List Mux SessionMux.Stream

/-! ## The sections of one stream -/

variable {s s' : Stream}

variable {f : Frame}

lemma Mux.initialWindowFrame_eq (h : initialWindowFrame s = .ok (f, s')) :
    s.windowAdvertised = false ∧ f = s.windowFrame (putUint32 s.limits.initialWindow) ∧
      s' = { s with windowAdvertised := true, recvCredit := s.limits.initialWindow } := by
  unfold initialWindowFrame at h
  split at h
  · cases h
  · rename_i credit s₁ hinit
    obtain ⟨hadv, rfl, rfl⟩ := initializeReceiveWindow_eq hinit
    have hne : s.limits.initialWindow ≠ 0 := Nat.pos_iff_ne_zero.mp s.limits.window_pos
    simp only [encodeWindowCredit, if_neg hne] at h
    obtain ⟨rfl, rfl⟩ := Prod.mk.inj (Except.ok.inj h)
    exact ⟨hadv, rfl, rfl⟩

lemma Mux.initialWindowFrame_ok (hadv : s.windowAdvertised = false) :
    ∃ f s', initialWindowFrame s = .ok (f, s') := by
  have hne : u32 s.limits.initialWindow ≠ 0 := by
    rw [u32_of_lt s.limits.window_lt]
    exact Nat.pos_iff_ne_zero.mp s.limits.window_pos
  simp [initialWindowFrame, initializeReceiveWindow, hadv, encodeWindowCredit, hne]

lemma Mux.initialWindowFrame_flow (hs : s.Flow)
    (h : initialWindowFrame s = .ok (f, s')) : s'.Flow ∧ s.Kept s' := by
  obtain ⟨hadv, -, rfl⟩ := initialWindowFrame_eq h
  have hinit : s.initializeReceiveWindow = .ok (u32 s.limits.initialWindow, _) :=
    if_neg (by simp [hadv])
  exact ⟨flow_initializeReceiveWindow hs hinit, ⟨rfl, rfl, rfl⟩⟩

lemma Stream.Flow.writeMu (hs : s.Flow) (b : Bool) : ({ s with writeMu := b } : Stream).Flow :=
  hs.of_eq rfl rfl rfl rfl rfl (fun hc => hc) rfl rfl rfl

variable {h : Handle} {c' : Option Call} {evs : List Event}

lemma CallStep.flow {c : Call} {pick : Mux.Pick}
    (hstep : CallStep h s c pick s' c' evs) (hs : s.Flow) : s'.Flow ∧ s.Kept s' := by
  cases hstep with
  | answered | refused =>
    exact ⟨hs.of_eq rfl rfl rfl rfl rfl (fun hc => hc) rfl rfl rfl, ⟨rfl, rfl, rfl⟩⟩
  | mark => exact ⟨flow_markAccepted hs, ⟨rfl, rfl, rfl⟩⟩
  | init hinit => exact initialWindowFrame_flow hs hinit
  | abort => exact ⟨flow_remoteClose hs _, kept_remoteClose _ _⟩
  | writeChunk _ hchunk => exact ⟨flow_takeChunk hs hchunk, kept_takeChunk hs hchunk⟩
  | writeLock | writeUnlock | closeLock | closeUnlock | resetLock | resetUnlock =>
    exact ⟨hs.writeMu _, ⟨rfl, rfl, rfl⟩⟩
  | cancel | initFailed | writeFailed | writeDone | closeKept | closeRemove =>
    exact ⟨hs, .refl s⟩

lemma AppStep.flow {a : Mux.Act} (hstep : AppStep h a s s' c' evs) (hs : s.Flow) :
    s'.Flow ∧ s.Kept s' := by
  cases hstep with
  | readNothing | readEOF | readFailed => exact ⟨hs, .refl s⟩
  | readViolation hread => exact absurd hread (read_ne_violation hs)
  | read hread | readGrant hread => exact ⟨flow_read hs hread, kept_read hs hread⟩
  | close => exact ⟨hs.of_eq rfl rfl rfl rfl rfl (fun hc => hc) rfl rfl rfl, ⟨rfl, rfl, rfl⟩⟩
  | reset => exact ⟨hs.of_eq rfl rfl rfl rfl rfl (fun _ => rfl) rfl rfl rfl, ⟨rfl, rfl, rfl⟩⟩

lemma ReaderStep.flow {r r' : Reader}
    (hstep : ReaderStep h s r s' r' evs) (hs : s.Flow) : s'.Flow ∧ s.Kept s' := by
  cases hstep with
  | accept | windowService | windowPayload | windowRefused | dataRefused | closeService | reset
  | deliverRefused =>
    exact ⟨flow_signalAccepted hs _, kept_signalAccepted _ _⟩
  | window _ _ hdec hadd =>
    have hlt := (decodeWindowCredit_lt hdec).2
    exact ⟨flow_addSendCredit hs hlt hadd, kept_addSendCredit hs hlt hadd⟩
  | deliver hdel => exact ⟨flow_deliver hs hdel, kept_deliver hs hdel⟩
  | close | resetClose | failClose | openFull | openFail =>
    exact ⟨flow_remoteClose hs _, kept_remoteClose _ _⟩
  | init hinit => exact initialWindowFrame_flow hs hinit
  | mark => exact ⟨flow_markAccepted hs, ⟨rfl, rfl, rfl⟩⟩
  | data | closeKept | closeRemove | openAccept | initFailed => exact ⟨hs, .refl s⟩

namespace Mux

/-! ## The streams of a mux -/

/-- Every stream of the mux keeps its bookkeeping, under the limits of the mux, and the table
maps an identifier to a stream of that identifier. -/
structure Sound (m : Mux) : Prop where
  streams : ∀ s ∈ m.heap, s.Flow ∧ s.limits = m.limits
  table : ∀ id h, m.streams id = some h → ∃ s, m.heap[h]? = some s ∧ s.id = id

variable {a : Act}

namespace Sound

variable {m m' : Mux}

section

variable (hm : Sound m)
include hm

lemma get (hs : m.heap[h]? = some s) : s.Flow ∧ s.limits = m.limits :=
  hm.streams s (mem_of_getElem? hs)

lemma of_eq (hh : m'.heap = m.heap) (hl : m'.limits = m.limits)
    (ht : ∀ id h, m'.streams id = some h → m.streams id = some h) : Sound m' where
  streams := by rw [hh, hl]; exact hm.streams
  table := by rw [hh]; exact fun id h hid => hm.table id h (ht id h hid)

lemma of_set (hs : m.heap[h]? = some s)
    (hsec : s'.Flow ∧ s.Kept s') (hh : m'.heap = m.heap.set h s') (hl : m'.limits = m.limits)
    (ht : m'.streams = m.streams) : Sound m' := by
  obtain ⟨hflow, hkept⟩ := hsec
  constructor
  · intro t ht
    rw [hh] at ht
    rw [hl]
    rcases mem_or_eq_of_mem_set ht with hold | rfl
    · exact hm.streams t hold
    · exact ⟨hflow, hkept.limits.trans (hm.get hs).2⟩
  · intro id k hid
    obtain ⟨t, hk, hidt⟩ := hm.table id k (ht ▸ hid)
    rw [hh]
    by_cases hkh : h = k
    · subst hkh
      obtain rfl : s = t := Option.some.inj (hs.symm.trans hk)
      exact ⟨s', by simp [getElem?_set_self', hs], hkept.id.trans hidt⟩
    · exact ⟨t, by rw [getElem?_set_ne hkh]; exact hk, hidt⟩

lemma of_push (hf : s.Flow) (hlim : s.limits = m.limits)
    (hh : m'.heap = m.heap ++ [s]) (hl : m'.limits = m.limits)
    (ht : m'.streams = update m.streams s.id (some m.heap.length)) : Sound m' := by
  constructor
  · intro t ht
    rw [hl]
    rcases mem_append.mp (hh ▸ ht) with ht | ht
    · exact hm.streams t ht
    · obtain rfl := mem_singleton.mp ht
      exact ⟨hf, hlim⟩
  · intro id k hid
    rw [ht] at hid
    rw [hh]
    by_cases hids : id = s.id
    · subst hids
      obtain rfl : m.heap.length = k := by simpa using hid
      exact ⟨s, by simp, rfl⟩
    · rw [update_of_ne hids] at hid
      obtain ⟨t, hk, hidt⟩ := hm.table id k hid
      exact ⟨t, List.getElem?_append_left (List.getElem?_eq_some_iff.mp hk).1 ▸ hk, hidt⟩

lemma shutdown (e : MuxErr) : Sound (m.shutdown e) := by
  unfold Mux.shutdown
  split
  · exact hm
  · exact hm.of_eq rfl rfl nofun

lemma notify (r : WriteRequest) (e : Option MuxErr) : Sound (m.notify r e) := by
  unfold Mux.notify
  split
  · exact hm
  · rw [spawn_eq]
    exact hm.of_eq rfl rfl (fun _ _ h => h)

lemma fail (e : MuxErr) : Sound (m.fail e) := by
  refine Sound.shutdown ?_ e
  exact hm.of_eq rfl rfl (fun _ _ h => h)

end

lemma table_erase (m : Mux) (id : StreamID) :
    ∀ id' h, update m.streams id none id' = some h → m.streams id' = some h := by
  intro id' h hid
  by_cases heq : id' = id
  · subst heq
    simp at hid
  · rwa [update_of_ne heq] at hid

lemma readerSiteNext (hm : Sound m) (site : ReaderSite) (e : Option MuxErr) :
    Sound (m.readerSiteNext site e) := by
  cases site <;> cases e <;> first | exact hm.fail _ | exact hm.of_eq rfl rfl (fun _ _ h => h)

/-- **The step lemma.** Whatever the peer sends and whoever runs next. -/
lemma move (hm : Sound m) (hmove : Move m a m') : Sound m' := by
  cases hmove with
  | openStream | openNew => exact hm.of_push (flow_newStream ..) rfl rfl rfl rfl
  | app _ hs hstep | call _ _ hs hstep | reader hs hstep =>
    exact hm.of_set hs (hstep.flow (hm.get hs).1) rfl rfl rfl
  | stopSignal _ hs =>
    exact hm.of_set hs ⟨flow_signalAccepted (hm.get hs).1 _, kept_signalAccepted _ _⟩
      rfl rfl rfl
  | stopTerminate _ hs =>
    exact hm.of_set hs ⟨flow_remoteClose (hm.get hs).1 _, kept_remoteClose _ _⟩
      rfl rfl rfl
  | remove | readerRemove | backlogDrop => exact hm.of_eq rfl rfl (table_erase m _)
  | openFailDrop =>
    refine Sound.fail ?_ _
    exact hm.of_eq rfl rfl (table_erase m _)
  | handleFailed | acceptFailed =>
    refine Sound.fail ?_ _
    exact hm.of_eq rfl rfl (fun _ _ h => h)
  | readerGiveUp => exact hm.readerSiteNext _ _
  | readFailed =>
    refine Sound.shutdown ?_ _
    exact hm.of_eq rfl rfl (fun _ _ h => h)
  | takeFailed | writeFailed =>
    refine Sound.shutdown (Sound.notify ?_ _ _) _
    exact hm.of_eq rfl rfl (fun _ _ h => h)
  | closeMux => exact hm.shutdown _
  | accept | write | enqueue | giveUp | openDone | openReturn | readerEnqueue | publish
  | publishDone | openRefused | lookup | unknownData | unknownDrop | ping | pong | readFrame
  | take | written | writerExit | abandon | abandonWriting | stopDone | stopConn =>
    exact hm.of_eq rfl rfl (fun _ _ h => h)

end Sound

lemma shutdown_limits (m : Mux) (e : MuxErr) : (m.shutdown e).limits = m.limits := by
  unfold shutdown
  split <;> rfl

lemma notify_limits (m : Mux) (r : WriteRequest) (e : Option MuxErr) :
    (m.notify r e).limits = m.limits := by
  unfold notify
  split
  · rfl
  · rw [spawn_eq]

lemma Move.limits {m m' : Mux} (hmove : Move m a m') : m'.limits = m.limits := by
  cases hmove with
  | openFailDrop | handleFailed | acceptFailed => exact shutdown_limits _ _
  | readerGiveUp => rename_i site _ _; cases site <;> first | rfl | exact shutdown_limits _ _
  | readFailed | closeMux => exact shutdown_limits _ _
  | takeFailed | writeFailed => exact (shutdown_limits _ _).trans (notify_limits _ _ _)
  | _ => rfl

variable {c : Config}

lemma new_limits {m : Mux} (hnew : new c = .ok m) :
    m.limits.initialWindow = c.window ∧ m.heap = [] ∧ m.streams = fun _ => none := by
  have hlim : ∀ l, c.limits = .ok l → l.initialWindow = c.window := by
    intro l hl
    unfold Config.limits at hl
    split_ifs at hl
    obtain rfl := Except.ok.inj hl
    rfl
  unfold new at hnew
  split at hnew
  · cases hl : c.limits with
    | error e => rw [hl] at hnew; cases hnew
    | ok l =>
      rw [hl] at hnew
      obtain rfl := Except.ok.inj hnew
      exact ⟨hlim l hl, rfl, rfl⟩
  · cases hl : c.limits with
    | error e => rw [hl] at hnew; cases hnew
    | ok l =>
      rw [hl] at hnew
      obtain rfl := Except.ok.inj hnew
      exact ⟨hlim l hl, rfl, rfl⟩
  · cases hnew

lemma sound_of_reachable {m₀ m : Mux} (hnew : new c = .ok m₀)
    (hr : Reachable step (fun _ _ => True) m₀ m) :
    Sound m ∧ m.limits.initialWindow = c.window := by
  obtain ⟨hwin, hheap, htab⟩ := new_limits hnew
  refine hr.invariant (P := fun m => Sound m ∧ m.limits.initialWindow = c.window) ⟨?_, hwin⟩ ?_
  · exact ⟨by simp [hheap], by simp [htab]⟩
  · intro m a m' hm _ hstep
    have hmove := Move.of_step hstep
    exact ⟨hm.1.move hmove, by rw [hmove.limits]; exact hm.2⟩

end Mux

/-- **Bounded buffering.** In every state a mux reaches from `New`, whatever frames it was fed
and however its callers ran, the table points at streams of their identifiers, and each of them
keeps its receive side within the configured window and its send side within the peer's. The
credit arithmetic is exact: no subtraction of `deliver` or `Write` borrows, no sum wraps, and
the grant `Read` returns is all the credit it moved, unharmed by the conversion to `uint32`. -/
theorem mux_buffering_bounded {c : Config} {m₀ m : Mux} (hnew : new c = .ok m₀)
    (hr : Reachable step (fun _ _ => True) m₀ m) {id : StreamID} {h : Handle}
    (hmap : m.streams id = some h) :
    ∃ s, m.heap[h]? = some s ∧ s.id = id ∧
      s.recvCredit + s.pendingWindow + s.readBuf.length ≤ c.window ∧
      (s.windowAdvertised = true → s.remoteClosed = false →
        s.recvCredit + s.pendingWindow + s.readBuf.length = c.window) ∧
      s.sendCredit ≤ s.peerWindow ∧ s.peerWindow ≤ 64 * 2 ^ 20 ∧ s.readBuf.length ≤ c.window ∧
      (∀ payload s', s.deliver payload = .ok s' → s'.recvCredit + payload.length = s.recvCredit) ∧
      (∀ rest s' data, s.takeChunk rest = .chunk s' data →
        s'.sendCredit + data.length = s.sendCredit) ∧
      (∀ credit, credit < 2 ^ 32 → s.sendCredit + credit < 2 ^ 64) ∧
      (∀ n s' out, s.read n ≠ .violation s' out) ∧
      (∀ n s' out grant, s.read n = .data s' out grant → s.remoteClosed = false →
        s'.recvCredit = s.recvCredit + grant ∧
          s'.pendingWindow + grant = s.pendingWindow + out.length) := by
  obtain ⟨hsound, hwin⟩ := sound_of_reachable hnew hr
  obtain ⟨s, hs, hid⟩ := hsound.table id h hmap
  obtain ⟨hflow, hlim⟩ := hsound.get hs
  have hw : s.limits.initialWindow = c.window := by rw [hlim, hwin]
  have hle := hflow.recv_le
  rw [hw] at hle
  refine ⟨s, hs, hid, hle, ?_, hflow.send_le, hflow.peer_le, by omega, ?_, ?_, ?_,
    fun n s' out => read_ne_violation hflow, ?_⟩
  · intro hadv hopen
    rw [hflow.recv_eq hadv hopen, hw]
  · intro payload s' hdel
    rcases deliver_eq hflow hdel with ⟨rfl, rfl⟩ | ⟨-, -, -, hcr, rfl⟩
    · simp
    · exact Nat.sub_add_cancel hcr
  · intro rest s' data hchunk
    have hlen := (takeChunk_length hflow hchunk).1
    obtain ⟨-, -, -, -, -, rfl⟩ := takeChunk_eq hflow hchunk
    exact Nat.sub_add_cancel hlen
  · intro credit hcr
    have hlt := hflow.send_lt
    omega
  · intro n s' out grant hread hopen
    obtain ⟨-, -, ⟨hclosed, -⟩ | ⟨-, rfl, hgr⟩⟩ := read_eq hflow hread
    · rw [hopen] at hclosed
      cases hclosed
    · exact ⟨rfl, Nat.sub_add_cancel hgr⟩

def smallResponder : Config := { role := 2, initialWindow := 8, windowUpdateThreshold := 2 }

/-- It accepts a stream, takes three bytes and gives one to its reader. -/
def smallResponderRun : List Mux.Act :=
  [.readFrame ⟨.frameOpen, 0, 1, serviceExec, []⟩] ++ replicate 7 (.reader .go) ++
    [.readFrame ⟨.frameData, 0, 1, serviceExec, [7, 8, 9]⟩] ++ replicate 3 (.reader .go) ++
    [.accept, .read 0 1]

/-- Where the run leaves the stream. -/
def smallResponderEnd (m : Mux) : Bool :=
  m.streams 1 = some 0 && m.heap[0]?.any fun s => s.windowAdvertised && !s.remoteClosed &&
    s.recvCredit = 5 && s.pendingWindow = 1 && s.readBuf = [8, 9]

theorem mux_buffering_bounded_responder : ∃ m₀ m s, new smallResponder = .ok m₀ ∧
    Reachable step (fun _ _ => True) m₀ m ∧ m.streams 1 = some 0 ∧ m.heap[0]? = some s ∧
    s.recvCredit = 5 ∧ s.pendingWindow = 1 ∧ s.readBuf = [8, 9] ∧
    s.recvCredit + s.pendingWindow + s.readBuf.length = 8 := by
  have hends : ends step (fun _ _ => true) (new smallResponder) smallResponderRun
      smallResponderEnd = true := by decide +kernel
  obtain ⟨m₀, m, hnew, hrun, hend⟩ := exists_of_ends hends
  have hreach := hrun.mono fun _ _ _ => trivial
  simp only [smallResponderEnd, Option.any_eq_true, Bool.and_eq_true, decide_eq_true_eq,
    Bool.not_eq_true'] at hend
  obtain ⟨hmap, s, hs, ⟨⟨⟨hadv, hopen⟩, hcr⟩, hpend⟩, hbuf⟩ := hend
  obtain ⟨t, ht, -, -, heq, -⟩ := mux_buffering_bounded hnew hreach hmap
  obtain rfl : s = t := Option.some.inj (hs.symm.trans ht)
  exact ⟨m₀, m, s, hnew, hreach, hmap, hs, hcr, hpend, hbuf, heq hadv hopen⟩

end WeaverSSH.SessionMux
