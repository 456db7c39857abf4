import WeaverSSH.SessionMux.Frame

/-!
# One logical stream and its flow control (`sessionmux/stream.go`)

A `Stream` is the record of the source with its channels and mutexes made explicit: the one-slot
`accepted` channel is an `Option`, `acceptOne` says whether the `sync.Once` has fired, and `writeMu`
whether the write mutex is held. Every definition is one critical section under `Stream.mu`.

Credit is reduced modulo `2 ^ 64`; `Stream.Flow` is the invariant under which no reduction changes a
value.
-/

namespace WeaverSSH.SessionMux

open List Except

/-- A value stored in a `uint64`. -/
def u64 (n : ℕ) : ℕ := n % 2 ^ 64

/-- A value converted to `uint32`. -/
def u32 (n : ℕ) : ℕ := n % 2 ^ 32

/-- `a - b` on `uint64`. -/
def u64Sub (a b : ℕ) : ℕ := u64 (a + (2 ^ 64 - b % 2 ^ 64))

variable {n : ℕ}

lemma u64_of_lt (h : n < 2 ^ 64) : u64 n = n := Nat.mod_eq_of_lt h

lemma u32_of_lt (h : n < 2 ^ 32) : u32 n = n := Nat.mod_eq_of_lt h

lemma u64Sub_of_le {a b : ℕ} (hb : b ≤ a) (ha : a < 2 ^ 64) : u64Sub a b = a - b := by
  unfold u64Sub u64
  omega

/-- The per-stream limits `New` derives from a `Config`, with what its checks establish. -/
structure Limits where
  initialWindow : ℕ
  windowThreshold : ℕ
  maxDataPayload : ℕ
  codecMax : ℕ
  window_pos : 0 < initialWindow
  window_le : initialWindow ≤ maxInitialWindow
  threshold_pos : 0 < windowThreshold
  threshold_le : windowThreshold ≤ initialWindow
  payload_pos : 0 < maxDataPayload
  payload_le_window : maxDataPayload ≤ initialWindow
  payload_le_codec : maxDataPayload ≤ codecMax

lemma Limits.window_lt (l : Limits) : l.initialWindow < 2 ^ 32 :=
  lt_of_le_of_lt l.window_le (by decide)

structure Stream where
  /-- `initialWindow`, `windowThreshold` and `maxDataPayload`, copied from the mux -/
  limits : Limits
  id : StreamID
  service : ServiceID
  metadata : Bytes
  /-- contents of the one-slot channel `accepted`; the inner `none` is a nil error -/
  accepted : Option (Option MuxErr) := none
  /-- `acceptOne` has fired -/
  acceptOne : Bool := false
  /-- `writeMu` is held -/
  writeMu : Bool := false
  readBuf : Bytes := []
  isOpen : Bool
  localClosed : Bool := false
  remoteClosed : Bool := false
  terminalErr : Option MuxErr := none
  windowAdvertised : Bool := false
  recvCredit : ℕ := 0
  pendingWindow : ℕ := 0
  peerWindowSet : Bool := false
  peerWindow : ℕ := 0
  sendCredit : ℕ := 0

def newStream (limits : Limits) (id : StreamID) (service : ServiceID) (metadata : Bytes)
    (accepted : Bool) : Stream :=
  { limits, id, service, metadata, isOpen := accepted }

namespace Stream

/-! ## The critical sections -/

def markAccepted (s : Stream) : Stream := { s with isOpen := true }

def signalAccepted (s : Stream) (e : Option MuxErr) : Stream :=
  if s.acceptOne then s else { s with acceptOne := true, accepted := some e }

/-- `Stream.initializeReceiveWindow`: the credit to advertise and the stream after. -/
def initializeReceiveWindow (s : Stream) : Except MuxErr (ℕ × Stream) :=
  if s.windowAdvertised then .error (.flowControl .duplicateWindow)
  else .ok (u32 s.limits.initialWindow,
    { s with windowAdvertised := true, recvCredit := s.limits.initialWindow })

def addSendCredit (s : Stream) (credit : ℕ) : Except MuxErr Stream :=
  if s.localClosed ∨ s.terminalErr.isSome then .ok s
  else if !s.peerWindowSet then
    if credit > maxInitialWindow then
      .error (.flowControl (.peerWindow credit maxInitialWindow))
    else .ok { s with peerWindowSet := true, peerWindow := credit, sendCredit := credit }
  else if u64 (s.sendCredit + credit) > s.peerWindow then
    .error (.flowControl (.creditExceeds s.id (u64 (s.sendCredit + credit)) s.peerWindow))
  else .ok { s with sendCredit := u64 (s.sendCredit + credit) }

def deliver (s : Stream) (payload : Bytes) : Except MuxErr Stream :=
  if payload.length = 0 then .ok s
  else if u32 payload.length > s.limits.maxDataPayload then
    .error (.flowControl (.dataFrame s.id payload.length s.limits.maxDataPayload))
  else if s.remoteClosed then .error (.flowControl (.dataAfterClose s.id))
  else if !s.windowAdvertised then .error (.flowControl (.dataBeforeWindow s.id))
  else if payload.length > s.recvCredit then
    .error (.flowControl (.dataCredit s.id payload.length s.recvCredit))
  else if u64 (s.readBuf.length + payload.length) > s.limits.initialWindow then
    .error (.flowControl (.unreadBuffer s.id s.limits.initialWindow))
  else .ok { s with recvCredit := u64Sub s.recvCredit payload.length
                    readBuf := s.readBuf ++ payload }

def remoteClose (s : Stream) (e : Option MuxErr) : Stream :=
  if s.remoteClosed ∧ s.terminalErr.isSome then s
  else match e with
    | some err => { s with remoteClosed := true, terminalErr := some err }
    | none => { s with remoteClosed := true }

def isFullyClosed (s : Stream) : Bool := s.localClosed && s.remoteClosed

/-- What one pass of the loop in `Stream.Read` does. -/
inductive ReadResult
  /-- `readReady.Wait()` -/
  | wait
  /-- `0, io.EOF` -/
  | eof
  /-- `0, terminalErr` -/
  | fail (e : MuxErr)
  /-- `n` bytes with `receive-credit invariant exceeded` -/
  | violation (s : Stream) (out : Bytes)
  /-- `n` bytes, and the credit to return to the peer (`0` for none) -/
  | data (s : Stream) (out : Bytes) (grant : ℕ)

/-- The bookkeeping of `Stream.Read` after it has taken `out` from the buffer of a stream whose
remote direction is open. -/
def returnCredit (s : Stream) (out : Bytes) : ReadResult :=
  let pending := u64 (s.pendingWindow + out.length)
  if pending ≥ s.limits.windowThreshold ∨ s.readBuf.length = 0 then
    if u64 (s.recvCredit + pending) > s.limits.initialWindow then
      .violation { s with pendingWindow := pending } out
    else .data { s with recvCredit := u64 (s.recvCredit + pending), pendingWindow := 0 } out
      (u32 pending)
  else .data { s with pendingWindow := pending } out 0

/-- One pass of the loop in `Stream.Read` with a buffer of `n > 0` bytes. -/
def read (s : Stream) (n : ℕ) : ReadResult :=
  if s.readBuf.length > 0 then
    let s' := { s with readBuf := s.readBuf.drop n }
    if s.remoteClosed then .data s' (s.readBuf.take n) 0
    else s'.returnCredit (s.readBuf.take n)
  else if s.remoteClosed then
    match s.terminalErr with
    | some e => .fail e
    | none => .eof
  else .wait

/-- What the locked part of one iteration of `Stream.Write` does. -/
inductive WriteResult
  | notAccepted
  | closedPipe
  | terminal (e : MuxErr)
  /-- `writeReady.Wait()` -/
  | wait
  /-- the chunk to send, its credit already taken -/
  | chunk (s : Stream) (data : Bytes)

/-- The locked part of one iteration of `Stream.Write` with `rest = p[total:]` to send. -/
def takeChunk (s : Stream) (rest : Bytes) : WriteResult :=
  if !s.isOpen then .notAccepted
  else if s.localClosed then .closedPipe
  else match s.terminalErr with
  | some e => .terminal e
  | none =>
    if s.sendCredit > 0 then
      let c₁ := if rest.length > s.limits.maxDataPayload then s.limits.maxDataPayload
        else rest.length
      let c₂ := if c₁ > s.sendCredit then s.sendCredit else c₁
      .chunk { s with sendCredit := u64Sub s.sendCredit c₂ } (rest.take c₂)
    else .wait

/-- The locked part of `Stream.Close`; `none` when the stream was already closed locally. -/
def closeLocal (s : Stream) : Option Stream :=
  if s.localClosed then none else some { s with localClosed := true }

/-- The locked part of `Stream.Reset`; `none` when the stream was already closed locally. -/
def resetLocal (s : Stream) : Option Stream :=
  if s.localClosed then none
  else some { s with localClosed := true, remoteClosed := true, terminalErr := some .streamReset }

/-! ## The flow-control invariant -/

/-- The credit bookkeeping of one stream, in both directions. -/
structure Flow (s : Stream) : Prop where
  /-- bytes the peer may still send, consumed bytes not yet returned, and unread bytes -/
  recv_le : s.recvCredit + s.pendingWindow + s.readBuf.length ≤ s.limits.initialWindow
  recv_eq : s.windowAdvertised = true → s.remoteClosed = false →
    s.recvCredit + s.pendingWindow + s.readBuf.length = s.limits.initialWindow
  unadvertised : s.windowAdvertised = false →
    s.recvCredit = 0 ∧ s.pendingWindow = 0 ∧ s.readBuf = []
  send_le : s.sendCredit ≤ s.peerWindow
  peer_le : s.peerWindow ≤ maxInitialWindow
  unset : s.peerWindowSet = false → s.peerWindow = 0

lemma maxInitialWindow_lt : maxInitialWindow < 2 ^ 32 := by decide

namespace Flow

variable {s s' : Stream}

lemma recv_lt (h : Flow s) : s.recvCredit + s.pendingWindow + s.readBuf.length < 2 ^ 32 :=
  lt_of_le_of_lt h.recv_le s.limits.window_lt

lemma send_lt (h : Flow s) : s.sendCredit < 2 ^ 32 :=
  lt_of_le_of_lt (h.send_le.trans h.peer_le) maxInitialWindow_lt

/-- A section that leaves the counters and the buffer alone, and closes at most, keeps the
invariant. -/
lemma of_eq (h : Flow s) (hl : s'.limits = s.limits) (hb : s'.readBuf = s.readBuf)
    (hr : s'.recvCredit = s.recvCredit) (hp : s'.pendingWindow = s.pendingWindow)
    (hw : s'.windowAdvertised = s.windowAdvertised)
    (hc : s.remoteClosed = true → s'.remoteClosed = true)
    (hps : s'.peerWindowSet = s.peerWindowSet) (hpw : s'.peerWindow = s.peerWindow)
    (hs : s'.sendCredit = s.sendCredit) : Flow s' where
  recv_le := by rw [hl, hb, hr, hp]; exact h.recv_le
  recv_eq := by
    intro hadv hopen
    rw [hl, hb, hr, hp]
    refine h.recv_eq (hw ▸ hadv) ?_
    by_contra hne
    rw [hc (by simpa using hne)] at hopen
    cases hopen
  unadvertised := by rw [hw, hb, hr, hp]; exact h.unadvertised
  send_le := by rw [hs, hpw]; exact h.send_le
  peer_le := by rw [hpw]; exact h.peer_le
  unset := by rw [hps, hpw]; exact h.unset

end Flow

lemma flow_newStream (limits : Limits) (id : StreamID) (service : ServiceID) (metadata : Bytes)
    (accepted : Bool) : Flow (newStream limits id service metadata accepted) where
  recv_le := by simp [newStream]
  recv_eq := by simp [newStream]
  unadvertised := by simp [newStream]
  send_le := by simp [newStream]
  peer_le := by simp [newStream]
  unset := by simp [newStream]

variable {s : Stream}

lemma flow_markAccepted (h : Flow s) : Flow s.markAccepted :=
  h.of_eq rfl rfl rfl rfl rfl (fun hc => hc) rfl rfl rfl

lemma flow_signalAccepted (h : Flow s) (e : Option MuxErr) : Flow (s.signalAccepted e) := by
  unfold signalAccepted
  split
  · exact h
  · exact h.of_eq rfl rfl rfl rfl rfl (fun hc => hc) rfl rfl rfl

lemma flow_remoteClose (h : Flow s) (e : Option MuxErr) : Flow (s.remoteClose e) := by
  unfold remoteClose
  split
  · exact h
  · split <;> exact h.of_eq rfl rfl rfl rfl rfl (fun _ => rfl) rfl rfl rfl

/-! ### Exact forms of the credit operations -/

variable {credit : ℕ} {rest data out : Bytes}

variable {s' : Stream}

/-- The initial credit is the configured window, undamaged by the conversion to `uint32`. -/
lemma initializeReceiveWindow_eq (hs : s.initializeReceiveWindow = .ok (credit, s')) :
    s.windowAdvertised = false ∧ credit = s.limits.initialWindow ∧
      s' = { s with windowAdvertised := true, recvCredit := s.limits.initialWindow } := by
  unfold initializeReceiveWindow at hs
  split at hs
  · cases hs
  · rename_i hadv
    obtain ⟨rfl, rfl⟩ := Prod.mk.inj (ok.inj hs)
    exact ⟨by simpa using hadv, u32_of_lt s.limits.window_lt, rfl⟩

lemma flow_initializeReceiveWindow (h : Flow s)
    (hs : s.initializeReceiveWindow = .ok (credit, s')) : Flow s' := by
  obtain ⟨hadv, -, rfl⟩ := initializeReceiveWindow_eq hs
  obtain ⟨-, hpend, hbuf⟩ := h.unadvertised hadv
  exact { recv_le := by simp [hpend, hbuf]
          recv_eq := by simp [hpend, hbuf]
          unadvertised := by simp
          send_le := h.send_le
          peer_le := h.peer_le
          unset := h.unset }

/-- `addSendCredit` either ignores the grant on a stream that will write no more, installs the
first grant as the peer's window, or adds a grant that stays within it. -/
lemma addSendCredit_eq (h : Flow s) (hcr : credit < 2 ^ 32) (hs : s.addSendCredit credit = .ok s') :
    ((s.localClosed = true ∨ s.terminalErr.isSome) ∧ s' = s) ∨
    (s.localClosed = false ∧ s.terminalErr = none ∧ s.peerWindowSet = false ∧
      credit ≤ maxInitialWindow ∧
      s' = { s with peerWindowSet := true, peerWindow := credit, sendCredit := credit }) ∨
    (s.localClosed = false ∧ s.terminalErr = none ∧ s.peerWindowSet = true ∧
      s.sendCredit + credit ≤ s.peerWindow ∧
      s' = { s with sendCredit := s.sendCredit + credit }) := by
  have hlt : s.sendCredit + credit < 2 ^ 64 := by have := h.send_lt; omega
  unfold addSendCredit at hs
  rw [u64_of_lt hlt] at hs
  split at hs
  · rename_i hdead
    exact .inl ⟨hdead, (ok.inj hs).symm⟩
  · rename_i hlive
    push Not at hlive
    have hopen : s.localClosed = false ∧ s.terminalErr = none := by simpa using hlive
    split at hs
    · rename_i hset
      split at hs
      · cases hs
      · rename_i hle
        exact .inr (.inl ⟨hopen.1, hopen.2, by simpa using hset, by omega, (ok.inj hs).symm⟩)
    · rename_i hset
      split at hs
      · cases hs
      · rename_i hle
        exact .inr (.inr ⟨hopen.1, hopen.2, by simpa using hset, by omega, (ok.inj hs).symm⟩)

lemma flow_addSendCredit (h : Flow s) (hcr : credit < 2 ^ 32)
    (hs : s.addSendCredit credit = .ok s') : Flow s' := by
  rcases addSendCredit_eq h hcr hs with ⟨-, rfl⟩ | ⟨-, -, -, hle, rfl⟩ | ⟨-, -, hset, hle, rfl⟩
  · exact h
  · exact ⟨h.recv_le, h.recv_eq, h.unadvertised, le_rfl, hle, by simp⟩
  · exact ⟨h.recv_le, h.recv_eq, h.unadvertised, hle, h.peer_le, by simp [hset]⟩

variable {payload : Bytes}

/-- `deliver` accepts an empty payload without effect, and any other payload exactly when the
credit covers it; the subtraction never borrows. -/
lemma deliver_eq (h : Flow s) (hs : s.deliver payload = .ok s') : (payload = [] ∧ s' = s) ∨
    (payload ≠ [] ∧ s.remoteClosed = false ∧ s.windowAdvertised = true ∧
      payload.length ≤ s.recvCredit ∧ s' =
        { s with
          recvCredit := s.recvCredit - payload.length, readBuf := s.readBuf ++ payload }) := by
  unfold deliver at hs
  split at hs
  · rename_i hnil
    exact .inl ⟨length_eq_zero_iff.mp hnil, (ok.inj hs).symm⟩
  rename_i hne
  split at hs
  · cases hs
  split at hs
  · cases hs
  rename_i hopen
  split at hs
  · cases hs
  rename_i hadv
  split at hs
  · cases hs
  rename_i hcr
  split at hs
  · cases hs
  have hlt := h.recv_lt
  have hle : payload.length ≤ s.recvCredit := by omega
  rw [u64Sub_of_le hle (by omega)] at hs
  exact .inr ⟨fun h0 => hne (by simp [h0]), by simpa using hopen, by simpa using hadv, hle,
    (ok.inj hs).symm⟩

lemma flow_deliver (h : Flow s) (hs : s.deliver payload = .ok s') : Flow s' := by
  rcases deliver_eq h hs with ⟨-, rfl⟩ | ⟨-, hopen, hadv, hle, rfl⟩
  · exact h
  · have heq := h.recv_eq hadv hopen
    exact { recv_le := by simp only [length_append]; omega
            recv_eq := by intro _ _; simp only [length_append]; omega
            unadvertised := by simp [hadv]
            send_le := h.send_le
            peer_le := h.peer_le
            unset := h.unset }

/-- A chunk is a prefix of what is left to write, bounded by the payload limit and by the
credit it takes; the subtraction never borrows. -/
lemma takeChunk_eq (h : Flow s) (hs : s.takeChunk rest = .chunk s' data) :
    s.isOpen = true ∧ s.localClosed = false ∧ s.terminalErr = none ∧ 0 < s.sendCredit ∧
      data = rest.take (min (min rest.length s.limits.maxDataPayload) s.sendCredit) ∧
      s' = { s with sendCredit := s.sendCredit - data.length } := by
  unfold takeChunk at hs
  split at hs
  · cases hs
  rename_i hacc
  split at hs
  · cases hs
  rename_i hloc
  split at hs
  · cases hs
  rename_i hterm
  split at hs
  · rename_i hcr
    have hlt := h.send_lt
    have hmin : (if (if rest.length > s.limits.maxDataPayload then s.limits.maxDataPayload
        else rest.length) > s.sendCredit then s.sendCredit
        else if rest.length > s.limits.maxDataPayload then s.limits.maxDataPayload
        else rest.length) = min (min rest.length s.limits.maxDataPayload) s.sendCredit := by
      split_ifs <;> omega
    simp only [hmin] at hs
    obtain ⟨rfl, rfl⟩ := WriteResult.chunk.inj hs
    refine ⟨by simpa using hacc, by simpa using hloc, hterm, hcr, rfl, ?_⟩
    rw [u64Sub_of_le (by omega) (by omega)]
    congr 1
    simp only [length_take]
    omega
  · cases hs

lemma takeChunk_length (h : Flow s) (hs : s.takeChunk rest = .chunk s' data) :
    data.length ≤ s.sendCredit ∧ data.length ≤ s.limits.maxDataPayload := by
  obtain ⟨-, -, -, -, rfl, -⟩ := takeChunk_eq h hs
  simp only [length_take]
  omega

lemma takeChunk_ne_nil (h : Flow s) (hrest : rest ≠ [])
    (hs : s.takeChunk rest = .chunk s' data) : data ≠ [] := by
  obtain ⟨-, -, -, hcr, rfl, -⟩ := takeChunk_eq h hs
  have hpos := s.limits.payload_pos
  have hlen : 0 < rest.length := length_pos_iff.mpr hrest
  rw [← length_pos_iff]
  simp only [length_take]
  omega

lemma flow_takeChunk (h : Flow s) (hs : s.takeChunk rest = .chunk s' data) : Flow s' := by
  obtain ⟨-, -, -, -, -, rfl⟩ := takeChunk_eq h hs
  exact ⟨h.recv_le, h.recv_eq, h.unadvertised, (Nat.sub_le _ _).trans h.send_le, h.peer_le, h.unset⟩

variable {grant : ℕ}

/-- What `Read` returns when it returns bytes: they leave the buffer, and on an open stream
they move to `pendingWindow` or, with everything pending there, to the credit granted. -/
lemma read_eq (h : Flow s) (hs : s.read n = .data s' out grant) :
    s.readBuf ≠ [] ∧ out = s.readBuf.take n ∧
      ((s.remoteClosed = true ∧ grant = 0 ∧ s' = { s with readBuf := s.readBuf.drop n }) ∨
       (s.remoteClosed = false ∧ s' = { s with
          readBuf := s.readBuf.drop n, recvCredit := s.recvCredit + grant
          pendingWindow := s.pendingWindow + out.length - grant } ∧
        grant ≤ s.pendingWindow + out.length)) := by
  have hlt := h.recv_lt
  have hlen : (s.readBuf.take n).length + (s.readBuf.drop n).length = s.readBuf.length := by
    simp only [length_take, length_drop]; omega
  unfold read at hs
  split at hs
  · rename_i hbuf
    have hne : s.readBuf ≠ [] := length_pos_iff.mp hbuf
    split at hs
    · rename_i hclosed
      obtain ⟨rfl, rfl, rfl⟩ := ReadResult.data.inj hs
      exact ⟨hne, rfl, .inl ⟨hclosed, rfl, rfl⟩⟩
    · rename_i hopen
      have hopen : s.remoteClosed = false := by simpa using hopen
      simp only [returnCredit] at hs
      rw [u64_of_lt (n := s.pendingWindow + _) (by omega),
        u64_of_lt (n := s.recvCredit + _) (by omega),
        u32_of_lt (n := s.pendingWindow + _) (by omega)] at hs
      split at hs
      · split at hs
        · cases hs
        · obtain ⟨rfl, rfl, rfl⟩ := ReadResult.data.inj hs
          exact ⟨hne, rfl, .inr ⟨hopen, by simp, le_rfl⟩⟩
      · obtain ⟨rfl, rfl, rfl⟩ := ReadResult.data.inj hs
        exact ⟨hne, rfl, .inr ⟨hopen, by simp, by omega⟩⟩
  · split at hs
    · split at hs <;> cases hs
    · cases hs

lemma read_ne_violation (h : Flow s) : s.read n ≠ .violation s' out := by
  intro hs
  have hle := h.recv_le
  have hlt := h.recv_lt
  have hlen : (s.readBuf.take n).length + (s.readBuf.drop n).length = s.readBuf.length := by
    simp only [length_take, length_drop]; omega
  unfold read at hs
  split at hs
  · split at hs
    · cases hs
    · simp only [returnCredit] at hs
      rw [u64_of_lt (n := s.pendingWindow + _) (by omega),
        u64_of_lt (n := s.recvCredit + _) (by omega)] at hs
      split at hs
      · split at hs
        · omega
        · cases hs
      · cases hs
  · split at hs
    · split at hs <;> cases hs
    · cases hs

lemma flow_read (h : Flow s) (hs : s.read n = .data s' out grant) : Flow s' := by
  have hlen : (s.readBuf.take n).length + (s.readBuf.drop n).length = s.readBuf.length := by
    simp only [length_take, length_drop]; omega
  have hle := h.recv_le
  obtain ⟨hne, rfl, ⟨hclosed, rfl, rfl⟩ | ⟨hopen, rfl, hgr⟩⟩ := read_eq h hs
  · exact { recv_le := by simp only; omega
            recv_eq := by simp [hclosed]
            unadvertised := fun hadv => by simp [h.unadvertised hadv]
            send_le := h.send_le
            peer_le := h.peer_le
            unset := h.unset }
  · have hadv : s.windowAdvertised = true := by
      by_contra hno
      exact hne (h.unadvertised (by simpa using hno)).2.2
    have heq := h.recv_eq hadv hopen
    exact { recv_le := by simp only; omega
            recv_eq := by intro _ _; simp only; omega
            unadvertised := by simp [hadv]
            send_le := h.send_le
            peer_le := h.peer_le
            unset := h.unset }

/-! ## What no section changes -/

/-- The fields a stream is created with and keeps. -/
structure Kept (s s' : Stream) : Prop where
  limits : s'.limits = s.limits
  id : s'.id = s.id
  service : s'.service = s.service

lemma Kept.refl (s : Stream) : Kept s s := ⟨rfl, rfl, rfl⟩

lemma kept_signalAccepted (s : Stream) (e : Option MuxErr) : Kept s (s.signalAccepted e) := by
  unfold signalAccepted
  split <;> exact ⟨rfl, rfl, rfl⟩

lemma kept_remoteClose (s : Stream) (e : Option MuxErr) : Kept s (s.remoteClose e) := by
  unfold remoteClose
  split
  · exact .refl s
  · split <;> exact ⟨rfl, rfl, rfl⟩

lemma kept_addSendCredit (h : Flow s) (hcr : credit < 2 ^ 32)
    (hs : s.addSendCredit credit = .ok s') : Kept s s' := by
  rcases addSendCredit_eq h hcr hs with ⟨-, rfl⟩ | ⟨-, -, -, -, rfl⟩ | ⟨-, -, -, -, rfl⟩ <;>
    exact ⟨rfl, rfl, rfl⟩

lemma kept_deliver (h : Flow s) (hs : s.deliver payload = .ok s') : Kept s s' := by
  rcases deliver_eq h hs with ⟨-, rfl⟩ | ⟨-, -, -, -, rfl⟩ <;> exact ⟨rfl, rfl, rfl⟩

lemma kept_takeChunk (h : Flow s) (hs : s.takeChunk rest = .chunk s' data) : Kept s s' := by
  obtain ⟨-, -, -, -, -, rfl⟩ := takeChunk_eq h hs
  exact ⟨rfl, rfl, rfl⟩

lemma kept_read (h : Flow s) (hs : s.read n = .data s' out grant) : Kept s s' := by
  obtain ⟨-, -, ⟨-, -, rfl⟩ | ⟨-, rfl, -⟩⟩ := read_eq h hs <;> exact ⟨rfl, rfl, rfl⟩

/-! ## What no section undoes -/

/-- The flags of a stream are set for good. -/
structure Grows (s s' : Stream) : Prop where
  advertised : s.windowAdvertised = true → s'.windowAdvertised = true
  isOpen : s.isOpen = true → s'.isOpen = true
  acceptOne : s.acceptOne = true → s'.acceptOne = true
  localClosed : s.localClosed = true → s'.localClosed = true
  remoteClosed : s.remoteClosed = true → s'.remoteClosed = true
  terminal : s.terminalErr ≠ none → s'.terminalErr ≠ none

lemma Grows.refl (s : Stream) : Grows s s :=
  ⟨fun h => h, fun h => h, fun h => h, fun h => h, fun h => h, fun h => h⟩

lemma signalAccepted_eq (s : Stream) (e : Option MuxErr) :
    ∃ a, s.signalAccepted e = { s with acceptOne := true, accepted := a } := by
  unfold signalAccepted
  split
  · rename_i h
    exact ⟨s.accepted, by rw [← h]⟩
  · exact ⟨some e, rfl⟩

lemma remoteClose_some (s : Stream) (e : MuxErr) :
    ∃ t, s.remoteClose (some e) = { s with remoteClosed := true, terminalErr := some t } := by
  unfold remoteClose
  split
  · rename_i h
    obtain ⟨t, ht⟩ := Option.isSome_iff_exists.mp h.2
    exact ⟨t, by rw [← ht, ← h.1]⟩
  · exact ⟨e, rfl⟩

lemma remoteClose_none (s : Stream) : s.remoteClose none = { s with remoteClosed := true } := by
  unfold remoteClose
  split
  · rename_i h
    rw [← h.1]
  · rfl

end Stream

end WeaverSSH.SessionMux
