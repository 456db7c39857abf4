import Mathlib.Tactic

/-!
# Frames, errors and WINDOW credit (`sessionmux/frame.go`, `sessionmux/flow.go`)

Frame types, service identifiers, the frame record, the checks `Codec.WriteFrame` makes before it
writes, and the big-endian credit of a WINDOW frame. Stream identifiers are `UInt32` because
`Mux.nextID` wraps; a peer may send a service identifier that names no service.
-/

namespace WeaverSSH.SessionMux

open UInt8

/-! ## Frame types and services -/

/-- `FrameType`. A byte outside `1..8` is `unknown`. -/
inductive FrameType
  | frameOpen
  | frameAccept
  | frameData
  | frameWindow
  | frameClose
  | frameReset
  | framePing
  | framePong
  | unknown (code : UInt8)
  deriving DecidableEq, Repr

def FrameType.valid : FrameType → Bool
  | .unknown _ => false
  | _ => true

abbrev ServiceID := UInt16

def serviceControl : ServiceID := 1
def serviceFS : ServiceID := 2
def serviceTCP : ServiceID := 3
def serviceExec : ServiceID := 4
def serviceEvents : ServiceID := 5
def serviceUDP : ServiceID := 6

/-- `ServiceID.Valid`: `s >= ServiceControl && s <= ServiceUDP`. -/
def ServiceID.valid (s : ServiceID) : Bool := serviceControl ≤ s && s ≤ serviceUDP

abbrev StreamID := UInt32

abbrev Bytes := List UInt8

/-- `Frame`: one wire-level multiplexer message. -/
structure Frame where
  type : FrameType
  flags : UInt16 := 0
  streamID : StreamID
  service : ServiceID := 0
  payload : Bytes := []
  deriving DecidableEq, Repr

/-! ## Errors -/

/-- What follows `ErrFlowControlViolation` in the errors that wrap it. -/
inductive FlowReason
  /-- `WINDOW service mismatch` -/
  | windowService
  /-- `WINDOW payload length %d` -/
  | windowLength (length : ℕ)
  /-- `zero WINDOW credit` -/
  | zeroCredit
  /-- `peer window %d exceeds safety limit %d` -/
  | peerWindow (credit limit : ℕ)
  /-- `stream %d credit %d exceeds peer window %d` -/
  | creditExceeds (id : StreamID) (credit window : ℕ)
  /-- `stream %d DATA frame %d exceeds limit %d` -/
  | dataFrame (id : StreamID) (length limit : ℕ)
  /-- `DATA after CLOSE on stream %d` -/
  | dataAfterClose (id : StreamID)
  /-- `DATA before WINDOW on stream %d` -/
  | dataBeforeWindow (id : StreamID)
  /-- `stream %d received %d bytes with %d credit` -/
  | dataCredit (id : StreamID) (length credit : ℕ)
  /-- `stream %d unread buffer exceeds %d` -/
  | unreadBuffer (id : StreamID) (window : ℕ)
  /-- `duplicate initial window` -/
  | duplicateWindow
  /-- `receive-credit invariant exceeded` -/
  | receiveCredit
  deriving DecidableEq, Repr

/-- The errors of the package, one constructor for each `errors.New` and `fmt.Errorf`. -/
inductive MuxErr
  /-- `ErrMuxClosed` -/
  | muxClosed
  /-- `ErrStreamReset` -/
  | streamReset
  /-- `ErrIncomingBacklog` -/
  | incomingBacklog
  /-- wraps `ErrFlowControlViolation` -/
  | flowControl (reason : FlowReason)
  /-- `invalid role %d`, from `New` -/
  | invalidRole
  /-- `initial window %d exceeds 64 MiB safety limit`, from `New` -/
  | initialWindow (window : ℕ)
  /-- `window threshold %d exceeds initial window %d`, from `New` -/
  | windowThreshold (threshold window : ℕ)
  /-- `DATA payload %d exceeds codec maximum %d`, from `New` -/
  | dataPayload (payload codecMax : ℕ)
  /-- `DATA payload limit must be positive`, from `New` -/
  | dataPayloadZero
  /-- `ACCEPT for unknown stream %d` -/
  | acceptUnknown (id : StreamID)
  /-- `ACCEPT service mismatch for stream %d` -/
  | acceptService (id : StreamID)
  /-- `unsupported frame type %d` -/
  | unsupportedType (type : FrameType)
  /-- `peer used invalid stream ID %d` -/
  | invalidStreamID (id : StreamID)
  /-- `duplicate OPEN for stream %d` -/
  | duplicateOpen (id : StreamID)
  /-- `invalid service %d` -/
  | invalidService (service : ServiceID)
  /-- `invalid frame type %d`, from `WriteFrame` -/
  | invalidFrameType (type : FrameType)
  /-- `payload too large: %d > %d`, from `WriteFrame` -/
  | payloadTooLarge (length max : ℕ)
  /-- `%v frame must not carry payload`, from `WriteFrame` -/
  | payloadForbidden (type : FrameType)
  /-- `stream 0 is reserved for session control`, from `WriteFrame` -/
  | streamZero
  /-- `stream is not accepted`, from `Write` -/
  | notAccepted
  /-- `io.ErrClosedPipe`, from `Write` -/
  | closedPipe
  /-- `ctx.Err()` -/
  | ctxErr
  /-- whatever the transport's `Read` or `Write` returned -/
  | transport
  deriving DecidableEq, Repr

/-! ## The codec's checks -/

/-- `defaultMaxPayload`, `16 << 20`. -/
def defaultMaxPayload : ℕ := 16 <<< 20

/-- `Codec.maxPayload` of a codec with the given `MaxPayload` field. -/
def codecMaxPayload (maxPayload : UInt32) : ℕ :=
  if maxPayload = 0 then defaultMaxPayload else maxPayload.toNat

def validateFramePayloadLength (type : FrameType) (length : ℕ) : Option MuxErr :=
  match type with
  | .frameWindow => if length ≠ 4 then some (.flowControl (.windowLength length)) else none
  | .frameAccept | .frameClose | .frameReset =>
      if length ≠ 0 then some (.payloadForbidden type) else none
  | _ => none

/-- The checks `Codec.WriteFrame` makes, in its order; `none` when the frame is written. -/
def writeFrameCheck (codecMax : ℕ) (f : Frame) : Option MuxErr :=
  if !f.type.valid then some (.invalidFrameType f.type)
  else if f.payload.length > codecMax then some (.payloadTooLarge f.payload.length codecMax)
  else match validateFramePayloadLength f.type (f.payload.length % 2 ^ 32) with
  | some e => some e
  | none =>
    if f.streamID = 0 ∧ f.type ≠ .framePing ∧ f.type ≠ .framePong then some .streamZero
    else if f.type = .frameOpen ∧ !f.service.valid then some (.invalidService f.service)
    else none

/-! ## WINDOW credit -/

/-- `DefaultInitialWindow`, `256 << 10`. -/
def defaultInitialWindow : ℕ := 256 <<< 10

/-- `DefaultMaxDataPayload`, `64 << 10`. -/
def defaultMaxDataPayload : ℕ := 64 <<< 10

/-- `maxInitialWindow`, `64 << 20`. -/
def maxInitialWindow : ℕ := 64 <<< 20

/-- `binary.BigEndian.PutUint32` into a fresh four-byte slice. -/
def putUint32 (n : ℕ) : Bytes :=
  [ofNat (n / 2 ^ 24), ofNat (n / 2 ^ 16), ofNat (n / 2 ^ 8), ofNat n]

/-- `binary.BigEndian.Uint32` of a four-byte slice. -/
def uint32 (b₀ b₁ b₂ b₃ : UInt8) : ℕ :=
  b₀.toNat * 2 ^ 24 + b₁.toNat * 2 ^ 16 + b₂.toNat * 2 ^ 8 + b₃.toNat

def encodeWindowCredit (credit : ℕ) : Except MuxErr Bytes :=
  if credit = 0 then .error (.flowControl .zeroCredit) else .ok (putUint32 credit)

def decodeWindowCredit (payload : Bytes) : Except MuxErr ℕ :=
  match payload with
  | [b₀, b₁, b₂, b₃] =>
      if uint32 b₀ b₁ b₂ b₃ = 0 then .error (.flowControl .zeroCredit)
      else .ok (uint32 b₀ b₁ b₂ b₃)
  | _ => .error (.flowControl (.windowLength payload.length))

lemma uint32_lt (b₀ b₁ b₂ b₃ : UInt8) : uint32 b₀ b₁ b₂ b₃ < 2 ^ 32 := by
  have h₀ := b₀.toNat_lt
  have h₁ := b₁.toNat_lt
  have h₂ := b₂.toNat_lt
  have h₃ := b₃.toNat_lt
  unfold uint32
  omega

lemma decodeWindowCredit_lt {payload : Bytes} {credit : ℕ}
    (h : decodeWindowCredit payload = .ok credit) : 0 < credit ∧ credit < 2 ^ 32 := by
  unfold decodeWindowCredit at h
  split at h
  · split_ifs at h with hz
    obtain rfl := Except.ok.inj h
    exact ⟨Nat.pos_of_ne_zero hz, uint32_lt _ _ _ _⟩
  · cases h

lemma decodeWindowCredit_putUint32 {n : ℕ} (hpos : 0 < n) (hlt : n < 2 ^ 32) :
    decodeWindowCredit (putUint32 n) = .ok n := by
  have h : uint32 (ofNat (n / 2 ^ 24)) (ofNat (n / 2 ^ 16)) (ofNat (n / 2 ^ 8))
      (ofNat n) = n := by
    simp only [uint32, toNat_ofNat']
    omega
  simp only [decodeWindowCredit, putUint32, h]
  rw [if_neg (by omega)]

end WeaverSSH.SessionMux
