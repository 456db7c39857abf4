import WeaverSSH.Framework.Checks
import WeaverSSH.Framework.Frames
import WeaverSSH.SessionMux.Frame

/-!
# Frames as bytes (`sessionmux/frame.go`)

`writeFrame` puts a header of 20 bytes before the payload, and `readFrame` reads one frame and
leaves the rest of the stream. It takes any two bytes for the reserved ones, and any service of an
OPEN.
-/

namespace WeaverSSH.SessionMux

open List

namespace FrameType

/-- `byte(frame.Type)`. -/
def code : FrameType → UInt8
  | .frameOpen => 1
  | .frameAccept => 2
  | .frameData => 3
  | .frameWindow => 4
  | .frameClose => 5
  | .frameReset => 6
  | .framePing => 7
  | .framePong => 8
  | .unknown code => code

/-- `FrameType(header[5])`. -/
def ofCode (code : UInt8) : FrameType :=
  ([frameOpen, frameAccept, frameData, frameWindow, frameClose, frameReset, framePing,
    framePong].find? (·.code = code)).getD (.unknown code)

lemma code_ofCode (c : UInt8) : (ofCode c).code = c := by
  unfold ofCode
  cases hfind : find? _ _ with
  | none => rfl
  | some t => simpa using find?_some hfind

lemma ofCode_code {t : FrameType} (h : t.valid = true) : ofCode t.code = t := by
  cases t with
  | unknown => cases h
  | _ => rfl

end FrameType

namespace Codec

def headerSize : ℕ := 20

/-- `WVM1`. -/
def frameMagic : Bytes := [0x57, 0x56, 0x4D, 0x31]

def protocolVersion : UInt8 := 2

def header (reserved reserved' : UInt8) (f : Frame) : Bytes :=
  frameMagic ++ [protocolVersion, f.type.code] ++ bigEndian 2 f.flags.toNat ++
    bigEndian 4 f.streamID.toNat ++ bigEndian 2 f.service.toNat ++ [reserved, reserved'] ++
    bigEndian 4 f.payload.length

variable (maxPayload : UInt32)

def writeFrame (f : Frame) : Except MuxErr Bytes :=
  match writeFrameCheck (codecMaxPayload maxPayload) f with
  | some e => .error e
  | none => .ok (header 0 0 f ++ f.payload)

/-- Why `ReadFrame` returns no frame. -/
inductive ReadErr
  /-- from `io.ReadFull` -/
  | read (e : FrameErr)
  /-- `invalid frame magic` -/
  | magic
  /-- `unsupported protocol version %d` -/
  | version (v : UInt8)
  /-- an error that `WriteFrame` has too -/
  | check (e : MuxErr)
  deriving DecidableEq, Repr

/-- `ReadFrame`, with the rest of the stream. -/
def readFrame (stream : Bytes) : Except ReadErr (Frame × Bytes) := do
  let header ← (readFull headerSize stream).mapError .read
  require (bytesAt header 0 4 = frameMagic) .magic
  require (header.getD 4 0 = protocolVersion) (.version (header.getD 4 0))
  let type := FrameType.ofCode (header.getD 5 0)
  let streamID : StreamID := .ofNat (fromBigEndian (bytesAt header 8 4))
  require type.valid (.check (.invalidFrameType type))
  require (streamID ≠ 0 ∨ type = .framePing ∨ type = .framePong) (.check .streamZero)
  let length := fromBigEndian (bytesAt header 16 4)
  let max := codecMaxPayload maxPayload
  require (length ≤ max) (.check (.payloadTooLarge length max))
  requireNone (validateFramePayloadLength type length) .check
  let body := stream.drop headerSize
  let payload ← (readFull length body).mapError .read
  pure ({ type, streamID, payload
          flags := .ofNat (fromBigEndian (bytesAt header 6 2))
          service := .ofNat (fromBigEndian (bytesAt header 12 2)) }, body.drop length)

/-- The frames one after the other, as the writer loop sends them. -/
def writeFrames : List Frame → Except MuxErr Bytes
  | [] => .ok []
  | f :: fs => do
    let bytes ← writeFrame maxPayload f
    let more ← writeFrames fs
    pure (bytes ++ more)

/-- A number of turns of the reader loop. -/
def readFrames : ℕ → Bytes → Except ReadErr (List Frame × Bytes)
  | 0, stream => .ok ([], stream)
  | n + 1, stream => do
    let (f, stream) ← readFrame maxPayload stream
    let (fs, stream) ← readFrames n stream
    pure (f :: fs, stream)

/-- The frames that `ReadFrame` returns. -/
structure Readable (f : Frame) : Prop where
  type : f.type.valid = true
  stream : f.streamID ≠ 0 ∨ f.type = .framePing ∨ f.type = .framePong
  length : f.payload.length ≤ codecMaxPayload maxPayload
  shape : validateFramePayloadLength f.type f.payload.length = none

variable {maxPayload} {f : Frame} {stream rest : Bytes}

lemma codecMaxPayload_lt : codecMaxPayload maxPayload < 256 ^ 4 := by
  unfold codecMaxPayload
  split_ifs
  · decide
  · exact maxPayload.toNat_lt

/-- Where the fields of a frame stand in its header. -/
lemma eq_header_iff {b : Bytes} (hb : b.length = headerSize)
    (hlength : f.payload.length < 256 ^ 4) :
    (∃ r r', b = header r r' f) ↔ bytesAt b 0 4 = frameMagic ∧ b.getD 4 0 = protocolVersion ∧
      b.getD 5 0 = f.type.code ∧ fromBigEndian (bytesAt b 6 2) = f.flags.toNat ∧
      fromBigEndian (bytesAt b 8 4) = f.streamID.toNat ∧
      fromBigEndian (bytesAt b 12 2) = f.service.toNat ∧
      fromBigEndian (bytesAt b 16 4) = f.payload.length := by
  constructor
  · rintro ⟨r, r', rfl⟩
    have hread (width : ℕ) {n : ℕ} (h : n < 256 ^ width) : fromBigEndian (bigEndian width n) = n :=
      (fromBigEndian_bigEndian width n).trans (Nat.mod_eq_of_lt h)
    exact ⟨rfl, rfl, rfl, hread 2 f.flags.toNat_lt, hread 4 f.streamID.toNat_lt,
      hread 2 f.service.toNat_lt, hread 4 hlength⟩
  · rintro ⟨hmagic, hversion, htype, hflags, hid, hservice, hsize⟩
    have hb : b.length = 20 := hb
    have hfield (offset width : ℕ) (h : offset + width ≤ 20) :
        bigEndian width (fromBigEndian (bytesAt b offset width)) = bytesAt b offset width := by
      have hlen : (bytesAt b offset width).length = width := by
        rw [bytesAt, length_take, length_drop]
        omega
      have hfrom := bigEndian_fromBigEndian (bytesAt b offset width)
      rwa [hlen] at hfrom
    refine ⟨b.getD 14 0, b.getD 15 0, ?_⟩
    rw [header, ← hmagic, ← hversion, ← htype, ← hflags, ← hid, ← hservice, ← hsize,
      hfield 6 2 (by omega), hfield 8 4 (by omega), hfield 12 2 (by omega), hfield 16 4 (by omega),
      ← bytesAt_two (by omega), ← bytesAt_two (by omega), bytesAt_append_bytesAt rfl,
      bytesAt_append_bytesAt rfl, bytesAt_append_bytesAt rfl, bytesAt_append_bytesAt rfl,
      bytesAt_append_bytesAt rfl, bytesAt_append_bytesAt rfl]
    exact (take_of_length_le hb.le).symm

lemma readFrame_header (h : Readable maxPayload f) (r r' : UInt8) (rest : Bytes) :
    readFrame maxPayload (header r r' f ++ f.payload ++ rest) = .ok (f, rest) := by
  obtain ⟨hmagic, hversion, htype, hflags, hid, hservice, hsize⟩ :=
    (eq_header_iff rfl (h.length.trans_lt codecMaxPayload_lt)).mp ⟨r, r', rfl⟩
  have hbody : (header r r' f ++ (f.payload ++ rest)).drop headerSize = f.payload ++ rest :=
    drop_left' rfl
  rw [append_assoc]
  simp only [readFrame, checks_ok, mapError_eq_ok, requireNone_eq_ok, readFull_eq_ok, hbody]
  refine ⟨header r r' f, ⟨rfl, _, rfl⟩, hmagic, hversion, ?_⟩
  simp only [htype, hflags, hid, hservice, hsize, FrameType.ofCode_code h.type, UInt16.ofNat_toNat,
    UInt32.ofNat_toNat]
  exact ⟨h.type, h.stream, h.length, h.shape, f.payload, ⟨rfl, rest, rfl⟩, by rw [drop_left]⟩

lemma header_of_readFrame (h : readFrame maxPayload stream = .ok (f, rest)) :
    Readable maxPayload f ∧ ∃ r r', stream = header r r' f ++ f.payload ++ rest := by
  simp only [readFrame, checks_ok, mapError_eq_ok, requireNone_eq_ok, readFull_eq_ok,
    Prod.mk.injEq] at h
  obtain ⟨b, ⟨hb, t, rfl⟩, hmagic, hversion, htype, hstream, hmax, hshape, payload, ⟨hp, u, ht⟩,
    rfl, rfl⟩ := h
  rw [drop_left' hb] at ht
  subst ht
  have hlength := hp.le.trans hmax
  have hlt (offset width : ℕ) : fromBigEndian (bytesAt b offset width) < 256 ^ width :=
    (fromBigEndian_lt _).trans_le (Nat.pow_le_pow_right (by decide) (length_take_le _ _))
  obtain ⟨r, r', hheader⟩ := (eq_header_iff
    (f := ⟨.ofCode _, .ofNat _, .ofNat _, .ofNat _, payload⟩) hb
    (hlength.trans_lt codecMaxPayload_lt)).mpr ⟨hmagic, hversion, (FrameType.code_ofCode _).symm,
      (UInt16.toNat_ofNat_of_lt (hlt 6 2)).symm, (UInt32.toNat_ofNat_of_lt (hlt 8 4)).symm,
      (UInt16.toNat_ofNat_of_lt (hlt 12 2)).symm, hp.symm⟩
  refine ⟨⟨htype, hstream, hlength, hp ▸ hshape⟩, r, r', ?_⟩
  rw [← hheader, drop_left' hb, drop_left' hp, append_assoc]

/-- **What `ReadFrame` accepts**: a frame, behind a header of its fields with any two bytes in the
reserved place. -/
theorem readFrame_iff : readFrame maxPayload stream = .ok (f, rest) ↔ Readable maxPayload f ∧
    ∃ r r', stream = header r r' f ++ f.payload ++ rest := by
  refine ⟨header_of_readFrame, ?_⟩
  rintro ⟨h, r, r', rfl⟩
  exact readFrame_header h r r' rest

lemma readable_of_check (h : writeFrameCheck (codecMaxPayload maxPayload) f = none) :
    Readable maxPayload f := by
  unfold writeFrameCheck at h
  split at h
  · cases h
  split at h
  · cases h
  rename_i htype hlength
  rw [not_lt] at hlength
  have hmod : f.payload.length % 2 ^ 32 = f.payload.length :=
    Nat.mod_eq_of_lt (hlength.trans_lt codecMaxPayload_lt)
  rw [hmod] at h
  split at h
  · cases h
  rename_i hshape
  split_ifs at h with hstream
  refine ⟨by simpa using htype, ?_, hlength, hshape⟩
  tauto

lemma exists_writeFrames {fs : List Frame}
    (h : ∀ f ∈ fs, writeFrameCheck (codecMaxPayload maxPayload) f = none) :
    ∃ bytes, writeFrames maxPayload fs = .ok bytes ∧
      ∀ rest, readFrames maxPayload fs.length (bytes ++ rest) = .ok (fs, rest) := by
  induction fs with
  | nil => exact ⟨[], rfl, fun _ => rfl⟩
  | cons f fs ih =>
    obtain ⟨hf, hfs⟩ := forall_mem_cons.mp h
    obtain ⟨bytes, hwrite, hread⟩ := ih hfs
    refine ⟨header 0 0 f ++ f.payload ++ bytes, ?_, fun rest => ?_⟩
    · rw [writeFrames, writeFrame, hf, hwrite]
      rfl
    · rw [append_assoc, length_cons, readFrames, readFrame_header (readable_of_check hf), ok_bind]
      show (readFrames _ _ _ >>= _) = _
      rw [hread]
      rfl

end Codec

end WeaverSSH.SessionMux
