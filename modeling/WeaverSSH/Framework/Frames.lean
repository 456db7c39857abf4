import WeaverSSH.Framework.Bytes

/-!
# Messages in frames

A message is written behind its length in four bytes, the highest first, unless it is empty or
longer than a limit, and read from a stream that begins with its frame (`readFrame_append`).
-/

namespace WeaverSSH

/-- `binary.BigEndian`, in some number of bytes. -/
def bigEndian (width n : ℕ) : List UInt8 := (littleEndian width n).reverse

def fromBigEndian (b : List UInt8) : ℕ := fromLittleEndian b.reverse

/-- Why there is no message. -/
inductive FrameErr where
  | eof
  | unexpectedEOF
  | invalidSize
deriving DecidableEq, Repr

/-- `io.ReadFull`: some number of bytes from a stream. -/
def readFull (n : ℕ) (stream : List UInt8) : Except FrameErr (List UInt8) :=
  if n ≤ stream.length then .ok (stream.take n)
  else if stream = [] then .error .eof
  else .error .unexpectedEOF

def writeFrame (limit : ℕ) (payload : List UInt8) : Except FrameErr (List UInt8) :=
  if payload = [] ∨ limit < payload.length then .error .invalidSize
  else .ok (bigEndian 4 payload.length ++ payload)

def readFrame (limit : ℕ) (stream : List UInt8) : Except FrameErr (List UInt8) := do
  let header ← readFull 4 stream
  let size := fromBigEndian header
  if size = 0 ∨ limit < size then .error .invalidSize
  else readFull size (stream.drop 4)

lemma readFull_append (a b : List UInt8) : readFull a.length (a ++ b) = .ok a := by
  rw [readFull, if_pos (by simp), List.take_left]

lemma length_bigEndian (width n : ℕ) : (bigEndian width n).length = width := by
  rw [bigEndian, List.length_reverse, length_littleEndian]

lemma fromBigEndian_bigEndian (width n : ℕ) :
    fromBigEndian (bigEndian width n) = n % 256 ^ width := by
  rw [fromBigEndian, bigEndian, List.reverse_reverse, fromLittleEndian_littleEndian]

lemma bigEndian_fromBigEndian (b : List UInt8) : bigEndian b.length (fromBigEndian b) = b := by
  have h := littleEndian_fromLittleEndian b.reverse
  rw [List.length_reverse] at h
  rw [bigEndian, fromBigEndian, h, List.reverse_reverse]

lemma fromBigEndian_lt (b : List UInt8) : fromBigEndian b < 256 ^ b.length := by
  have h := fromBigEndian_bigEndian b.length (fromBigEndian b)
  rw [bigEndian_fromBigEndian] at h
  exact h.trans_lt (Nat.mod_lt _ (by positivity))

lemma readFull_eq_ok {n : ℕ} {stream a : List UInt8} :
    readFull n stream = .ok a ↔ a.length = n ∧ ∃ rest, stream = a ++ rest := by
  constructor
  · intro h
    unfold readFull at h
    split_ifs at h with hle
    obtain rfl := Except.ok.inj h
    exact ⟨List.length_take_of_le hle, _, (List.take_append_drop n stream).symm⟩
  · rintro ⟨rfl, rest, rfl⟩
    exact readFull_append a rest

lemma writeFrame_eq_ok {limit : ℕ} {payload frame : List UInt8} :
    writeFrame limit payload = .ok frame ↔
      payload ≠ [] ∧ payload.length ≤ limit ∧ frame = bigEndian 4 payload.length ++ payload := by
  unfold writeFrame
  by_cases h : payload = [] ∨ limit < payload.length
  · rw [if_pos h]
    refine ⟨nofun, fun ⟨hne, hle, _⟩ => ?_⟩
    rcases h with h | h
    · exact absurd h hne
    · exact absurd hle (not_le.mpr h)
  · rw [if_neg h]
    rw [not_or, not_lt] at h
    exact ⟨fun heq => ⟨h.1, h.2, (Except.ok.inj heq).symm⟩, fun ⟨_, _, heq⟩ =>
      congrArg Except.ok heq.symm⟩

/-- **A frame is read back**, where the limit is that of a length in four bytes. -/
lemma readFrame_append {limit : ℕ} (hlimit : limit < 256 ^ 4) {payload frame : List UInt8}
    (h : writeFrame limit payload = .ok frame) (rest : List UInt8) :
    readFrame limit (frame ++ rest) = .ok payload := by
  obtain ⟨hne, hle, rfl⟩ := writeFrame_eq_ok.mp h
  have hheader : readFull 4 (bigEndian 4 payload.length ++ payload ++ rest) =
      .ok (bigEndian 4 payload.length) := by
    rw [List.append_assoc]
    have hread := readFull_append (bigEndian 4 payload.length) (payload ++ rest)
    rwa [length_bigEndian] at hread
  have hdrop : (bigEndian 4 payload.length ++ payload ++ rest).drop 4 = payload ++ rest := by
    rw [List.append_assoc]
    have hleft := @List.drop_left _ (bigEndian 4 payload.length) (payload ++ rest)
    rwa [length_bigEndian] at hleft
  have hsize : fromBigEndian (bigEndian 4 payload.length) = payload.length := by
    rw [fromBigEndian_bigEndian, Nat.mod_eq_of_lt (hle.trans_lt hlimit)]
  have hpositive : 0 < payload.length := List.length_pos_iff.mpr hne
  unfold readFrame
  rw [hheader]
  show (if fromBigEndian (bigEndian 4 payload.length) = 0 ∨
      limit < fromBigEndian (bigEndian 4 payload.length) then _ else _) = _
  rw [hsize, if_neg (by omega), hdrop, readFull_append]

end WeaverSSH
