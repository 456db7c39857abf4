import Mathlib.Tactic

/-!
# Numbers in bytes

`littleEndian` writes a number in a given number of bytes, the lowest one first, and
`fromLittleEndian` reads one; `bytesAt` takes some bytes at an offset.
-/

namespace WeaverSSH

/-- `binary.LittleEndian.PutUint16`, `PutUint32` and `PutUint64`. -/
def littleEndian : ℕ → ℕ → List UInt8
  | 0, _ => []
  | width + 1, n => UInt8.ofNat (n % 256) :: littleEndian width (n / 256)

def fromLittleEndian (b : List UInt8) : ℕ := b.foldr (fun byte n => byte.toNat + 256 * n) 0

def bytesAt (b : List UInt8) (offset width : ℕ) : List UInt8 := (b.drop offset).take width

@[simp]
lemma length_littleEndian (width n : ℕ) : (littleEndian width n).length = width := by
  induction width generalizing n with
  | zero => rfl
  | succ width ih => rw [littleEndian, List.length_cons, ih]

lemma bytesAt_append_left (a b : List UInt8) : bytesAt (a ++ b) 0 a.length = a := by
  unfold bytesAt
  rw [List.drop_zero, List.take_left]

lemma fromLittleEndian_littleEndian (width n : ℕ) :
    fromLittleEndian (littleEndian width n) = n % 256 ^ width := by
  induction width generalizing n with
  | zero => rw [pow_zero, Nat.mod_one]; rfl
  | succ width ih =>
    have hbyte : (UInt8.ofNat (n % 256)).toNat = n % 256 := by
      rw [UInt8.toNat_ofNat']
      exact Nat.mod_mod_of_dvd n (dvd_refl 256)
    calc fromLittleEndian (littleEndian (width + 1) n)
        = (UInt8.ofNat (n % 256)).toNat + 256 * fromLittleEndian (littleEndian width (n / 256)) :=
          rfl
      _ = n % 256 + 256 * (n / 256 % 256 ^ width) := by rw [hbyte, ih]
      _ = n % 256 ^ (width + 1) := by rw [pow_succ', Nat.mod_mul]

lemma littleEndian_fromLittleEndian (b : List UInt8) :
    littleEndian b.length (fromLittleEndian b) = b := by
  induction b with
  | nil => rfl
  | cons byte b ih =>
    have hlt := byte.toNat_lt
    have hmod : (byte.toNat + 256 * fromLittleEndian b) % 256 = byte.toNat := by omega
    have hdiv : (byte.toNat + 256 * fromLittleEndian b) / 256 = fromLittleEndian b := by omega
    show UInt8.ofNat ((byte.toNat + 256 * fromLittleEndian b) % 256) ::
      littleEndian b.length ((byte.toNat + 256 * fromLittleEndian b) / 256) = _
    rw [hmod, hdiv, ih, UInt8.ofNat_toNat]

variable {b : List UInt8} {offset : ℕ}

lemma bytesAt_append_bytesAt {m next : ℕ} (h : offset + m = next) (n : ℕ) :
    bytesAt b offset m ++ bytesAt b next n = bytesAt b offset (m + n) := by
  rw [bytesAt, bytesAt, bytesAt, ← h, ← List.drop_drop, List.take_add]

lemma bytesAt_two (h : offset + 1 < b.length) :
    bytesAt b offset 2 = [b.getD offset 0, b.getD (offset + 1) 0] := by
  have hlt : offset < b.length := Nat.lt_of_succ_lt h
  rw [bytesAt, List.drop_eq_getElem_cons hlt, List.drop_eq_getElem_cons h,
    List.getD_eq_getElem?_getD, List.getD_eq_getElem?_getD, List.getElem?_eq_getElem hlt,
    List.getElem?_eq_getElem h]
  rfl

end WeaverSSH
