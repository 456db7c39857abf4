import WeaverSSH.Framework.Digest

/-!
# Bytes in hexadecimal

`toHex` writes bytes as pairs of lower-case digits and `unhex` reads pairs of digits of either case.
The bytes of a digest are written as they are printed (`toHex_sum`).
-/

namespace WeaverSSH

open List Rune

/-- What a hexadecimal digit stands for. -/
def Rune.nibble : Rune → ℕ
  | .char c => if c ≤ '9' then c.toNat - 48 else if c ≤ 'F' then c.toNat - 55 else c.toNat - 87
  | .raw _ => 0

/-- The bytes that pairs of digits stand for. -/
def unhex : Text → List UInt8
  | high :: low :: rest => UInt8.ofNat (16 * high.nibble + low.nibble) :: unhex rest
  | _ => []

/-- `hex.DecodeString`. -/
def hexDecode (t : Text) : Option (List UInt8) := if hexDecodes t then some (unhex t) else none

def lowerHexDigit (n : ℕ) : Rune := .char (Nat.digitChar n)

/-- `hex.EncodeToString`. -/
def toHex (b : List UInt8) : Text :=
  b.flatMap fun byte => [lowerHexDigit (byte.toNat / 16), lowerHexDigit (byte.toNat % 16)]

def Rune.lowerASCII : Rune → Rune
  | .char c => .char c.toLower
  | .raw b => .raw b

/-- `strings.EqualFold` with hexadecimal digits on one side: no character but the two cases of a
letter folds to one of them. -/
def hexEqualFold (s t : Text) : Bool := s.map lowerASCII = t.map lowerASCII

lemma nibble_of_isLowerHex {r : Rune} (h : r.isLowerHex = true) :
    r.nibble < 16 ∧ lowerHexDigit r.nibble = r := by
  obtain ⟨c, rfl, hc⟩ := toNat_of_isLowerHex h
  have hc' : c = Char.ofNat c.toNat := (Char.ofNat_toNat c).symm
  rw [hc']
  generalize c.toNat = n at hc
  rcases hc with ⟨hlo, hhi⟩ | ⟨hlo, hhi⟩
  · interval_cases n <;> decide
  · interval_cases n <;> decide

lemma toHex_unhex {t : Text} (h : ∀ r ∈ t, r.isLowerHex = true) (heven : t.length % 2 = 0) :
    toHex (unhex t) = t := by
  induction t using unhex.induct with
  | case1 high low rest ih =>
    obtain ⟨hhigh, hhigh'⟩ := nibble_of_isLowerHex (h high (by simp))
    obtain ⟨hlow, hlow'⟩ := nibble_of_isLowerHex (h low (by simp))
    have hbyte : (UInt8.ofNat (16 * high.nibble + low.nibble)).toNat =
        16 * high.nibble + low.nibble := by
      rw [UInt8.toNat_ofNat']
      omega
    have hrest := ih (fun r hr => h r (by simp [hr]))
      (by rw [length_cons, length_cons] at heven; omega)
    rw [toHex] at hrest ⊢
    rw [unhex, flatMap_cons, hrest, hbyte,
      show (16 * high.nibble + low.nibble) / 16 = high.nibble by omega,
      show (16 * high.nibble + low.nibble) % 16 = low.nibble by omega, hhigh', hlow']
    rfl
  | case2 t hpair =>
    cases t with
    | nil => rfl
    | cons r rest =>
      cases rest with
      | nil => simp at heven
      | cons low rest => exact absurd rfl (hpair r low rest)

lemma length_unhex (t : Text) : (unhex t).length = t.length / 2 := by
  induction t using unhex.induct with
  | case1 high low rest ih =>
    rw [unhex, length_cons, ih, length_cons, length_cons]
    omega
  | case2 t hpair =>
    cases t with
    | nil => rfl
    | cons r rest =>
      cases rest with
      | nil => simp [unhex]
      | cons low rest => exact absurd rfl (hpair r low rest)

lemma isLowerHex_lowerHexDigit {n : ℕ} (hn : n < 16) : (lowerHexDigit n).isLowerHex = true := by
  interval_cases n <;> decide

lemma nibble_lowerHexDigit {n : ℕ} (hn : n < 16) : (lowerHexDigit n).nibble = n := by
  interval_cases n <;> decide

lemma lowerHex_toHex (b : List UInt8) : ∀ r ∈ toHex b, r.isLowerHex = true := by
  intro r hr
  obtain ⟨byte, -, hr⟩ := mem_flatMap.mp hr
  have hbyte := byte.toNat_lt
  rcases mem_pair.mp hr with rfl | rfl
  · exact isLowerHex_lowerHexDigit (by omega)
  · exact isLowerHex_lowerHexDigit (by omega)

lemma unhex_toHex (b : List UInt8) : unhex (toHex b) = b := by
  induction b with
  | nil => rfl
  | cons byte rest ih =>
    have hbyte := byte.toNat_lt
    have hvalue : 16 * (byte.toNat / 16) + byte.toNat % 16 = byte.toNat := Nat.div_add_mod _ _
    calc unhex (toHex (byte :: rest))
        = UInt8.ofNat (16 * (lowerHexDigit (byte.toNat / 16)).nibble +
            (lowerHexDigit (byte.toNat % 16)).nibble) :: unhex (toHex rest) := rfl
      _ = byte :: rest := by
        rw [nibble_lowerHexDigit (by omega), nibble_lowerHexDigit (by omega), hvalue,
          UInt8.ofNat_toNat, ih]

lemma toHex_injective : Function.Injective toHex := Function.LeftInverse.injective unhex_toHex

lemma hexDecode_eq_some {t : Text} {b : List UInt8} :
    hexDecode t = some b ↔ hexDecodes t = true ∧ unhex t = b := by
  unfold hexDecode
  cases hexDecodes t <;> simp

lemma isLowerHex_of_isHex {r : Rune} (h : r.isHex = true) (hupper : r ∉ text "ABCDEF") :
    r.isLowerHex = true := by
  cases r with
  | raw b => exact h
  | char c =>
    simp only [isHex, isLowerHex, Bool.or_eq_true, Bool.and_eq_true, decide_eq_true_eq] at h ⊢
    refine h.resolve_right ?_
    rintro ⟨hlo, hhi⟩
    have hc : c = Char.ofNat c.toNat := (Char.ofNat_toNat c).symm
    rw [Char.le_def, UInt32.le_iff_toNat_le] at hlo hhi
    change 65 ≤ c.toNat at hlo
    change c.toNat ≤ 70 at hhi
    rw [hc] at hupper
    generalize c.toNat = n at *
    interval_cases n <;> exact hupper (by decide)

/-- Without upper-case digits a text is what its bytes are written as. -/
lemma hexDecode_iff_toHex {t : Text} {b : List UInt8} (h : ∀ r ∈ t, r ∉ text "ABCDEF") :
    hexDecode t = some b ↔ toHex b = t := by
  rw [hexDecode_eq_some]
  constructor
  · rintro ⟨hdecodes, rfl⟩
    simp only [hexDecodes, Bool.and_eq_true, all_eq_true, beq_iff_eq] at hdecodes
    exact toHex_unhex (fun r hr => isLowerHex_of_isHex (hdecodes.1 r hr) (h r hr)) hdecodes.2
  · rintro rfl
    have hall : (toHex b).all isHex = true :=
      all_eq_true.mpr fun r hr => isHex_of_isLowerHex (lowerHex_toHex b r hr)
    have heven : (toHex b).length % 2 = 0 := by simp [toHex, length_flatMap]
    exact ⟨by rw [hexDecodes, hall, heven]; rfl, unhex_toHex b⟩

lemma eq_of_hexEqualFold {s t : Text} (hs : ∀ r ∈ s, r.isLowerHex = true)
    (ht : ∀ r ∈ t, r.isLowerHex = true) (h : hexEqualFold s t = true) : s = t := by
  have hlower {t : Text} (ht : ∀ r ∈ t, r.isLowerHex = true) : t.map lowerASCII = t := by
    conv_rhs => rw [← map_id t]
    refine map_congr_left fun r hr => ?_
    obtain ⟨c, rfl, hc⟩ := toNat_of_isLowerHex (ht r hr)
    refine congrArg char (Char.toNat_inj.mp ?_)
    rw [toNat_toLower]
    split_ifs <;> omega
  have hmap : s.map lowerASCII = t.map lowerASCII := of_decide_eq_true h
  rwa [hlower hs, hlower ht] at hmap

lemma hexEqualFold_refl (t : Text) : hexEqualFold t t = true := decide_eq_true rfl

namespace SHA256

variable [SHA256]

/-- `sha256.Sum256`. -/
def sum (m : List UInt8) : List UInt8 := unhex (hex m)

lemma length_sum (m : List UInt8) : (sum m).length = 32 := by
  rw [sum, length_unhex, length_hex]

lemma toHex_sum (m : List UInt8) : toHex (sum m) = hex m :=
  toHex_unhex (lowerHex_hex m) (by rw [length_hex])

lemma hex_eq_of_sum_eq {m m' : List UInt8} (h : sum m = sum m') : hex m = hex m' := by
  rw [← toHex_sum, ← toHex_sum, h]

end SHA256

end WeaverSSH
