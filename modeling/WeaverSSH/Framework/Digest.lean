import WeaverSSH.Framework.Text

/-!
# Hexadecimal text and digests

`SHA256` is the digest the program prints: sixty-four lower-case hexadecimal digits. That two of the
texts a result is about have different digests is a hypothesis of that result (`CollisionFree`).
-/

namespace WeaverSSH

open Rune

def Rune.isLowerHex : Rune → Bool
  | .char c => ('0' ≤ c && c ≤ '9') || ('a' ≤ c && c ≤ 'f')
  | .raw _ => false

def Rune.isHex : Rune → Bool
  | .char c => ('0' ≤ c && c ≤ '9') || ('a' ≤ c && c ≤ 'f') || ('A' ≤ c && c ≤ 'F')
  | .raw _ => false

/-- `hex.DecodeString` accepts pairs of hexadecimal digits. -/
def hexDecodes (t : Text) : Bool := t.all isHex && t.length % 2 == 0

/-- The digest of some bytes, in hexadecimal. -/
class SHA256 where
  hex : List UInt8 → Text
  length_hex : ∀ m, (hex m).length = 64
  lowerHex_hex : ∀ m, ∀ r ∈ hex m, r.isLowerHex = true

/-- No two of some messages have the same digest. -/
def CollisionFree [SHA256] (messages : Set (List UInt8)) : Prop := Set.InjOn SHA256.hex messages

variable {r : Rune}

lemma Rune.isHex_of_isLowerHex (h : r.isLowerHex = true) : r.isHex = true := by
  cases r with
  | char c =>
    simp only [isLowerHex, isHex, Bool.or_eq_true] at h ⊢
    exact .inl h
  | raw b => exact h

lemma Rune.toNat_of_isLowerHex (h : r.isLowerHex = true) :
    ∃ c : Char, r = .char c ∧ (48 ≤ c.toNat ∧ c.toNat ≤ 57 ∨ 97 ≤ c.toNat ∧ c.toNat ≤ 102) := by
  cases r with
  | char c =>
    refine ⟨c, rfl, ?_⟩
    simpa [isLowerHex, Char.le_def, UInt32.le_iff_toNat_le] using h
  | raw b => cases h

lemma Rune.isSpace_of_isLowerHex (h : r.isLowerHex = true) : r.isSpace = false := by
  obtain ⟨c, rfl, hc⟩ := toNat_of_isLowerHex h
  simp only [isSpace, WeaverSSH.isSpace, Bool.or_eq_false_iff, Bool.and_eq_false_iff,
    decide_eq_false_iff_not, beq_eq_false_iff_ne]
  omega

lemma Rune.toLower_of_isLowerHex [Unicode] (h : r.isLowerHex = true) : r.toLower = r := by
  obtain ⟨c, rfl, hc⟩ := toNat_of_isLowerHex h
  have hlow : Unicode.lower c = c := by
    rw [Unicode.lower_ascii c (by omega)]
    apply Char.toNat_inj.mp
    rw [toNat_toLower]
    split_ifs <;> omega
  exact congrArg char hlow

variable {t : Text}

lemma toLower_of_lowerHex [Unicode] (h : ∀ r ∈ t, r.isLowerHex = true) : toLower t = t := by
  unfold toLower
  conv_rhs => rw [← List.map_id t]
  exact List.map_congr_left fun r hr => toLower_of_isLowerHex (h r hr)

lemma len_of_lowerHex (h : ∀ r ∈ t, r.isLowerHex = true) : len t = t.length := by
  refine len_of_ascii fun r hr => ?_
  obtain ⟨c, rfl, hc⟩ := toNat_of_isLowerHex (h r hr)
  exact ⟨c, rfl, by omega⟩

lemma validUTF8_of_lowerHex (h : ∀ r ∈ t, r.isLowerHex = true) : validUTF8 t = true := by
  rw [validUTF8, List.all_eq_true]
  intro r hr
  obtain ⟨c, rfl, -⟩ := toNat_of_isLowerHex (h r hr)
  rfl

lemma SHA256.normal_hex [Unicode] [SHA256] (m : List UInt8) :
    toLower (trimSpace (SHA256.hex m)) = SHA256.hex m := by
  have hhex := SHA256.lowerHex_hex m
  rw [trimSpace_of_forall fun r hr => isSpace_of_isLowerHex (hhex r hr), toLower_of_lowerHex hhex]

lemma validUTF8_of_hexDecodes (h : hexDecodes t = true) : validUTF8 t = true := by
  simp only [hexDecodes, Bool.and_eq_true, List.all_eq_true] at h
  rw [validUTF8, List.all_eq_true]
  intro r hr
  cases r with
  | char c => rfl
  | raw b => cases h.1 _ hr

lemma SHA256.valid_hex [SHA256] (m : List UInt8) : validUTF8 (SHA256.hex m) = true :=
  validUTF8_of_lowerHex (SHA256.lowerHex_hex m)

end WeaverSSH
