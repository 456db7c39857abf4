import Mathlib.Data.List.DropRight
import Mathlib.Tactic

/-!
# Text as the program has it

A Go string is a sequence of bytes that `range`, `strings` and `encoding/json` read as UTF-8. `Text`
is that reading: the characters of the string, and between them the bytes that are part of none. Two
strings are equal exactly when their readings are.

Blanks (`isSpace`) and control characters (`isControl`) are listed. `Unicode` is what is relied on
about the table of lower case; `asciiCase` changes nothing outside ASCII, for evaluating examples.
-/

namespace WeaverSSH

open List

/-- What `range` finds in a string: a character, or a byte that is part of none. -/
inductive Rune where
  | char (c : Char)
  | raw (b : UInt8)
deriving DecidableEq, Repr

/-- A string, as it is read. -/
abbrev Text := List Rune

/-- Every test whether a text is in a list is decided with it. -/
instance instLawfulBEqText : LawfulBEq Text := inferInstance

/-- A constant of the program's text. They are in ASCII, a character for each byte. -/
def text (s : String) : Text := s.toByteArray.data.toList.map fun b => .char (Char.ofNat b.toNat)

instance : Coe String Text := ⟨text⟩

def Rune.bytes : Rune → List UInt8
  | .char c => String.utf8EncodeChar c
  | .raw b => [b]

def bytes (t : Text) : List UInt8 := t.flatMap Rune.bytes

/-- `len` counts bytes. -/
def len (t : Text) : ℕ := (bytes t).length

/-- The character some bytes begin with, if they begin with one. -/
def decodeRune (b : List UInt8) : Option Char := b.toByteArray.utf8DecodeChar? 0

/-- The reading of some bytes, but for the first `k`. -/
def ofBytesFrom : ℕ → List UInt8 → Text
  | _, [] => []
  | k + 1, _ :: rest => ofBytesFrom k rest
  | 0, b :: rest =>
    match decodeRune (b :: rest) with
    | some c => .char c :: ofBytesFrom (c.utf8Size - 1) rest
    | none => .raw b :: ofBytesFrom 0 rest

def ofBytes (b : List UInt8) : Text := ofBytesFrom 0 b

/-- A string that is UTF-8 throughout. -/
def Rune.valid : Rune → Bool
  | .char _ => true
  | .raw _ => false

def validUTF8 (t : Text) : Bool := t.all Rune.valid

/-- The replacement character for a byte that is part of no character. -/
def Rune.scrub : Rune → Rune
  | .char c => .char c
  | .raw _ => .char '�'

/-- The string with the replacement character for every byte that is part of no character. -/
def scrub (t : Text) : Text := t.map Rune.scrub

def isSpace (c : Char) : Bool :=
  let n := c.toNat
  (9 ≤ n && n ≤ 13) || n == 0x20 || n == 0x85 || n == 0xA0 || n == 0x1680 ||
    (0x2000 ≤ n && n ≤ 0x200A) || n == 0x2028 || n == 0x2029 || n == 0x202F || n == 0x205F ||
    n == 0x3000

def isControl (c : Char) : Bool := c.toNat < 0x20 || (0x7F ≤ c.toNat && c.toNat < 0xA0)

def Rune.isSpace : Rune → Bool
  | .char c => WeaverSSH.isSpace c
  | .raw _ => false

def Rune.isControl : Rune → Bool
  | .char c => WeaverSSH.isControl c
  | .raw _ => false

def trimSpace (t : Text) : Text := (t.dropWhile Rune.isSpace).rdropWhile Rune.isSpace

def hasPrefix (t p : Text) : Bool := p.isPrefixOf t

def hasSuffix (t p : Text) : Bool := p.isSuffixOf t

/-- `strings.TrimPrefix`: the string itself where it has not the prefix. -/
def trimPrefix (t p : Text) : Text := if hasPrefix t p then t.drop p.length else t

/-- `strings.Split` at one character: the empty string has one part. -/
def split (t : Text) (c : Char) : List Text := t.splitOn (.char c)

/-- What is relied on of the standard's table of lower cases. -/
class Unicode where
  /-- `unicode.ToLower`. -/
  lower : Char → Char
  lower_ascii : ∀ c, c.toNat < 128 → lower c = c.toLower
  lower_lower : ∀ c, lower (lower c) = lower c
  isSpace_lower : ∀ c, isSpace (lower c) = isSpace c
  lower_replacement : lower '�' = '�'

/-- `strings.ToLower`: a byte that is part of no character becomes the replacement character. -/
def Rune.toLower [Unicode] : Rune → Rune
  | .char c => .char (Unicode.lower c)
  | .raw _ => .char '�'

def toLower [Unicode] (t : Text) : Text := t.map Rune.toLower

/-! ## Lengths -/

lemma len_append (t u : Text) : len (t ++ u) = len t + len u := by
  unfold len bytes
  rw [flatMap_append, length_append]

lemma len_cons (r : Rune) (t : Text) : len (r :: t) = r.bytes.length + len t := by
  unfold len bytes
  rw [flatMap_cons, length_append]

variable {t : Text}

lemma len_of_ascii (h : ∀ r ∈ t, ∃ c : Char, r = .char c ∧ c.toNat < 128) : len t = t.length := by
  induction t with
  | nil => rfl
  | cons r t ih =>
    obtain ⟨c, rfl, hc⟩ := h r mem_cons_self
    have hle : c.val ≤ 127 := by
      rw [UInt32.le_iff_toNat_le, Char.toNat_val]
      exact Nat.lt_succ_iff.mp hc
    have hone : (Rune.char c).bytes.length = 1 := by
      simpa [Rune.bytes] using Char.utf8Size_eq_one_iff.mpr hle
    rw [len_cons, hone, ih fun r hr => h r (mem_cons_of_mem _ hr), length_cons, Nat.add_comm]

/-! ## Strings that are UTF-8 -/

@[simp]
lemma Rune.valid_scrub (r : Rune) : r.scrub.valid = true := by
  cases r <;> rfl

lemma validUTF8_scrub (t : Text) : validUTF8 (scrub t) = true := by
  simp [validUTF8, scrub]

lemma scrub_of_valid (h : validUTF8 t = true) : scrub t = t := by
  unfold scrub
  conv_rhs => rw [← map_id t]
  refine map_congr_left fun r hr => ?_
  cases r with
  | char c => rfl
  | raw b => cases all_eq_true.mp h _ hr

lemma scrub_eq_self_iff : scrub t = t ↔ validUTF8 t = true :=
  ⟨fun h => h ▸ validUTF8_scrub t, scrub_of_valid⟩

@[simp]
lemma scrub_text (s : String) : scrub (text s) = text s := by
  apply scrub_of_valid
  rw [validUTF8, text, all_map]
  exact all_eq_true.mpr fun _ _ => rfl

@[simp]
lemma scrub_eq_nil : scrub t = [] ↔ t = [] := map_eq_nil_iff

lemma validUTF8_append {u : Text} :
    validUTF8 (t ++ u) = true ↔ validUTF8 t = true ∧ validUTF8 u = true := by
  simp [validUTF8]

/-! ## Trimming -/

lemma dropWhile_rdropWhile {α : Type*} {p : α → Bool} {l : List α}
    (h : ∀ a ∈ l.head?, p a = false) : (l.rdropWhile p).dropWhile p = l.rdropWhile p := by
  rcases hl : l.rdropWhile p with _ | ⟨a, r⟩
  · rfl
  · obtain ⟨s, rfl⟩ : a :: r <+: l := hl ▸ rdropWhile_prefix p l
    have ha : p a = false := h a (by simp)
    simp [ha]

@[simp]
lemma trimSpace_trimSpace (t : Text) : trimSpace (trimSpace t) = trimSpace t := by
  have hhead : ∀ r ∈ (t.dropWhile Rune.isSpace).head?, r.isSpace = false := by
    intro r hr
    have hnot := List.head?_dropWhile_not Rune.isSpace t
    rwa [Option.mem_def.mp hr] at hnot
  unfold trimSpace
  rw [dropWhile_rdropWhile hhead]
  exact rdropWhile_idempotent _ _

lemma trimSpace_of_forall (h : ∀ r ∈ t, r.isSpace = false) : trimSpace t = t := by
  have hstart : t.dropWhile Rune.isSpace = t := by
    cases t with
    | nil => rfl
    | cons r t => simp [h r mem_cons_self]
  rw [trimSpace, hstart, rdropWhile_eq_self_iff]
  intro hne
  simp [h _ (getLast_mem hne)]

lemma isSpace_or_mem_trimSpace {r : Rune} (h : r ∈ t) : r.isSpace = true ∨ r ∈ trimSpace t := by
  have hleft {l : Text} (hmem : r ∈ l) : r.isSpace = true ∨ r ∈ l.dropWhile Rune.isSpace := by
    rw [← takeWhile_append_dropWhile (p := Rune.isSpace) (l := l), mem_append] at hmem
    exact hmem.imp_left mem_takeWhile_imp
  rcases hleft h with hspace | hmem
  · exact .inl hspace
  · rw [trimSpace, List.rdropWhile, mem_reverse]
    exact hleft (mem_reverse.mpr hmem)

@[simp]
lemma Rune.isSpace_scrub (r : Rune) : r.scrub.isSpace = r.isSpace := by
  cases r <;> rfl

lemma trimSpace_map {f : Rune → Rune} (hf : ∀ r, (f r).isSpace = r.isSpace) (t : Text) :
    trimSpace (t.map f) = (trimSpace t).map f := by
  have hspace : Rune.isSpace ∘ f = Rune.isSpace := funext hf
  simp only [trimSpace, List.rdropWhile, dropWhile_map, ← map_reverse, hspace]

lemma trimSpace_scrub (t : Text) : trimSpace (scrub t) = scrub (trimSpace t) :=
  trimSpace_map Rune.isSpace_scrub t

lemma trimSpace_sublist (t : Text) : (trimSpace t).Sublist t :=
  (IsPrefix.sublist <| rdropWhile_prefix _ _).trans (dropWhile_sublist _)

lemma validUTF8_trimSpace (h : validUTF8 t = true) : validUTF8 (trimSpace t) = true := by
  rw [validUTF8, all_eq_true] at h ⊢
  exact fun r hr => h r ((trimSpace_sublist t).subset hr)

section Case

variable [Unicode]

@[simp]
lemma Rune.isSpace_toLower (r : Rune) : r.toLower.isSpace = r.isSpace := by
  cases r with
  | char c => exact Unicode.isSpace_lower c
  | raw b => rfl

@[simp]
lemma Rune.toLower_toLower (r : Rune) : r.toLower.toLower = r.toLower := by
  cases r with
  | char c => exact congrArg Rune.char (Unicode.lower_lower c)
  | raw b => exact congrArg Rune.char Unicode.lower_replacement

@[simp]
lemma toLower_toLower (t : Text) : toLower (toLower t) = toLower t := by
  simp [toLower]

@[simp]
lemma trimSpace_toLower (t : Text) : trimSpace (toLower t) = toLower (trimSpace t) :=
  trimSpace_map Rune.isSpace_toLower t

end Case

lemma toNat_toLower (c : Char) :
    c.toLower.toNat = if 65 ≤ c.toNat ∧ c.toNat ≤ 90 then c.toNat + 32 else c.toNat := by
  have hupper : c.val ≥ 'A'.val ∧ c.val ≤ 'Z'.val ↔ 65 ≤ c.toNat ∧ c.toNat ≤ 90 := by
    simp [UInt32.le_iff_toNat_le]
  unfold Char.toLower
  split
  · rename_i h
    obtain ⟨hlo, hhi⟩ := hupper.mp h
    change (c.val + 32).toNat = _
    rw [if_pos ⟨hlo, hhi⟩, UInt32.toNat_add, Char.toNat_val]
    change (c.toNat + 32) % 2 ^ 32 = c.toNat + 32
    omega
  · rename_i h
    rw [if_neg (mt hupper.mpr h)]

/-- The table that is the usual one on ASCII and leaves everything else alone. -/
@[reducible] def asciiCase : Unicode where
  lower := Char.toLower
  lower_ascii _ _ := rfl
  lower_lower c := by
    apply Char.toNat_inj.mp
    rw [toNat_toLower, toNat_toLower]
    split_ifs <;> omega
  isSpace_lower c := by
    unfold isSpace
    rw [toNat_toLower]
    split
    · have hupper : 65 ≤ c.toNat ∧ c.toNat ≤ 90 := by assumption
      rw [Bool.eq_iff_iff]
      simp only [Bool.or_eq_true, Bool.and_eq_true, decide_eq_true_eq, beq_iff_eq]
      omega
    · rfl
  lower_replacement := by decide

end WeaverSSH
