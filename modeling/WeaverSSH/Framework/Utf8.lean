import WeaverSSH.Framework.Text

/-!
# The bytes of a string and their reading

Reading the bytes of a string that is UTF-8 throughout gives the string back (`ofBytes_bytes`). Any
string is determined by what is left of it when it is scrubbed and by its stray bytes, with their
places (`eq_of_scrub_eq`).
-/

namespace WeaverSSH

open List

lemma ofBytesFrom_skip (l rest : List UInt8) :
    ofBytesFrom l.length (l ++ rest) = ofBytesFrom 0 rest := by
  induction l with
  | nil => rfl
  | cons b l ih => exact ih

lemma decodeRune_utf8EncodeChar (c : Char) (rest : List UInt8) :
    decodeRune (String.utf8EncodeChar c ++ rest) = some c := by
  unfold decodeRune
  rw [toByteArray_append]
  exact ByteArray.utf8DecodeChar?_utf8EncodeChar_append

lemma ofBytesFrom_char (c : Char) (rest : List UInt8) :
    ofBytesFrom 0 (String.utf8EncodeChar c ++ rest) = .char c :: ofBytesFrom 0 rest := by
  have hlen : (String.utf8EncodeChar c).length = c.utf8Size := String.length_utf8EncodeChar c
  have hdecode := decodeRune_utf8EncodeChar c rest
  cases henc : String.utf8EncodeChar c with
  | nil =>
    rw [henc] at hlen
    have := c.utf8Size_pos
    simp at hlen
    omega
  | cons b bs =>
    rw [henc, cons_append] at hdecode
    rw [henc, length_cons] at hlen
    rw [cons_append, ofBytesFrom, hdecode]
    dsimp only
    rw [← hlen, Nat.add_sub_cancel, ofBytesFrom_skip]

variable {t : Text}

@[simp]
lemma ofBytes_bytes (h : validUTF8 t = true) : ofBytes (bytes t) = t := by
  induction t with
  | nil => rfl
  | cons r t ih =>
    simp only [validUTF8, all_cons, Bool.and_eq_true] at h
    cases r with
    | raw b => cases h.1
    | char c => exact (ofBytesFrom_char c (bytes t)).trans (congrArg _ (ih h.2))

lemma bytes_injective {u : Text} (ht : validUTF8 t = true) (hu : validUTF8 u = true)
    (h : bytes t = bytes u) : t = u := by
  rw [← ofBytes_bytes ht, h, ofBytes_bytes hu]

/-! ## Stray bytes -/

/-- The bytes of a string that are part of no character, each with its place. -/
def straysFrom : ℕ → Text → List (ℕ × UInt8)
  | _, [] => []
  | i, .raw b :: rest => (i, b) :: straysFrom (i + 1) rest
  | i, .char _ :: rest => straysFrom (i + 1) rest

def strays (t : Text) : List (ℕ × UInt8) := straysFrom 0 t

lemma le_of_mem_straysFrom {i : ℕ} {p : ℕ × UInt8} (h : p ∈ straysFrom i t) : i ≤ p.1 := by
  induction t generalizing i with
  | nil => cases h
  | cons r rest ih =>
    cases r with
    | char c => exact (Nat.le_succ i).trans (ih h)
    | raw b =>
      rcases mem_cons.mp h with rfl | h
      · exact le_rfl
      · exact (Nat.le_succ i).trans (ih h)

lemma eq_of_straysFrom {i : ℕ} {u : Text} (hscrub : scrub t = scrub u)
    (hstrays : straysFrom i t = straysFrom i u) : t = u := by
  induction t generalizing i u with
  | nil => exact (scrub_eq_nil.mp hscrub.symm).symm
  | cons r rest ih =>
    cases u with
    | nil => cases hscrub
    | cons r' rest' =>
      obtain ⟨hhead, hrest⟩ := cons.inj hscrub
      -- A stray byte here is at a place that no later one has.
      have hnot (b : UInt8) (t : Text) : (i, b) ∉ straysFrom (i + 1) t := fun hmem =>
        absurd (le_of_mem_straysFrom hmem) (Nat.not_succ_le_self i)
      cases r with
      | char c =>
        cases r' with
        | char c' =>
          rw [Rune.char.inj hhead, ih hrest hstrays]
        | raw b' =>
          exact absurd (hstrays ▸ mem_cons_self : (i, b') ∈ straysFrom (i + 1) rest) (hnot _ _)
      | raw b =>
        cases r' with
        | char c' =>
          exact absurd (hstrays ▸ mem_cons_self : (i, b) ∈ straysFrom (i + 1) rest') (hnot _ _)
        | raw b' =>
          obtain ⟨hbyte, hlater⟩ := cons.inj hstrays
          rw [(Prod.mk.inj hbyte).2, ih hrest hlater]

/-- **A string is its characters and its stray bytes.** -/
lemma eq_of_scrub_eq {u : Text} (hscrub : scrub t = scrub u) (hstrays : strays t = strays u) :
    t = u := eq_of_straysFrom hscrub hstrays

end WeaverSSH
