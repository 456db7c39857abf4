import WeaverSSH.Framework.Base64
import WeaverSSH.Framework.JsonRoundTrip

/-!
# Fields of records in JSON, and how long they are

A field that is left out where it is empty (`omitempty`), bytes in Base64, and the number of bytes
that `json.Marshal` writes of an object (`size_obj`) and of bytes (`size_blob`).
-/

namespace WeaverSSH.Json

open Base64

/-! ## Fields -/

/-- A member that is left out where its field is empty. -/
def omitEmpty (empty : Prop) [Decidable empty] (name : String) (j : Json) : List (Text × Json) :=
  if empty then [] else [(text name, j)]

/-- A field of type `[]byte`. -/
def blob (b : List UInt8) : Json := .str (encodeStd b)

def readBlob : Json → Option (List UInt8)
  | .null => some []
  | .str value => decodeStd value
  | _ => none

/-- The texts of the errors with which the decoder refuses some bytes. -/
class DecodeErrors where
  message : List UInt8 → Text

/-- `decodeStrict`: one value with no unknown members, and nothing after it. -/
def decodeStrict [DecodeErrors] {α : Type} (member : α → Text → Json → Option α) (zero : α)
    (payload : List UInt8) : Except Text α :=
  ((parse (ofBytes payload)).bind (decode member zero)).elim
    (.error (DecodeErrors.message payload)) .ok

section omitEmpty

variable {empty : Prop} [Decidable empty] {name : String} {j : Json}

lemma scrubMembers_omitEmpty :
    scrubMembers (omitEmpty empty name j) = omitEmpty empty name j.scrub := by
  unfold omitEmpty
  split_ifs
  · rfl
  · simp only [scrubMembers, scrub_text]

end omitEmpty

lemma scrub_blob (b : List UInt8) : (blob b).scrub = blob b := by
  rw [blob, scrub, scrub_of_valid]
  rw [validUTF8, List.all_eq_true]
  intro r hr
  obtain ⟨c, -, rfl⟩ := mem_encodeStd hr
  rfl

lemma readBlob_blob (b : List UInt8) : readBlob (blob b) = some b := decodeStd_encodeStd b

/-! ## Sizes -/

def size (j : Json) : ℕ := (marshal j).length

lemma size_eq_len (j : Json) : size j = len (print j) := rfl

/-- A member of an object: its name, a colon and its value. -/
def memberSize (m : Text × Json) : ℕ := len (quote m.1) + 1 + size m.2

lemma len_printMembers (ms : List (Text × Json)) :
    len (printMembers ms) = (ms.map fun m => 1 + memberSize m).sum := by
  induction ms with
  | nil => rfl
  | cons m ms ih =>
    rw [printMembers, len_cons, len_append, len_cons, len_append, ih, List.map_cons, List.sum_cons,
      memberSize, size_eq_len]
    show 1 + (len (quote m.1) + (1 + (len (print m.2) + _))) = _
    omega

lemma size_obj (m : Text × Json) (ms : List (Text × Json)) :
    size (.obj (m :: ms)) = 2 + memberSize m + (ms.map fun m => 1 + memberSize m).sum := by
  rw [size_eq_len, print, len_cons, len_append, len_cons, len_append, len_append, len_printMembers,
    memberSize, size_eq_len]
  show 1 + (len (quote m.1) + (1 + (len (print m.2) + (_ + 1)))) = _
  omega

lemma size_blob (b : List UInt8) : size (blob b) = 2 + (b.length + 2) / 3 * 4 := by
  have hplain : ∀ r ∈ encodeStd b, escape r = [r] ∧ ∃ c : Char, r = .char c ∧ c.toNat < 128 := by
    intro r hr
    obtain ⟨c, hc, rfl⟩ := mem_encodeStd hr
    have hall : (('=' :: stdAlphabet).all fun c =>
        decide (escape (.char c) = [.char c] ∧ c.toNat < 128)) = true := by decide +kernel
    obtain ⟨hescape, hascii⟩ := of_decide_eq_true (List.all_eq_true.mp hall c hc)
    exact ⟨hescape, c, rfl, hascii⟩
  have hescaped : (encodeStd b).flatMap escape = encodeStd b := by
    generalize encodeStd b = t at hplain
    induction t with
    | nil => rfl
    | cons r t ih =>
      rw [List.flatMap_cons, (hplain r List.mem_cons_self).1,
        ih fun r hr => hplain r (List.mem_cons_of_mem _ hr), List.singleton_append]
  rw [size_eq_len, blob, print, quote, len_cons, len_append, hescaped,
    len_of_ascii fun r hr => (hplain r hr).2, length_encodeStd]
  show 1 + ((b.length + 2) / 3 * 4 + 1) = _
  omega

end WeaverSSH.Json
