import WeaverSSH.Evidence.Statement
import WeaverSSH.Framework.JsonRoundTrip

/-!
# What is hashed of leaves and statements

The texts that are hashed for a leaf and for a statement determine them, as far as JSON does: a
statement with no bytes outside of characters is determined by its message
(`eq_of_message_eq`).
-/

namespace WeaverSSH.Evidence

open Statement

lemma Leaf.fits (d : ℕ) (l : Leaf) : Json.Fits (d + 1) l.json := by
  refine .obj fun m hm => ?_
  simp only [List.mem_cons, List.not_mem_nil, or_false] at hm
  rcases hm with rfl | rfl | rfl | rfl | rfl
  any_goals exact .str _
  exact .int _

/-- A statement with no bytes outside of characters, as one that was read from JSON is. -/
structure Statement.Legible (s : Statement) : Prop where
  version : validUTF8 s.version = true
  streamID : validUTF8 s.streamID = true
  previousSHA256 : validUTF8 s.previousSHA256 = true
  merkleRootSHA256 : validUTF8 s.merkleRootSHA256 = true
  signerKeyID : validUTF8 s.signerKeyID = true
  nonce : validUTF8 s.nonce = true

lemma Statement.fits (d : ℕ) (s : Statement) : Json.Fits (d + 1) s.json :=
  .obj (by simp [or_imp, forall_and, Json.optional])

lemma Statement.eq_of_scrub_json {s t : Statement} (hs : s.Legible) (ht : t.Legible)
    (h : s.json.scrub = t.json.scrub) : s = t := by
  have hname (v : Text) (rest : List (Text × Json)) :
      ∀ m ∈ ((text "merkle_root_sha256", Json.str v) :: rest).head?,
        m.1 ≠ text "previous_sha256" := by
    intro m hm
    obtain rfl := Option.some.inj hm
    show text "merkle_root_sha256" ≠ text "previous_sha256"
    decide
  simp only [json, Json.scrub, Json.scrubMembers_append, Json.scrubMembers,
    Json.scrubMembers_optional, Json.scrub_int, scrub_text] at h
  obtain ⟨hhead, htail⟩ := List.append_inj (Json.obj.inj h) rfl
  obtain ⟨hprevious, htail⟩ := Json.optional_append_inj htail (hname _ _) (hname _ _)
  simp only [List.cons.injEq, Prod.mk.injEq, Json.str.injEq, Json.int_inj, Nat.cast_inj, true_and,
    and_true] at hhead htail
  obtain ⟨hversion, hstream, hsequence⟩ := hhead
  obtain ⟨hroot, hcount, hissued, hsigner, hnonce⟩ := htail
  rw [scrub_of_valid hs.version, scrub_of_valid ht.version] at hversion
  rw [scrub_of_valid hs.streamID, scrub_of_valid ht.streamID] at hstream
  rw [scrub_of_valid hs.previousSHA256, scrub_of_valid ht.previousSHA256] at hprevious
  rw [scrub_of_valid hs.merkleRootSHA256, scrub_of_valid ht.merkleRootSHA256] at hroot
  rw [scrub_of_valid hs.signerKeyID, scrub_of_valid ht.signerKeyID] at hsigner
  rw [scrub_of_valid hs.nonce, scrub_of_valid ht.nonce] at hnonce
  cases s
  cases t
  simp only [mk.injEq]
  exact ⟨hversion, hstream, UInt64.toNat_inj.mp hsequence, hprevious, hroot, hcount, hissued,
    hsigner, hnonce⟩

lemma Statement.eq_of_message_eq {s t : Statement} (hs : s.Legible) (ht : t.Legible)
    (h : s.message = t.message) : s = t := by
  unfold message at h
  rw [List.append_cancel_left_eq] at h
  exact eq_of_scrub_json hs ht (Json.scrub_eq_of_marshal_eq (s.fits _) (t.fits _) h)

section

variable [Unicode] [SHA256]

def Leaf.digest (l : Leaf) : List UInt8 := SHA256.sum l.message

lemma hashLeaf_eq_ok {l : Leaf} {hash : List UInt8} :
    hashLeaf l = .ok hash ↔ l.validate = .ok () ∧ l.digest = hash := by
  unfold hashLeaf Leaf.digest
  rw [bind_eq_ok]
  exact ⟨fun ⟨_, hvalid, hhash⟩ => ⟨hvalid, pure_eq_ok.mp hhash⟩,
    fun ⟨hvalid, hhash⟩ => ⟨(), hvalid, pure_eq_ok.mpr hhash⟩⟩

lemma Statement.sha256_eq_ok {s : Statement} {digest : Text} :
    s.sha256 = .ok digest ↔ s.validate = .ok () ∧ SHA256.hex s.message = digest := by
  unfold sha256
  rw [bind_eq_ok]
  exact ⟨fun ⟨_, hvalid, hhex⟩ => ⟨hvalid, pure_eq_ok.mp hhex⟩,
    fun ⟨hvalid, hhex⟩ => ⟨(), hvalid, pure_eq_ok.mpr hhex⟩⟩

end

end WeaverSSH.Evidence
