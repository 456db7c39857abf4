import WeaverSSH.Evidence.Anchor
import WeaverSSH.Evidence.Wire

/-!
# Heads and receipts in JSON

A head or a receipt that is written is read, where its texts are UTF-8.
-/

namespace WeaverSSH.Evidence

open Json

lemma Head.fits (d : ℕ) (h : Head) : Json.Fits (d + 1) h.json := .obj (by simp)

lemma AnchorStatement.fits (d : ℕ) (s : AnchorStatement) : Json.Fits (d + 1) s.json :=
  .obj (by simp)

lemma AnchorReceipt.fits (d : ℕ) (r : AnchorReceipt) : Json.Fits (d + 2) r.json :=
  .obj (by simp [or_imp, forall_and, r.statement.fits d])

/-! ## Texts with nothing to scrub -/

/-- A head's texts are UTF-8. -/
structure Head.Legible (h : Head) : Prop where
  streamID : validUTF8 h.streamID = true
  statementSHA256 : validUTF8 h.statementSHA256 = true

/-- A receipt's texts are UTF-8. -/
structure AnchorReceipt.Legible (r : AnchorReceipt) : Prop where
  version : validUTF8 r.version = true
  provider : validUTF8 r.provider = true
  statementVersion : validUTF8 r.statement.version = true
  streamID : validUTF8 r.statement.streamID = true
  statementSHA256 : validUTF8 r.statement.statementSHA256 = true
  externalID : validUTF8 r.externalID = true
  proofSHA256 : validUTF8 r.proofSHA256 = true

lemma scrub_str {v : Text} (h : validUTF8 v = true) : (str v).scrub = .str v :=
  congrArg str (scrub_of_valid h)

lemma Head.scrub_json {h : Head} (hlegible : h.Legible) : h.json.scrub = h.json := by
  simp [Head.json, Json.scrub, Json.scrubMembers, scrub_of_valid hlegible.streamID,
    scrub_of_valid hlegible.statementSHA256]

lemma AnchorReceipt.scrub_json {r : AnchorReceipt} (h : r.Legible) : r.json.scrub = r.json := by
  simp [AnchorReceipt.json, AnchorStatement.json, Json.scrub, Json.scrubMembers,
    apply_ite scrubMembers, scrub_of_valid h.version, scrub_of_valid h.provider,
    scrub_of_valid h.externalID, scrub_of_valid h.proofSHA256, scrub_of_valid h.statementVersion,
    scrub_of_valid h.streamID, scrub_of_valid h.statementSHA256]

/-! ## Reading them back -/

lemma Head.decode_json (h : Head) : decode Head.member ⟨[], 0, []⟩ h.json = some h := by
  exact Json.Fills.cons rfl <| .field rfl (readUint64_int 0 _) <| .cons rfl (.nil rfl)

lemma AnchorStatement.decode_json (s : AnchorStatement) :
    decode AnchorStatement.member {} s.json = some s := by
  exact Json.Fills.cons rfl <| .cons rfl <| .field rfl (readUint64_int 0 _) <| .cons rfl (.nil rfl)

lemma AnchorReceipt.decode_json (r : AnchorReceipt) :
    decode AnchorReceipt.member {} r.json = some r := by
  refine Json.Fills.append (.cons rfl <| .cons rfl <| .field rfl (AnchorStatement.decode_json _) <|
    .cons rfl <| .cons rfl <| .cons rfl (.nil rfl)) ?_
  exact .omitted rfl (readUint64_int 0 _) rfl id

end WeaverSSH.Evidence
