import WeaverSSH.Evidence.AnchorWire
import WeaverSSH.Evidence.Journal

/-!
# A record's line

What is written of a record is one line of JSON (`newline_notMem_line`), and what is read from that
line is the record, where its texts are UTF-8 (`decodeRecord_line`).
-/

namespace WeaverSSH.Evidence

open AgentEvidenceRecord Json List OrderedMap

/-! ## The shape of the JSON text -/

lemma fits_mapJson (d : ℕ) (m : OrderedMap Text Text) : Json.Fits (d + 1) (mapJson m) := by
  refine .obj fun member hmember => ?_
  obtain ⟨entry, -, rfl⟩ := mem_map.mp hmember
  exact .str _

lemma AgentEvent.fits (d : ℕ) (e : AgentEvent) : Json.Fits (d + 2) e.json :=
  .obj (by simp [or_imp, forall_and, fits_mapJson d])

lemma ProofStep.fits (d : ℕ) (s : ProofStep) : Json.Fits (d + 1) s.json := .obj (by simp)

lemma MerkleProof.fits (d : ℕ) (p : MerkleProof) : Json.Fits (d + 3) p.json := by
  have hsiblings : Json.Fits (d + 2) (.arr (p.siblings.map ProofStep.json)) :=
    .arr (by simp [ProofStep.fits d])
  refine .obj ?_
  split_ifs <;> simp [hsiblings]

lemma SignedStatement.fits (d : ℕ) (s : SignedStatement) : Json.Fits (d + 2) s.json :=
  .obj (by simp [s.statement.fits d])

lemma AgentEvidenceRecord.fits (d : ℕ) (r : AgentEvidenceRecord) : Json.Fits (d + 4) r.json :=
  .obj (by simp [r.event.fits (d + 1), r.leaf.fits (d + 2), r.proof.fits d,
    r.statement.fits (d + 1), r.head.fits (d + 2), r.receipt.fits (d + 1)])

lemma newline_notMem_line (r : AgentEvidenceRecord) : newline ∉ r.line := by
  intro hmem
  have hle := (r.fits 0).le_of_mem_marshal hmem
  exact absurd hle (by decide)

/-! ## Texts with nothing to scrub -/

/-- An event's texts are UTF-8. -/
structure AgentEvent.Legible (e : AgentEvent) : Prop where
  version : validUTF8 e.version = true
  id : validUTF8 e.id = true
  kind : validUTF8 e.kind = true
  subject : validUTF8 e.subject = true
  details : ∀ entry ∈ e.details.entries, validUTF8 entry.1 = true ∧ validUTF8 entry.2 = true

structure Leaf.Legible (l : Leaf) : Prop where
  id : validUTF8 l.id = true
  subject : validUTF8 l.subject = true
  kind : validUTF8 l.kind = true
  payloadSHA256 : validUTF8 l.payloadSHA256 = true

structure AgentEvidenceRecord.Legible (r : AgentEvidenceRecord) : Prop where
  version : validUTF8 r.version = true
  event : r.event.Legible
  leaf : r.leaf.Legible
  proof : r.proof.siblings = []
  statement : r.statement.statement.Legible
  algorithm : validUTF8 r.statement.algorithm = true
  publicKey : validUTF8 r.statement.publicKey = true
  signature : validUTF8 r.statement.signature = true
  head : r.head.Legible
  receipt : r.receipt.Legible

lemma AgentEvent.scrub_json {e : AgentEvent} (h : e.Legible) : e.json.scrub = e.json := by
  have hdetails : (mapJson e.details).scrub = mapJson e.details := by
    refine Json.scrub_obj fun detail hdetail => ?_
    obtain ⟨entry, hentry, rfl⟩ := List.mem_map.mp hdetail
    obtain ⟨hkey, hvalue⟩ := h.details entry ((List.mem_insertionSort _).mp hentry)
    exact ⟨scrub_of_valid hkey, scrub_str hvalue⟩
  simp [AgentEvent.json, Json.scrub, Json.scrubMembers, apply_ite Json.scrubMembers, hdetails,
    scrub_of_valid h.version, scrub_of_valid h.id, scrub_of_valid h.kind, scrub_of_valid h.subject]

lemma Leaf.scrub_json {l : Leaf} (h : l.Legible) : l.json.scrub = l.json := by
  simp [Leaf.json, Json.scrub, Json.scrubMembers, scrub_of_valid h.id, scrub_of_valid h.subject,
    scrub_of_valid h.kind, scrub_of_valid h.payloadSHA256]

lemma Statement.scrub_json {s : Statement} (h : s.Legible) : s.json.scrub = s.json := by
  simp [Statement.json, Json.scrub, Json.scrubMembers, Json.scrubMembers_append,
    scrubMembers_optional, scrub_of_valid h.version, scrub_of_valid h.streamID,
    scrub_of_valid h.previousSHA256, scrub_of_valid h.merkleRootSHA256,
    scrub_of_valid h.signerKeyID, scrub_of_valid h.nonce]

variable {r : AgentEvidenceRecord}

lemma AgentEvidenceRecord.scrub_json (h : r.Legible) : r.json.scrub = r.json := by
  simp [json, MerkleProof.json, SignedStatement.json, Json.scrub, Json.scrubMembers,
    h.proof, Statement.scrub_json h.statement, AgentEvent.scrub_json h.event,
    Leaf.scrub_json h.leaf,
    Head.scrub_json h.head, AnchorReceipt.scrub_json h.receipt, scrub_of_valid h.version,
    scrub_of_valid h.algorithm, scrub_of_valid h.publicKey, scrub_of_valid h.signature]

/-! ## Reading a record back -/

/-- The numbers of a record are those of its fields' types. -/
structure AgentEvidenceRecord.Sized (r : AgentEvidenceRecord) : Prop where
  observedAtUnix : IsInt64 r.event.observedAtUnix
  leafObservedAtUnix : IsInt64 r.leaf.observedAtUnix
  index : IsInt64 r.proof.index
  proofLeafCount : IsInt64 r.proof.leafCount
  leafCount : IsInt64 r.statement.statement.leafCount
  issuedAtUnix : IsInt64 r.statement.statement.issuedAtUnix

lemma foldlM_readText (l : List (Text × Text)) (m : OrderedMap Text Text) :
    (l.map fun entry => (entry.1, str entry.2)).foldlM
      (fun m p => (readText [] p.2).map (m.put p.1)) m = some (m.collect some l) := by
  induction l generalizing m with
  | nil => rfl
  | cons entry l ih =>
    rw [map_cons, foldlM_cons]
    exact ih (m.put entry.1 entry.2)

lemma readMap_mapJson (m : OrderedMap Text Text) :
    readMap put empty empty (mapJson m) = some m := by
  show ((m.entries.insertionSort keyLE).map fun entry => (entry.1, str entry.2)).foldlM
    (fun m p => (readText [] p.2).map (m.put p.1)) empty = some m
  rw [foldlM_readText, collect_entries (perm_insertionSort keyLE m.entries)]

lemma AgentEvent.decode_json {e : AgentEvent} (h : IsInt64 e.observedAtUnix) :
    decode AgentEvent.member {} e.json = some e := by
  refine Json.Fills.append (.cons rfl <| .cons rfl <| .cons rfl <| .cons rfl <|
    .field rfl (readInt64_int 0 h) (.nil rfl)) ?_
  exact .omitted rfl (readMap_mapJson _) rfl fun hnil =>
    OrderedMap.ext_get fun key => by rw [OrderedMap.get, hnil]; rfl

lemma Leaf.decode_json {l : Leaf} (h : IsInt64 l.observedAtUnix) :
    decode Leaf.member ⟨[], [], [], [], 0⟩ l.json = some l := by
  exact Json.Fills.cons rfl <| .cons rfl <| .cons rfl <| .cons rfl <|
    .field rfl (readInt64_int 0 h) (.nil rfl)

lemma MerkleProof.decode_json {p : MerkleProof} (hindex : IsInt64 p.index)
    (hcount : IsInt64 p.leafCount) (hsiblings : p.siblings = []) :
    decode MerkleProof.member ⟨0, 0, []⟩ p.json = some p := by
  obtain ⟨index, count, siblings⟩ := p
  obtain rfl : siblings = [] := hsiblings
  exact Json.Fills.field rfl (readInt64_int 0 hindex) <|
    .field rfl (readInt64_int 0 hcount) <| .cons rfl (.nil rfl)

lemma Statement.decode_json {s : Statement} (hcount : IsInt64 s.leafCount)
    (hissued : IsInt64 s.issuedAtUnix) :
    decode Statement.member ⟨[], [], 0, [], [], 0, 0, [], []⟩ s.json = some s := by
  refine Json.Fills.append (.cons rfl <| .cons rfl <| .field rfl (readUint64_int 0 _) (.nil rfl)) ?_
  refine Json.Fills.append (.optional (fun _ => rfl) rfl) ?_
  exact .cons rfl <| .field rfl (readInt64_int 0 hcount) <|
    .field rfl (readInt64_int 0 hissued) <| .cons rfl <| .cons rfl (.nil rfl)

lemma SignedStatement.decode_json {s : SignedStatement} (hcount : IsInt64 s.statement.leafCount)
    (hissued : IsInt64 s.statement.issuedAtUnix) :
    decode SignedStatement.member ⟨⟨[], [], 0, [], [], 0, 0, [], []⟩, [], [], []⟩ s.json =
      some s := by
  exact Json.Fills.field rfl (Statement.decode_json hcount hissued) <| .cons rfl <| .cons rfl <|
    .cons rfl (.nil rfl)

lemma AgentEvidenceRecord.decode_json (h : r.Sized)
    (hsiblings : r.proof.siblings = []) : Json.decode member {} r.json = some r := by
  exact Json.Fills.cons rfl <| .field rfl (AgentEvent.decode_json h.observedAtUnix) <|
    .field rfl (Leaf.decode_json h.leafObservedAtUnix) <|
    .field rfl (MerkleProof.decode_json h.index h.proofLeafCount hsiblings) <|
    .field rfl (SignedStatement.decode_json h.leafCount h.issuedAtUnix) <|
    .field rfl (Head.decode_json _) <| .field rfl (AnchorReceipt.decode_json _) (.nil rfl)

lemma dropReturn_line (r : AgentEvidenceRecord) : dropReturn r.line = r.line := by
  unfold dropReturn
  apply if_neg
  intro hlast
  have hle := (r.fits 0).le_of_mem_marshal (mem_of_getLast? hlast)
  exact absurd hle (by decide)

lemma trimSpace_line (r : AgentEvidenceRecord) :
    trimSpace (ofBytes (dropReturn r.line)) = print r.json := by
  rw [dropReturn_line, line, marshal, ofBytes_bytes (r.fits 0).valid_print]
  exact trimSpace_print_obj _

lemma decodeRecord_line (hlegible : r.Legible) (hsized : r.Sized) :
    decodeRecord (print r.json) = some r := by
  rw [decodeRecord, parse_print (r.fits 9996), Option.bind_some,
    scrub_json hlegible, decode_json hsized hlegible.proof]

lemma AgentEvidenceRecord.clone_eq (hlegible : r.Legible) (hsized : r.Sized) : r.clone = r := by
  rw [clone, marshal, ofBytes_bytes (r.fits 0).valid_print,
    decodeRecord_line hlegible hsized, Option.getD_some]

end WeaverSSH.Evidence
