import WeaverSSH.Evidence.Statement

/-!
# Anchors

`anchor.go` and `anchor_threshold.go` of the package `evidencebinding`. The head of a stream is
given to an anchor provider, which returns a receipt. A threshold policy asks several providers;
what each answers and accepts is given to each call.
-/

namespace WeaverSSH.Evidence

open Json

def anchorVersion : Text := "weaverssh.evidence-anchor.v1"

inductive AnchorErr where
  | invalidAnchor (detail : Text)
  | anchorMismatch
  | anchorRejected
  | anchorNotCommitted
  | anchorThreshold
deriving DecidableEq, Repr

def AnchorErr.message : AnchorErr → Text
  | .invalidAnchor [] => "invalid evidence anchor"
  | .invalidAnchor detail => text "invalid evidence anchor: " ++ detail
  | .anchorMismatch => "anchored statement does not match expected evidence head"
  | .anchorRejected => "evidence anchor provider rejected the statement"
  | .anchorNotCommitted => "evidence anchor transaction was not committed"
  | .anchorThreshold => "evidence anchor threshold not met"

structure AnchorStatement where
  version : Text := []
  streamID : Text := []
  sequence : UInt64 := 0
  statementSHA256 : Text := []
deriving DecidableEq, Repr

structure AnchorReceipt where
  version : Text := []
  provider : Text := []
  statement : AnchorStatement := {}
  externalID : Text := []
  proofSHA256 : Text := []
  committed : Bool := false
  blockNumber : UInt64 := 0
deriving DecidableEq, Repr

section

variable [Unicode]

def AnchorStatement.validate (s : AnchorStatement) : Except AnchorErr Unit :=
  require (s.version = anchorVersion && trimSpace s.streamID ≠ [] && s.sequence ≠ 0 &&
    isSHA256 s.statementSHA256) (.invalidAnchor [])

def newAnchorStatement (head : Head) : Except AnchorErr AnchorStatement := do
  let statement : AnchorStatement := {
    version := anchorVersion
    streamID := trimSpace head.streamID
    sequence := head.sequence
    statementSHA256 := toLower (trimSpace head.statementSHA256) }
  statement.validate
  return statement

def AnchorReceipt.validateFor (r : AnchorReceipt) (provider : Text) (head : Head) :
    Except AnchorErr Unit := do
  let expected ← newAnchorStatement head
  require (r.version = anchorVersion && trimSpace r.provider = trimSpace provider &&
    r.statement = expected) .anchorMismatch
  require (trimSpace r.externalID ≠ [] && isSHA256 r.proofSHA256) (.invalidAnchor [])
  require r.committed .anchorNotCommitted

end

/-! ## Thresholds -/

/-- The order of `sort.Strings`: that of the bytes. -/
def bytesLE (a b : Text) : Prop := (bytes a).map UInt8.toNat ≤ (bytes b).map UInt8.toNat

instance (a b : Text) : Decidable (bytesLE a b) := by
  unfold bytesLE
  infer_instance

/-- Providers, by their names, with how many of them are enough: what `NewAnchorThresholdPolicy`
returns. -/
structure AnchorThresholdPolicy where
  names : List Text
  distinct : names.Nodup
  trimmed : ∀ name ∈ names, trimSpace name = name ∧ name ≠ []
  threshold : ℕ
  positive : 0 < threshold
  reachable : threshold ≤ names.length

namespace AnchorThresholdPolicy

def providerNames (p : AnchorThresholdPolicy) : List Text := p.names.insertionSort bytesLE

/-- What a provider's answer comes to: a receipt for the head, or a failure. -/
def answer [Unicode] (head : Head) (name : Text) :
    Except Text AnchorReceipt → Except Text AnchorReceipt
  | .error e => .error (name ++ (text ": " ++ e))
  | .ok receipt =>
    match receipt.validateFor name head with
    | .error e => .error (name ++ (text ": " ++ e.message))
    | .ok _ => .ok receipt

/-- `AnchorThresholdPolicy.Anchor`, with the text of its error. -/
def anchor [Unicode] (p : AnchorThresholdPolicy) (answers : Text → Except Text AnchorReceipt)
    (head : Head) : List AnchorReceipt × Option Text :=
  match newAnchorStatement head with
  | .error e => ([], some e.message)
  | .ok _ =>
    let results := p.providerNames.map fun name => answer head name (answers name)
    let receipts := results.filterMap Except.toOption
    let failures := results.filterMap fun
      | .error e => some e
      | .ok _ => none
    if receipts.length < p.threshold then
      (receipts, some (List.intercalate "\n" (AnchorErr.anchorThreshold.message :: failures)))
    else (receipts, none)

/-- How many receipts are accepted, of those of providers that were not counted before. -/
def countValid (names : List Text) (accepts : Text → AnchorReceipt → Bool) :
    List Text → List AnchorReceipt → ℕ
  | _, [] => 0
  | seen, receipt :: rest =>
    let name := trimSpace receipt.provider
    if name = [] ∨ name ∈ seen then countValid names accepts seen rest
    else (if name ∈ names ∧ accepts name receipt then 1 else 0) +
      countValid names accepts (name :: seen) rest

def verify [Unicode] (p : AnchorThresholdPolicy) (accepts : Text → Head → AnchorReceipt → Bool)
    (head : Head) (receipts : List AnchorReceipt) : Except AnchorErr Unit := do
  let _ ← newAnchorStatement head
  require (p.threshold ≤ countValid p.names (fun name => accepts name head) [] receipts)
    .anchorThreshold

variable {names seen : List Text} {accepts : Text → AnchorReceipt → Bool}

/-- The receipt that is looked at for a provider. -/
def first (receipts : List AnchorReceipt) (name : Text) : Option AnchorReceipt :=
  receipts.find? fun r => trimSpace r.provider = name

lemma countValid_eq (hnodup : names.Nodup) (hblank : [] ∉ names) (receipts : List AnchorReceipt) :
    countValid names accepts seen receipts =
      names.countP fun name => name ∉ seen && (first receipts name).any (accepts name) := by
  induction receipts generalizing seen with
  | nil => simp [countValid, first]
  | cons receipt rest ih =>
    have hfirst (name : Text) : first (receipt :: rest) name =
        if trimSpace receipt.provider = name then some receipt else first rest name := by
      simp only [first, List.find?_cons]
      split <;> simp_all
    unfold countValid
    dsimp only
    generalize trimSpace receipt.provider = provider at *
    split_ifs with hskip hcounted
    · rw [ih]
      refine List.countP_congr fun name hname => ?_
      grind
    · obtain ⟨hmem, haccepts⟩ := hcounted
      rw [ih, (List.perm_cons_erase hmem).countP_eq, (List.perm_cons_erase hmem).countP_eq,
        List.countP_cons_of_neg (by simp), List.countP_cons_of_pos (by grind), add_comm,
        add_left_inj]
      refine List.countP_congr fun name hname => ?_
      have hother := (hnodup.mem_erase_iff.mp hname).1
      grind
    · rw [ih, zero_add]
      refine List.countP_congr fun name hname => ?_
      grind

/-- **A threshold is a number of providers**: `Verify` accepts receipts exactly if the head is valid
and so many of the configured providers accept the first receipt with their name, whatever else is
among the receipts. -/
theorem threshold_verify_iff [Unicode] (p : AnchorThresholdPolicy)
    (accepts : Text → Head → AnchorReceipt → Bool) (head : Head) (receipts : List AnchorReceipt) :
    p.verify accepts head receipts = .ok () ↔
      (∃ statement, newAnchorStatement head = .ok statement) ∧
      p.threshold ≤ p.names.countP fun name => (first receipts name).any (accepts name head) := by
  have hblank : [] ∉ p.names := fun hmem => (p.trimmed [] hmem).2 rfl
  simp only [verify, checks_ok, countValid_eq p.distinct hblank]
  simp

end AnchorThresholdPolicy

/-! ## JSON -/

def AnchorStatement.json (s : AnchorStatement) : Json :=
  .obj [("version", .str s.version), ("stream_id", .str s.streamID),
    ("sequence", .int s.sequence.toNat), ("statement_sha256", .str s.statementSHA256)]

def AnchorReceipt.json (r : AnchorReceipt) : Json :=
  .obj ([(text "version", .str r.version), (text "provider", .str r.provider),
    (text "statement", r.statement.json), (text "external_id", .str r.externalID),
    (text "proof_sha256", .str r.proofSHA256), (text "committed", .bool r.committed)] ++
    if r.blockNumber = 0 then [] else [(text "block_number", .int r.blockNumber.toNat)])

def Head.json (h : Head) : Json :=
  .obj [("stream_id", .str h.streamID), ("sequence", .int h.sequence.toNat),
    ("statement_sha256", .str h.statementSHA256)]

/-- One member of an anchor statement's JSON text; others are refused. -/
def AnchorStatement.member (s : AnchorStatement) (key : Text) (j : Json) : Option AnchorStatement :=
  if named key "version" then (readText s.version j).map fun v => { s with version := v }
  else if named key "stream_id" then
    (readText s.streamID j).map fun v => { s with streamID := v }
  else if named key "sequence" then
    (readUint64 s.sequence j).map fun v => { s with sequence := v }
  else if named key "statement_sha256" then
    (readText s.statementSHA256 j).map fun v => { s with statementSHA256 := v }
  else none

def AnchorReceipt.member (r : AnchorReceipt) (key : Text) (j : Json) : Option AnchorReceipt :=
  if named key "version" then (readText r.version j).map fun v => { r with version := v }
  else if named key "provider" then
    (readText r.provider j).map fun v => { r with provider := v }
  else if named key "statement" then
    (decode AnchorStatement.member r.statement j).map fun v => { r with statement := v }
  else if named key "external_id" then
    (readText r.externalID j).map fun v => { r with externalID := v }
  else if named key "proof_sha256" then
    (readText r.proofSHA256 j).map fun v => { r with proofSHA256 := v }
  else if named key "committed" then
    (readBool r.committed j).map fun v => { r with committed := v }
  else if named key "block_number" then
    (readUint64 r.blockNumber j).map fun v => { r with blockNumber := v }
  else none

def Head.member (h : Head) (key : Text) (j : Json) : Option Head :=
  if named key "stream_id" then
    (readText h.streamID j).map fun v => { h with streamID := v }
  else if named key "sequence" then
    (readUint64 h.sequence j).map fun v => { h with sequence := v }
  else if named key "statement_sha256" then
    (readText h.statementSHA256 j).map fun v => { h with statementSHA256 := v }
  else none

end WeaverSSH.Evidence
