import WeaverSSH.Evidence.Anchor
import WeaverSSH.Framework.Lines
import WeaverSSH.Framework.OrderedMap

/-!
# The evidence journal

`agent_journal.go` of the package `evidencebinding`. A journal is a file with a line for every
record: an event, the leaf that binds it, a signed statement that follows the one before, its head,
and the provider's receipt of the head. `append` gives the head to the provider before it verifies
and writes the record; `load` reads the whole file and verifies it.

What the provider answers and how far a write comes are part of an attempt; the journal's lock
orders attempts. `handed` and `log` are kept for the results.
-/

namespace WeaverSSH.Evidence

open AuthProof Json

def agentEventVersion : Text := "weaverssh.agent-evidence-event.v1"

def agentJournalVersion : Text := "weaverssh.agent-evidence-journal.v1"

/-- The length at which `bufio.Scanner` gives up on a line. -/
def maxLine : ℕ := 4 * 2 ^ 20

structure AgentEvent where
  version : Text := []
  id : Text := []
  kind : Text := []
  subject : Text := []
  observedAtUnix : ℤ := 0
  details : OrderedMap Text Text := OrderedMap.empty
deriving DecidableEq

structure AgentEvidenceRecord where
  version : Text := []
  event : AgentEvent := {}
  leaf : Leaf := ⟨[], [], [], [], 0⟩
  proof : MerkleProof := ⟨0, 0, []⟩
  statement : SignedStatement := ⟨⟨[], [], 0, [], [], 0, 0, [], []⟩, [], [], []⟩
  head : Head := ⟨[], 0, []⟩
  receipt : AnchorReceipt := {}
deriving DecidableEq

/-! ## JSON -/

/-- The order in which `encoding/json` writes the entries of a map: that of the bytes of the
keys. -/
def keyLE (a b : Text × Text) : Prop := bytesLE a.1 b.1

instance (a b : Text × Text) : Decidable (keyLE a b) :=
  inferInstanceAs (Decidable (bytesLE a.1 b.1))

def mapJson (m : OrderedMap Text Text) : Json :=
  .obj ((m.entries.insertionSort keyLE).map fun entry => (entry.1, .str entry.2))

def AgentEvent.json (e : AgentEvent) : Json :=
  .obj ([(text "version", .str e.version), (text "id", .str e.id), (text "kind", .str e.kind),
    (text "subject", .str e.subject), (text "observed_at_unix", .int e.observedAtUnix)] ++
    if e.details.entries = [] then [] else [(text "details", mapJson e.details)])

def ProofStep.json (s : ProofStep) : Json :=
  .obj [("sha256", .str s.sha256), ("left", .bool s.left)]

/-- A proof; no siblings are a slice that is nil. -/
def MerkleProof.json (p : MerkleProof) : Json :=
  .obj [("index", .int p.index), ("leaf_count", .int p.leafCount),
    ("siblings", if p.siblings = [] then .null else .arr (p.siblings.map ProofStep.json))]

def SignedStatement.json (s : SignedStatement) : Json :=
  .obj [("statement", s.statement.json), ("algorithm", .str s.algorithm),
    ("public_key", .str s.publicKey), ("signature", .str s.signature)]

def AgentEvidenceRecord.json (r : AgentEvidenceRecord) : Json :=
  .obj [("version", .str r.version), ("event", r.event.json), ("leaf", r.leaf.json),
    ("proof", r.proof.json), ("statement", r.statement.json), ("head", r.head.json),
    ("receipt", r.receipt.json)]

def AgentEvent.member (e : AgentEvent) (key : Text) (j : Json) : Option AgentEvent :=
  if named key "version" then (readText e.version j).map fun v => { e with version := v }
  else if named key "id" then (readText e.id j).map fun v => { e with id := v }
  else if named key "kind" then (readText e.kind j).map fun v => { e with kind := v }
  else if named key "subject" then
    (readText e.subject j).map fun v => { e with subject := v }
  else if named key "observed_at_unix" then
    (readInt64 e.observedAtUnix j).map fun v => { e with observedAtUnix := v }
  else if named key "details" then
    (readMap OrderedMap.put OrderedMap.empty e.details j).map fun v => { e with details := v }
  else none

def Leaf.member (l : Leaf) (key : Text) (j : Json) : Option Leaf :=
  if named key "id" then (readText l.id j).map fun v => { l with id := v }
  else if named key "subject" then
    (readText l.subject j).map fun v => { l with subject := v }
  else if named key "kind" then (readText l.kind j).map fun v => { l with kind := v }
  else if named key "payload_sha256" then
    (readText l.payloadSHA256 j).map fun v => { l with payloadSHA256 := v }
  else if named key "observed_at_unix" then
    (readInt64 l.observedAtUnix j).map fun v => { l with observedAtUnix := v }
  else none

def ProofStep.member (s : ProofStep) (key : Text) (j : Json) : Option ProofStep :=
  if named key "sha256" then (readText s.sha256 j).map fun v => { s with sha256 := v }
  else if named key "left" then (readBool s.left j).map fun v => { s with left := v }
  else none

def MerkleProof.member (p : MerkleProof) (key : Text) (j : Json) : Option MerkleProof :=
  if named key "index" then (readInt64 p.index j).map fun v => { p with index := v }
  else if named key "leaf_count" then
    (readInt64 p.leafCount j).map fun v => { p with leafCount := v }
  else if named key "siblings" then
    (readList ⟨[], false⟩ (decode ProofStep.member) p.siblings j).map fun v =>
      { p with siblings := v }
  else none

def Statement.member (s : Statement) (key : Text) (j : Json) : Option Statement :=
  if named key "version" then (readText s.version j).map fun v => { s with version := v }
  else if named key "stream_id" then
    (readText s.streamID j).map fun v => { s with streamID := v }
  else if named key "sequence" then
    (readUint64 s.sequence j).map fun v => { s with sequence := v }
  else if named key "previous_sha256" then
    (readText s.previousSHA256 j).map fun v => { s with previousSHA256 := v }
  else if named key "merkle_root_sha256" then
    (readText s.merkleRootSHA256 j).map fun v => { s with merkleRootSHA256 := v }
  else if named key "leaf_count" then
    (readInt64 s.leafCount j).map fun v => { s with leafCount := v }
  else if named key "issued_at_unix" then
    (readInt64 s.issuedAtUnix j).map fun v => { s with issuedAtUnix := v }
  else if named key "signer_key_id" then
    (readText s.signerKeyID j).map fun v => { s with signerKeyID := v }
  else if named key "nonce" then (readText s.nonce j).map fun v => { s with nonce := v }
  else none

def SignedStatement.member (s : SignedStatement) (key : Text) (j : Json) : Option SignedStatement :=
  if named key "statement" then
    (decode Statement.member s.statement j).map fun v => { s with statement := v }
  else if named key "algorithm" then
    (readText s.algorithm j).map fun v => { s with algorithm := v }
  else if named key "public_key" then
    (readText s.publicKey j).map fun v => { s with publicKey := v }
  else if named key "signature" then
    (readText s.signature j).map fun v => { s with signature := v }
  else none

def AgentEvidenceRecord.member (r : AgentEvidenceRecord) (key : Text) (j : Json) :
    Option AgentEvidenceRecord :=
  if named key "version" then (readText r.version j).map fun v => { r with version := v }
  else if named key "event" then
    (decode AgentEvent.member r.event j).map fun v => { r with event := v }
  else if named key "leaf" then
    (decode Leaf.member r.leaf j).map fun v => { r with leaf := v }
  else if named key "proof" then
    (decode MerkleProof.member r.proof j).map fun v => { r with proof := v }
  else if named key "statement" then
    (decode SignedStatement.member r.statement j).map fun v => { r with statement := v }
  else if named key "head" then
    (decode Head.member r.head j).map fun v => { r with head := v }
  else if named key "receipt" then
    (decode AnchorReceipt.member r.receipt j).map fun v => { r with receipt := v }
  else none

/-- `decodeJournalJSON`. -/
def decodeRecord (data : Text) : Option AgentEvidenceRecord :=
  (parse data).bind (decode AgentEvidenceRecord.member {})

/-- `cloneAgentEvidenceRecord`. -/
def AgentEvidenceRecord.clone (r : AgentEvidenceRecord) : AgentEvidenceRecord :=
  (decodeRecord (ofBytes (marshal r.json))).getD r

/-! ## Journals -/

inductive JournalErr where
  | evidence (err : EvidenceErr)
  | closed
  | entropy
  | anchor
  | notAnchored
  | write
  | sync
  | tokenTooLong
  | emptyLine (line : ℕ)
  | undecodable (line : ℕ)
  | atLine (line : ℕ) (err : JournalErr)
deriving DecidableEq, Repr

/-- A key pair, as `SignStatement` uses it. -/
structure Signer where
  publicKey : List UInt8
  length_publicKey : publicKey.length = publicKeySize
  sign : List UInt8 → List UInt8

structure Journal where
  streamID : Text
  signer : Signer
  /-- `provider.Verify`. -/
  accepts : Head → AnchorReceipt → Bool

/-- What comes of an attempt to append an event. -/
structure Attempt where
  event : AgentEvent
  /-- Where `NewLeaf` and `NewStatement` find no time. -/
  clock : Time
  nonce : Option (List UInt8)
  /-- What the provider answers. -/
  receipt : Option AnchorReceipt
  /-- How many bytes were written when `Write` failed. -/
  written : Option ℕ
  synced : Bool

/-- What is given to the provider, with what it is the head of. -/
structure Prepared where
  leaf : Leaf
  proof : MerkleProof
  signed : SignedStatement
  head : Head

/-- A journal's file, and its records while it is open. -/
structure Store where
  file : List UInt8 := []
  records : Option (List AgentEvidenceRecord) := none
  handed : List Prepared := []
  log : List (AgentEvidenceRecord × Bool) := []

section

variable [Unicode]

def AgentEvent.validate (e : AgentEvent) : Except EvidenceErr Unit := do
  require (e.version = agentEventVersion && trimSpace e.id ≠ [] && trimSpace e.kind ≠ [] &&
    trimSpace e.subject ≠ [] && 0 < e.observedAtUnix) (.invalidEvidence "invalid agent event")
  require (e.details.entries.all fun entry => trimSpace entry.1 ≠ [])
    (.invalidEvidence "empty agent event detail key")

def AgentEvent.canonicalBytes (e : AgentEvent) : Except EvidenceErr (List UInt8) := do
  e.validate
  return marshal e.json

variable [SHA256]

def Signer.signStatement (signer : Signer) (s : Statement) : Except EvidenceErr SignedStatement :=
  do
  require (s.signerKeyID = keyID signer.publicKey)
    (.invalidEvidence "signer key id does not match private key")
  s.validate
  return ⟨s, algorithmEd25519, Base64.encode signer.publicKey,
    Base64.encode (signer.sign s.message)⟩

def Journal.keyID (j : Journal) : Text := Evidence.keyID j.signer.publicKey

def Journal.trust (j : Journal) : TrustPolicy := .only j.signer.publicKey j.signer.length_publicKey

/-- `Append` up to the point where the head is given to the provider. -/
def Journal.prepare (j : Journal) (records : List AgentEvidenceRecord) (a : Attempt) :
    Except JournalErr Prepared := do
  require (records.all fun r => r.event.id ≠ a.event.id) (.evidence (.duplicateEvidence a.event.id))
  let payload ← a.event.canonicalBytes.mapError .evidence
  let observed : Time := a.event.observedAtUnix * second
  let leaf ← (newLeaf a.event.id a.event.subject a.event.kind payload observed a.clock).mapError
    .evidence
  let proof ← (buildMerkleProof [leaf] 0).mapError .evidence
  let sequence := UInt64.ofNat (records.length + 1)
  let previous := (records.getLast?.map fun r => r.head.statementSHA256).getD []
  let nonce ← a.nonce.elim (.error .entropy) fun nonce => .ok (Base64.encode nonce)
  let statement ← (newStatement j.streamID sequence previous [leaf] j.keyID nonce observed
    a.clock).mapError .evidence
  let signed ← (j.signer.signStatement statement).mapError .evidence
  let digest ← statement.sha256.mapError .evidence
  return ⟨leaf, proof, signed, ⟨j.streamID, sequence, digest⟩⟩

variable [Ed25519]

def Journal.verifyRecord (j : Journal) (r : AgentEvidenceRecord) : Except JournalErr Unit := do
  require (r.version = agentJournalVersion && r.event.version = agentEventVersion)
    (.evidence (.invalidEvidence []))
  let payload ← r.event.canonicalBytes.mapError .evidence
  r.leaf.validate.mapError fun _ => .evidence (.invalidEvidence [])
  require (r.leaf.id = r.event.id && r.leaf.kind = r.event.kind && r.leaf.subject =
    r.event.subject && r.leaf.verifyPayload payload) (.evidence (.invalidEvidence []))
  let statement := r.statement.statement
  require (statement.streamID = j.streamID && statement.signerKeyID = j.keyID &&
    statement.leafCount = 1 && statement.merkleRootSHA256 ≠ []) (.evidence (.invalidEvidence []))
  (verifyMerkleProof r.leaf statement.merkleRootSHA256 r.proof).mapError .evidence
  (j.trust.verify r.statement).mapError .evidence
  let digest ← statement.sha256.mapError .evidence
  require (r.head = ⟨j.streamID, statement.sequence, digest⟩) (.evidence .headMismatch)
  require (j.accepts r.head r.receipt) .notAnchored

def Journal.verifyRecords (j : Journal) (records : List AgentEvidenceRecord) :
    Except JournalErr VerificationReport := do
  require (records ≠ []) (.evidence (.invalidEvidence "empty agent journal"))
  records.forM j.verifyRecord
  (verifyLedger (records.map fun r => r.statement) j.trust
    ⟨j.streamID, records.getLast?.map fun r => r.head⟩).mapError .evidence

def Prepared.record (p : Prepared) (event : AgentEvent) (receipt : AnchorReceipt) :
    AgentEvidenceRecord :=
  ⟨agentJournalVersion, event, p.leaf, p.proof, p.signed, p.head, receipt⟩

def AgentEvidenceRecord.line (r : AgentEvidenceRecord) : List UInt8 := marshal r.json

/-- `Append` from the write on. -/
def Store.write (s : Store) (records : List AgentEvidenceRecord) (record : AgentEvidenceRecord)
    (a : Attempt) : Except JournalErr AgentEvidenceRecord × Store :=
  let encoded := record.line ++ [newline]
  match a.written with
  | some n =>
    let log := if encoded.length ≤ n then s.log ++ [(record, false)] else s.log
    (.error .write, { s with file := s.file ++ encoded.take n, log := log })
  | none =>
    let s := { s with file := s.file ++ encoded, log := s.log ++ [(record, a.synced)] }
    if a.synced then (.ok record.clone, { s with records := some (records ++ [record]) })
    else (.error .sync, s)

/-- `Append` from the provider's answer on. -/
def Store.commit (j : Journal) (s : Store) (records : List AgentEvidenceRecord) (p : Prepared)
    (a : Attempt) : Except JournalErr AgentEvidenceRecord × Store :=
  match a.receipt with
  | none => (.error .anchor, s)
  | some receipt =>
    match j.verifyRecord (p.record a.event receipt) with
    | .error e => (.error e, s)
    | .ok _ => s.write records (p.record a.event receipt) a

def Store.append (j : Journal) (s : Store) (a : Attempt) :
    Except JournalErr AgentEvidenceRecord × Store :=
  match a.event.validate, s.records with
  | .error e, _ => (.error (.evidence e), s)
  | .ok _, none => (.error .closed, s)
  | .ok _, some records =>
    match j.prepare records a with
    | .error e => (.error e, s)
    -- From here on the provider has the head.
    | .ok p => Store.commit j { s with handed := s.handed ++ [p] } records p a

/-- The loop of `loadAndVerify`. -/
def Journal.loadLines (j : Journal) :
    ℕ → List AgentEvidenceRecord → List (List UInt8) → Except JournalErr (List AgentEvidenceRecord)
  | _, records, [] => .ok records
  | n, records, line :: rest => do
    require (line.length < maxLine) .tokenTooLong
    let data := trimSpace (ofBytes (dropReturn line))
    require (data ≠ []) (.emptyLine (n + 1))
    let record ← (decodeRecord data).elim (.error (.undecodable (n + 1))) .ok
    require (records.all fun r => r.event.id ≠ record.event.id)
      (.evidence (.duplicateEvidence record.event.id))
    (j.verifyRecord record).mapError (.atLine (n + 1))
    j.loadLines (n + 1) (records ++ [record]) rest

/-- `loadAndVerify`. -/
def Journal.load (j : Journal) (file : List UInt8) : Except JournalErr (List AgentEvidenceRecord) :=
  do
  let records ← j.loadLines 0 [] (lines file)
  if records = [] then return []
  else do
    let _ ← j.verifyRecords records
    return records

/-! ## Runs -/

inductive JournalOp where
  | append (a : Attempt)
  | close
  /-- `OpenAgentEvidenceJournal`, with the key and the provider there were. -/
  | reopen

def Store.step (j : Journal) (s : Store) : JournalOp → Store
  | .append a => (s.append j a).2
  | .close => { s with records := none }
  | .reopen =>
    match j.load s.file with
    | .error _ => { s with records := none }
    | .ok records => { s with records := some records }

def Journal.run (j : Journal) (ops : List JournalOp) : Store := ops.foldl (Store.step j) {}

end

end WeaverSSH.Evidence
