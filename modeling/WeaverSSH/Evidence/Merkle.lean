import WeaverSSH.Framework.Checks
import WeaverSSH.Framework.Clock
import WeaverSSH.Framework.Hex
import WeaverSSH.Framework.Json
import WeaverSSH.Framework.MerkleTree

/-!
# Leaves and their tree

`nonrepudiation.go` of the package `evidencebinding`, up to the statements: a leaf binds an
identifier and a subject to the digest of some bytes, the leaves of a list are hashed into one root,
and a proof goes from a leaf to the root. Leaves and nodes are hashed behind different bytes, and a
proof tells how many leaves there are.
-/

namespace WeaverSSH.Evidence

inductive EvidenceErr where
  | invalidEvidence (detail : Text)
  | invalidProof
  | invalidSignature
  | untrustedSigner
  | brokenChain
  | wrongStream
  | headMismatch
  | equivocation
  | duplicateEvidence (id : Text)
  | json
deriving DecidableEq, Repr

def leafDomain : Text := "weaverssh:evidence:leaf:v1\x00"

def nodeDomain : Text := "weaverssh:evidence:node:v1\x00"

def statementDomain : Text := "weaverssh:evidence:statement:v1\x00"

section

variable [Unicode]

def isSHA256 (value : Text) : Bool := len value = 64 && value = toLower value && hexDecodes value

structure Leaf where
  id : Text
  subject : Text
  kind : Text
  payloadSHA256 : Text
  observedAtUnix : ℤ
deriving DecidableEq, Repr

def Leaf.validate (l : Leaf) : Except EvidenceErr Unit := do
  require (trimSpace l.id ≠ [] && trimSpace l.subject ≠ [] && trimSpace l.kind ≠ [])
    (.invalidEvidence "leaf identity, subject, and kind are required")
  require (isSHA256 l.payloadSHA256)
    (.invalidEvidence "payload digest must be lowercase SHA-256")
  require (0 < l.observedAtUnix) (.invalidEvidence "observed time must be positive")

def Leaf.json (l : Leaf) : Json :=
  .obj [("id", .str l.id), ("subject", .str l.subject), ("kind", .str l.kind),
    ("payload_sha256", .str l.payloadSHA256), ("observed_at_unix", .int l.observedAtUnix)]

def Leaf.message (l : Leaf) : List UInt8 := 0 :: (bytes leafDomain ++ Json.marshal l.json)

def nodeMessage (left right : List UInt8) : List UInt8 := 1 :: (bytes nodeDomain ++ (left ++ right))

variable [SHA256]

/-- `NewLeaf`; `clock` is read where there is no time of observation. -/
def newLeaf (id subject kind : Text) (payload : List UInt8) (observedAt clock : Time) :
    Except EvidenceErr Leaf := do
  let leaf : Leaf := {
    id := trimSpace id
    subject := trimSpace subject
    kind := trimSpace kind
    payloadSHA256 := SHA256.hex payload
    observedAtUnix := unix (if isZero observedAt then clock else observedAt) }
  leaf.validate
  return leaf

def Leaf.verifyPayload (l : Leaf) (payload : List UInt8) : Bool :=
  hexEqualFold l.payloadSHA256 (SHA256.hex payload)

def hashLeaf (l : Leaf) : Except EvidenceErr (List UInt8) := do
  l.validate
  return SHA256.sum l.message

def hashNode (left right : List UInt8) : List UInt8 := SHA256.sum (nodeMessage left right)

structure ProofStep where
  sha256 : Text
  left : Bool
deriving DecidableEq, Repr

structure MerkleProof where
  index : ℤ
  leafCount : ℤ
  siblings : List ProofStep
deriving DecidableEq, Repr

/-- The digests of the leaves; no identifier may occur twice. -/
def hashLeaves (seen : List Text) : List Leaf → Except EvidenceErr (List (List UInt8))
  | [] => .ok []
  | leaf :: rest => do
    require (leaf.id ∉ seen) (.duplicateEvidence leaf.id)
    let hash ← hashLeaf leaf
    return hash :: (← hashLeaves (leaf.id :: seen) rest)

def merkleLevels (leaves : List Leaf) : Except EvidenceErr (List (List (List UInt8))) := do
  require (leaves ≠ []) (.invalidEvidence "at least one leaf is required")
  let first ← hashLeaves [] leaves
  return MerkleTree.levels hashNode first.length first

def buildMerkleRoot (leaves : List Leaf) : Except EvidenceErr Text := do
  let levels ← merkleLevels leaves
  return toHex ((levels.getLast?.getD []).headD [])

/-- The steps of a proof, level by level below the last one. -/
def proofSteps : ℕ → List (List (List UInt8)) → List ProofStep
  | position, nodes :: next :: levels =>
    let sibling := if position ^^^ 1 < nodes.length then position ^^^ 1 else position
    ⟨toHex (nodes.getD sibling []), sibling < position⟩ :: proofSteps (position / 2)
      (next :: levels)
  | _, _ => []

def buildMerkleProof (leaves : List Leaf) (index : ℤ) : Except EvidenceErr MerkleProof := do
  require (0 ≤ index && index < leaves.length) .invalidProof
  let levels ← merkleLevels leaves
  return ⟨index, leaves.length, proofSteps index.toNat levels⟩

/-- The loop of `VerifyMerkleProof`. -/
def climbProof : List UInt8 → ℕ → ℤ → List ProofStep → Except EvidenceErr (List UInt8 × ℕ × ℤ)
  | current, position, width, [] => .ok (current, position, width)
  | current, position, width, step :: rest => do
    let sibling ← (hexDecode step.sha256).elim (.error .invalidProof) .ok
    require (sibling.length = 32) .invalidProof
    let expectedLeft :=
      if (position : ℤ) = width - 1 ∧ width.tmod 2 = 1 then false else decide (position % 2 = 1)
    require (step.left = expectedLeft) .invalidProof
    climbProof (if step.left then hashNode sibling current else hashNode current sibling)
      (position / 2) ((int64 (width + 1)).tdiv 2) rest

def verifyMerkleProof (leaf : Leaf) (rootSHA256 : Text) (proof : MerkleProof) :
    Except EvidenceErr Unit := do
  require (0 < proof.leafCount && 0 ≤ proof.index && proof.index < proof.leafCount &&
    isSHA256 rootSHA256) .invalidProof
  let current ← hashLeaf leaf
  let (current, position, width) ←
    climbProof current proof.index.toNat proof.leafCount proof.siblings
  require (position = 0 && width = 1 && hexEqualFold rootSHA256 (toHex current)) .invalidProof

end

end WeaverSSH.Evidence
