import WeaverSSH.AuthProof.Proof
import WeaverSSH.Evidence.Merkle

/-!
# Statements and ledgers

`nonrepudiation.go` of the package `evidencebinding`, from the statements on. A statement is a
checkpoint of a stream: its number, the digest of the statement before, and the root of the leaves
it adds. A ledger is verified from its first statement on, and its head is compared with the one
that was witnessed (`verifyLedger`).
-/

namespace WeaverSSH.Evidence

open AuthProof

def evidenceVersion : Text := "weaverssh.evidence-binding.v1"

def algorithmEd25519 : Text := "ed25519"

structure Statement where
  version : Text
  streamID : Text
  sequence : UInt64
  previousSHA256 : Text
  merkleRootSHA256 : Text
  leafCount : ℤ
  issuedAtUnix : ℤ
  signerKeyID : Text
  nonce : Text
deriving DecidableEq, Repr

def Statement.json (s : Statement) : Json :=
  .obj ([(text "version", .str s.version), (text "stream_id", .str s.streamID),
      (text "sequence", .int s.sequence.toNat)] ++
      (Json.optional "previous_sha256" s.previousSHA256 ++
    [(text "merkle_root_sha256", .str s.merkleRootSHA256), (text "leaf_count", .int s.leafCount),
      (text "issued_at_unix", .int s.issuedAtUnix), (text "signer_key_id", .str s.signerKeyID),
      (text "nonce", .str s.nonce)]))

def Statement.message (s : Statement) : List UInt8 := bytes statementDomain ++ Json.marshal s.json

structure SignedStatement where
  statement : Statement
  algorithm : Text
  publicKey : Text
  signature : Text
deriving DecidableEq, Repr

structure Head where
  streamID : Text
  sequence : UInt64
  statementSHA256 : Text
deriving DecidableEq, Repr

structure VerifyOptions where
  expectedStreamID : Text
  witnessedHead : Option Head
deriving DecidableEq, Repr

structure VerificationReport where
  streamID : Text
  statements : ℕ
  head : Head
  authentic : Bool
  completenessBound : Bool
deriving DecidableEq, Repr

section

variable [Unicode]

def Statement.validate (s : Statement) : Except EvidenceErr Unit := do
  require (s.version = evidenceVersion && trimSpace s.streamID ≠ [] && s.sequence ≠ 0 &&
    0 < s.leafCount && 0 < s.issuedAtUnix && trimSpace s.signerKeyID ≠ [] && trimSpace s.nonce ≠ [])
    (.invalidEvidence [])
  require (isSHA256 s.merkleRootSHA256) (.invalidEvidence [])
  require (if s.sequence = 1 then trimSpace s.previousSHA256 = [] else isSHA256 s.previousSHA256)
    .brokenChain

variable [SHA256]

/-- `NewStatement`; `clock` is read where there is no time of issue. -/
def newStatement (streamID : Text) (sequence : UInt64) (previousSHA256 : Text) (leaves : List Leaf)
    (signerKeyID nonce : Text) (issuedAt clock : Time) : Except EvidenceErr Statement := do
  let root ← buildMerkleRoot leaves
  let statement : Statement := {
    version := evidenceVersion
    streamID := trimSpace streamID
    sequence := sequence
    previousSHA256 := toLower (trimSpace previousSHA256)
    merkleRootSHA256 := root
    leafCount := leaves.length
    issuedAtUnix := unix (if isZero issuedAt then clock else issuedAt)
    signerKeyID := trimSpace signerKeyID
    nonce := trimSpace nonce }
  statement.validate
  return statement

def Statement.sha256 (s : Statement) : Except EvidenceErr Text := do
  s.validate
  return SHA256.hex s.message

/-! ## Signatures -/

def keyID (publicKey : List UInt8) : Text := text "ed25519:" ++ SHA256.hex publicKey

/-- `TrustPolicy`, with what `NewTrustPolicy` checks of its keys. -/
structure TrustPolicy where
  keys : Text → Option (List UInt8)
  valid : ∀ id key, keys id = some key → key.length = publicKeySize ∧ id = keyID key

def TrustPolicy.only (key : List UInt8) (h : key.length = publicKeySize) : TrustPolicy where
  keys id := if id = keyID key then some key else none
  valid id other hother := by
    split_ifs at hother with hid
    obtain rfl := Option.some.inj hother
    exact ⟨h, hid⟩

variable [Ed25519]

def TrustPolicy.verify (p : TrustPolicy) (signed : SignedStatement) : Except EvidenceErr Unit := do
  require (signed.algorithm = algorithmEd25519) .invalidSignature
  let trusted ← (p.keys signed.statement.signerKeyID).elim (.error .untrustedSigner) .ok
  let encodedPublic ←
    (Base64.decode (trimSpace signed.publicKey)).elim (.error .untrustedSigner) .ok
  require (encodedPublic.length = publicKeySize && trusted = encodedPublic) .untrustedSigner
  let signature ← (Base64.decode (trimSpace signed.signature)).elim (.error .invalidSignature) .ok
  require (signature.length = signatureSize) .invalidSignature
  signed.statement.validate
  require (Ed25519.verify trusted signed.statement.message signature) .invalidSignature

/-! ## Ledgers -/

/-- The loop of `VerifyLedger`, with the digest it ends with. -/
def verifyStatements (trust : TrustPolicy) (expectedStream : Text) :
    ℕ → Text → List SignedStatement → Except EvidenceErr Text
  | _, previousDigest, [] => .ok previousDigest
  | index, previousDigest, signed :: rest => do
    require (signed.statement.streamID = expectedStream) .wrongStream
    require (signed.statement.sequence = UInt64.ofNat (index + 1) &&
      signed.statement.previousSHA256 = previousDigest) .brokenChain
    trust.verify signed
    let digest ← signed.statement.sha256
    verifyStatements trust expectedStream (index + 1) digest rest

def verifyLedger (statements : List SignedStatement) (trust : TrustPolicy)
    (options : VerifyOptions) :
    Except EvidenceErr VerificationReport := do
  require (statements ≠ []) (.invalidEvidence "empty ledger")
  let expectedStream :=
    if trimSpace options.expectedStreamID ≠ [] then trimSpace options.expectedStreamID
    else (statements.head?.map fun signed => signed.statement.streamID).getD []
  let digest ← verifyStatements trust expectedStream 0 [] statements
  let head : Head := ⟨expectedStream, UInt64.ofNat statements.length, digest⟩
  require (options.witnessedHead.all (· = head)) .headMismatch
  return ⟨expectedStream, statements.length, head, true, options.witnessedHead.isSome⟩

/-! ## Witnesses -/

/-- What a witness has seen: the digest of the statement with a number in a stream. -/
structure Witness where
  seen : Text → UInt64 → Option Text

def newWitness : Witness := ⟨fun _ _ => none⟩

/-- `Witness.Observe`, with the witness it leaves. -/
def Witness.observe (w : Witness) (signed : SignedStatement) (trust : TrustPolicy) :
    Except EvidenceErr (Witness × Head) := do
  trust.verify signed
  let digest ← signed.statement.sha256
  let stream := signed.statement.streamID
  let sequence := signed.statement.sequence
  require ((w.seen stream sequence).all (· = digest)) .equivocation
  return (⟨fun s n => if s = stream ∧ n = sequence then some digest else w.seen s n⟩,
    ⟨stream, sequence, digest⟩)

end

end WeaverSSH.Evidence
