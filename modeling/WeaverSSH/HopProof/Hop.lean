import WeaverSSH.AuthProof.NodeContext

/-!
# Hop chains

A chain of hops is the path to the current node: one record for each node before it, signed by that
node, naming the next one, and linked to the record before by its digest. `append` signs the next
record, `verify` checks a chain at the node it leads to, and `encode` and `decode` carry it as one
base-64 word of JSON.

SSH signatures are a parameter. `verify` walks over the records with the cache, so that what an
early record stored stays stored where a later one is refused.
-/

namespace WeaverSSH.HopProof

open AuthProof Base64 Json

structure Hop where
  version : Text := []
  chainID : Text := []
  chainSHA256 : Text := []
  rootNode : Text := []
  fromNode : Text := []
  toNode : Text := []
  hopIndex : ℤ := 0
  parentHopSHA256 : Text := []
  parentSessionBinding : Text := []
  nonce : Text := []
  issuedAtUnix : ℤ := 0
  expiresAtUnix : ℤ := 0
deriving DecidableEq, Repr

structure SignedHop where
  principal : Text := []
  hop : Hop := {}
  signature : Text := []
deriving DecidableEq, Repr

structure Chain where
  version : Text := []
  hops : List SignedHop := []
deriving DecidableEq, Repr

/-- The errors of the package, with the number of the record they are about. -/
inductive HopErr where
  | invalidChain
  | hopCount (got expected : ℕ)
  | currentNodeMissing (node : Text)
  | wrongHop (record : ℕ)
  | firstHopBound
  | bindingMissing (record : ℕ)
  | invalidValidity (record : ℕ)
  | notYetValid (record : ℕ)
  | expiredHop (record : ℕ)
  | signatureEncoding (record : ℕ)
  | signature (record : ℕ)
  | replay (record : ℕ)
  | notAtCurrentNode
  | noNextNode
  | noPreviousNode
  | bindingRequired
  | tooManyHops
  | encodedTooLong
  | signing
  | entropy
  | context (err : AuthErr)
deriving DecidableEq, Repr

def chainVersion : Text := "weaverssh.hop-chain.v1"

def hopVersion : Text := "weaverssh.hop.v1"

def maxHops : ℕ := 16

def maxEncodedBytes : ℕ := 48 * 1024

/-- The JSON text of a hop; an empty digest or binding is left out. -/
def Hop.json (h : Hop) : Json :=
  .obj ([(text "version", .str h.version), (text "chain_id", .str h.chainID),
    (text "chain_sha256", .str h.chainSHA256), (text "root_node", .str h.rootNode),
    (text "from_node", .str h.fromNode), (text "to_node", .str h.toNode),
    (text "hop_index", .int h.hopIndex)] ++
    (optional "parent_hop_sha256" h.parentHopSHA256 ++
    (optional "parent_session_binding" h.parentSessionBinding ++
    [(text "nonce", .str h.nonce), (text "issued_at_unix", .int h.issuedAtUnix),
    (text "expires_at_unix", .int h.expiresAtUnix)])))

def SignedHop.json (s : SignedHop) : Json :=
  .obj [("principal", .str s.principal), ("hop", s.hop.json),
    ("signature", .str s.signature)]

def Chain.json (c : Chain) : Json :=
  .obj [("version", .str c.version), ("hops", .arr (c.hops.map SignedHop.json))]

def Hop.member (h : Hop) (key : Text) (j : Json) : Option Hop :=
  if named key "version" then (readText h.version j).map fun v => { h with version := v }
  else if named key "chain_id" then
    (readText h.chainID j).map fun v => { h with chainID := v }
  else if named key "chain_sha256" then
    (readText h.chainSHA256 j).map fun v => { h with chainSHA256 := v }
  else if named key "root_node" then
    (readText h.rootNode j).map fun v => { h with rootNode := v }
  else if named key "from_node" then
    (readText h.fromNode j).map fun v => { h with fromNode := v }
  else if named key "to_node" then
    (readText h.toNode j).map fun v => { h with toNode := v }
  else if named key "hop_index" then
    (readInt64 h.hopIndex j).map fun v => { h with hopIndex := v }
  else if named key "parent_hop_sha256" then
    (readText h.parentHopSHA256 j).map fun v => { h with parentHopSHA256 := v }
  else if named key "parent_session_binding" then
    (readText h.parentSessionBinding j).map fun v => { h with parentSessionBinding := v }
  else if named key "nonce" then (readText h.nonce j).map fun v => { h with nonce := v }
  else if named key "issued_at_unix" then
    (readInt64 h.issuedAtUnix j).map fun v => { h with issuedAtUnix := v }
  else if named key "expires_at_unix" then
    (readInt64 h.expiresAtUnix j).map fun v => { h with expiresAtUnix := v }
  else some h

def SignedHop.member (s : SignedHop) (key : Text) (j : Json) : Option SignedHop :=
  if named key "principal" then
    (readText s.principal j).map fun v => { s with principal := v }
  else if named key "hop" then
    (decode Hop.member s.hop j).map fun v => { s with hop := v }
  else if named key "signature" then
    (readText s.signature j).map fun v => { s with signature := v }
  else some s

def Chain.member (c : Chain) (key : Text) (j : Json) : Option Chain :=
  if named key "version" then (readText c.version j).map fun v => { c with version := v }
  else if named key "hops" then
    (readList {} (decode SignedHop.member) c.hops j).map fun v => { c with hops := v }
  else some c

section

variable [Unicode]

def normalizeHop (h : Hop) : Hop :=
  { h with
    version := orElse h.version hopVersion
    chainID := trimSpace h.chainID
    chainSHA256 := toLower (trimSpace h.chainSHA256)
    rootNode := trimSpace h.rootNode
    fromNode := trimSpace h.fromNode
    toNode := trimSpace h.toNode
    parentHopSHA256 := toLower (trimSpace h.parentHopSHA256)
    parentSessionBinding := trimSpace h.parentSessionBinding
    nonce := trimSpace h.nonce }

def validateHop (h : Hop) : Bool :=
  h.version = hopVersion && h.chainID ≠ [] && h.rootNode ≠ [] && h.fromNode ≠ [] &&
    h.toNode ≠ [] && h.nonce ≠ [] && 0 < h.hopIndex && len h.chainSHA256 == 64 &&
    (h.parentHopSHA256 = [] || len h.parentHopSHA256 == 64) && h.issuedAtUnix < h.expiresAtUnix

def canonicalHopBytes (h : Hop) : Except HopErr (List UInt8) := do
  let h := normalizeHop h
  require (validateHop h) .invalidChain
  return marshal h.json

def signedHopDigest [SHA256] (s : SignedHop) : Except HopErr Text := do
  let s : SignedHop := ⟨trimSpace s.principal, normalizeHop s.hop, s.signature⟩
  require (s.principal ≠ [] && s.signature ≠ []) .invalidChain
  return SHA256.hex (marshal s.json)

def currentIndex (ctx : NodeContext) : Except HopErr ℕ :=
  let ctx := ctx.normalized
  match ctx.validate with
  | .error e => .error (.context e)
  | .ok () =>
    match ctx.nodes.idxOf? ctx.currentNode with
    | some index => .ok index
    | none => .error (.currentNodeMissing ctx.currentNode)

/-- `randomNonce`, from the bytes the system's source gives. -/
def randomNonce (entropy : Option (List UInt8)) : Except HopErr Text :=
  match entropy with
  | none => .error .entropy
  | some raw => .ok (encode raw)

variable [SHA256]

def Chain.lastDigest (c : Chain) : Except HopErr Text :=
  match c.hops.getLast? with
  | none => .ok []
  | some last => signedHopDigest last

def append (nodeContext : NodeContext) (parent : Chain) (parentBinding : Text) (ttl : Duration)
    (now clock : Time) (entropy : Option (List UInt8))
    (sign : Text → List UInt8 → Option (List UInt8)) : Except HopErr Chain := do
  let nodeContext := nodeContext.normalized
  let index ← currentIndex nodeContext
  require (index + 1 < nodeContext.nodes.length) .noNextNode
  let ttl := if ttl ≤ 0 then 5 * 60 * second else ttl
  let now := nowOr now clock
  require (parent.hops.length = index) (.hopCount parent.hops.length index)
  require (index = 0 || trimSpace parentBinding ≠ []) .bindingRequired
  -- the first node starts a chain, whatever it was given
  let parent : Chain := if index = 0 then ⟨chainVersion, []⟩ else parent
  let parentBinding := if index = 0 then [] else parentBinding
  let parentDigest ← parent.lastDigest
  let nonce ← randomNonce entropy
  let hop : Hop :=
    { version := hopVersion
      chainID := nodeContext.chainID
      chainSHA256 := nodeContext.chainSHA256
      rootNode := nodeContext.nodes.getD 0 []
      fromNode := nodeContext.currentNode
      toNode := nodeContext.nodes.getD (index + 1) []
      hopIndex := index + 1
      parentHopSHA256 := parentDigest
      parentSessionBinding := trimSpace parentBinding
      nonce := nonce
      issuedAtUnix := unix now
      expiresAtUnix := unix (now + ttl) }
  let message ← canonicalHopBytes hop
  let signature ← (sign hop.fromNode message).elim (.error .signing) .ok
  require (signature ≠ []) (.signature index)
  let signed : SignedHop := ⟨hop.fromNode, hop, encode signature⟩
  require (parent.hops.length + 1 ≤ maxHops) .tooManyHops
  return ⟨chainVersion, parent.hops ++ [signed]⟩

/-- What `Verify` is configured with, but for the cache. -/
structure VerifyOptions where
  now : Time := zeroTime
  maxTTL : Duration := 0
  clockSkew : Duration := 0
deriving Repr

/-- The limit on a hop's lifetime: ten minutes where none is set. -/
def VerifyOptions.limit (o : VerifyOptions) : Duration :=
  if o.maxTTL ≤ 0 then 10 * 60 * second else o.maxTTL

def VerifyOptions.skew (o : VerifyOptions) : Duration := if o.clockSkew < 0 then 0 else o.clockSkew

def checkSignature (verifier : Text → List UInt8 → List UInt8 → Bool) (record : ℕ)
    (principal : Text) (message : List UInt8) (signature : Text) : Except HopErr Unit :=
  match decode signature with
  | none => .error (.signatureEncoding record)
  | some signature => do
    require (signature ≠ []) (.signatureEncoding record)
    require (verifier principal message signature) (.signature record)

/-- What one record of the chain is checked for before its nonce is; the record, normalised. -/
def admitHop (nodeContext : NodeContext) (verifier : Text → List UInt8 → List UInt8 → Bool)
    (options : VerifyOptions) (now : Time) (record : ℕ) (previousDigest : Text)
    (signed : SignedHop) : Except HopErr Hop := do
  let hop := normalizeHop signed.hop
  let expectedFrom := nodeContext.nodes.getD record []
  let expectedTo := nodeContext.nodes.getD (record + 1) []
  require (signed.principal = expectedFrom && hop.fromNode = expectedFrom &&
    hop.toNode = expectedTo && hop.hopIndex = record + 1 &&
    hop.rootNode = nodeContext.nodes.getD 0 [] && hop.chainID = nodeContext.chainID &&
    hop.chainSHA256 = nodeContext.chainSHA256 && hop.parentHopSHA256 = previousDigest)
    (.wrongHop record)
  require (!(record = 0 && hop.parentSessionBinding ≠ [])) .firstHopBound
  require (!(0 < record && hop.parentSessionBinding = [])) (.bindingMissing record)
  require (0 < hop.issuedAtUnix && hop.issuedAtUnix < hop.expiresAtUnix &&
    seconds (int64 (hop.expiresAtUnix - hop.issuedAtUnix)) ≤ options.limit)
    (.invalidValidity record)
  require (hop.issuedAtUnix ≤ unix (now + options.skew)) (.notYetValid record)
  require (unix (now - options.skew) < hop.expiresAtUnix) (.expiredHop record)
  let message ← canonicalHopBytes hop
  checkSignature verifier record signed.principal message signed.signature
  return hop

/-- The records from one on: `previousDigest` is the digest of the record before. -/
def verifyHops (nodeContext : NodeContext) (verifier : Text → List UInt8 → List UInt8 → Bool)
    (options : VerifyOptions) (now : Time) :
    Option NonceCache → ℕ → Text → List SignedHop → Option NonceCache × Except HopErr Unit
  | cache, _, _, [] => (cache, .ok ())
  | cache, record, previousDigest, signed :: rest =>
    match admitHop nodeContext verifier options now record previousDigest signed with
    | .error e => (cache, .error e)
    | .ok hop =>
      match checkAndStore cache hop.nonce hop.expiresAtUnix now with
      | (cache, .error _) => (cache, .error (.replay record))
      | (cache, .ok ()) =>
        match signedHopDigest ⟨signed.principal, hop, signed.signature⟩ with
        | .error e => (cache, .error e)
        | .ok digest =>
          verifyHops nodeContext verifier options now cache (record + 1) digest rest

def verify (cache : Option NonceCache) (nodeContext : NodeContext) (chain : Chain)
    (verifier : Text → List UInt8 → List UInt8 → Bool) (options : VerifyOptions) (clock : Time) :
    Option NonceCache × Except HopErr Unit :=
  let nodeContext := nodeContext.normalized
  match currentIndex nodeContext with
  | .error e => (cache, .error e)
  | .ok index =>
    if index = 0 then (cache, .error .noPreviousNode)
    else if chain.version ≠ chainVersion || chain.hops.length ≠ index ||
        maxHops < chain.hops.length then
      (cache, .error (.hopCount chain.hops.length index))
    else
      match verifyHops nodeContext verifier options (nowOr options.now clock) cache 0 []
          chain.hops with
      | (cache, .error e) => (cache, .error e)
      | (cache, .ok ()) =>
        -- the last record's destination is compared as it was written
        if (chain.hops.getLast?.map fun s => s.hop.toNode) = some nodeContext.currentNode then
          (cache, .ok ())
        else (cache, .error .notAtCurrentNode)

end

/-! ## The encoded chain -/

def encode (chain : Chain) : Except HopErr Text := do
  require (chain.version = chainVersion && chain.hops ≠ [] && chain.hops.length ≤ maxHops)
    .invalidChain
  let encoded := Base64.encode (Json.marshal chain.json)
  require (len encoded ≤ maxEncodedBytes) .encodedTooLong
  return encoded

def decode (encoded : Text) : Except HopErr Chain := do
  let encoded := trimSpace encoded
  require (encoded ≠ [] && len encoded ≤ maxEncodedBytes) .invalidChain
  match ((Base64.decode encoded).bind fun payload => Json.parse (ofBytes payload)).bind
      (Json.decode Chain.member {}) with
  | none => .error .invalidChain
  | some chain =>
    require (chain.version = chainVersion && chain.hops ≠ [] && chain.hops.length ≤ maxHops)
      .invalidChain
    return chain

end WeaverSSH.HopProof
