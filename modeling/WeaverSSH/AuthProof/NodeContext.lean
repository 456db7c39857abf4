import WeaverSSH.AuthProof.Proof

/-!
# Signed node contexts

A `NodeContext` places the local node in a chain of nodes, with a window of validity.
`verifySignedNodeContext` accepts a signed one and stores its nonce in the same cache that grants
use.

Normalising trims every text, fills what may be left out from the chain, and drops blank and
repeated nodes. A second time changes nothing of a context that `validate` accepts
(`normalized_of_validate`).
-/

namespace WeaverSSH.AuthProof

section

variable [Unicode]

structure NodeContext where
  version : Text
  algorithm : Text
  issuerPeerID : Text
  audience : Text
  chainID : Text
  chainSHA256 : Text
  nodes : List Text
  currentNode : Text
  originNode : Text
  endpointNode : Text
  capabilities : List Text
  nonce : Text
  issuedAtUnix : ℤ
  expiresAtUnix : ℤ
deriving DecidableEq, Repr

structure SignedNodeContext where
  context : NodeContext
  signature : Text
deriving DecidableEq, Repr

/-- `NodeContextVerifyOptions`, but for the cache. -/
structure NodeContextVerifyOptions where
  now : Time := zeroTime
  audience : Text := []
  chainID : Text := []
  chainSHA256 : Text := []
  currentNode : Text := []
  maxTTL : Duration := 0
deriving Repr

def nodeContextVersion : Text := "weaverssh.node-context.v1"

def audienceNodeContext : Text := "wv-node-context"

def capabilityNodeContext : Text := "node.context"

def normalizeNodeContextNodes (nodes : List Text) : List Text := distinctTrimmed [] nodes

def NodeContext.normalized (c : NodeContext) : NodeContext :=
  let nodes := normalizeNodeContextNodes c.nodes
  let caps := normalizeCapabilities c.capabilities
  { c with
    version := orElse c.version nodeContextVersion
    algorithm := orElse c.algorithm AuthProof.algorithm
    issuerPeerID := trimSpace c.issuerPeerID
    audience := trimSpace (orElse c.audience audienceNodeContext)
    chainID := trimSpace c.chainID
    chainSHA256 := toLower (trimSpace c.chainSHA256)
    nodes := nodes
    currentNode := trimSpace c.currentNode
    originNode := orElse (trimSpace c.originNode) (nodes.headD [])
    endpointNode := orElse (trimSpace c.endpointNode) (nodes.getLastD [])
    capabilities := if caps = [] then [capabilityNodeContext] else caps
    nonce := trimSpace c.nonce }

def nodeInContext (nodes : List Text) (want : Text) : Bool := nodes.contains (trimSpace want)

def NodeContext.validate (c : NodeContext) : Except AuthErr Unit := do
  let c := c.normalized
  require (c.version = nodeContextVersion) (.invalidGrant (.unsupportedVersion c.version))
  require (c.algorithm = AuthProof.algorithm) (.invalidGrant (.unsupportedAlgorithm c.algorithm))
  requirePresent (fun name => .invalidGrant (.missing name))
    [("issuer_peer_id", c.issuerPeerID), ("audience", c.audience), ("chain_id", c.chainID),
      ("chain_sha256", c.chainSHA256), ("current_node", c.currentNode),
      ("origin_node", c.originNode), ("endpoint_node", c.endpointNode), ("nonce", c.nonce)]
  require (isLowerHexSHA256 c.chainSHA256) (.invalidGrant (.notLowerHex "chain_sha256"))
  require (c.nodes ≠ []) (.invalidGrant .noNodes)
  requireNone ([c.currentNode, c.originNode, c.endpointNode].find? (!nodeInContext c.nodes ·))
    fun node => .invalidGrant (.notInChain node)
  require (c.originNode = c.nodes.headD []) (.invalidGrant .originNotFirst)
  require (c.endpointNode = c.nodes.getLastD []) (.invalidGrant .endpointNotLast)
  require (hasCapability c.capabilities capabilityNodeContext) .missingCapability
  requireNone (c.capabilities.find? (!knownCapability ·)) fun cap =>
    .invalidGrant (.unknownCapability cap)
  require (validWindow c.issuedAtUnix c.expiresAtUnix) (.invalidGrant .validityWindow)

def NodeContext.json (c : NodeContext) : Json :=
  .obj [("version", .str c.version), ("algorithm", .str c.algorithm),
    ("issuer_peer_id", .str c.issuerPeerID), ("audience", .str c.audience),
    ("chain_id", .str c.chainID), ("chain_sha256", .str c.chainSHA256),
    ("nodes", .arr (c.nodes.map .str)), ("current_node", .str c.currentNode),
    ("origin_node", .str c.originNode), ("endpoint_node", .str c.endpointNode),
    ("capabilities", .arr (c.capabilities.map .str)), ("nonce", .str c.nonce),
    ("issued_at_unix", .int c.issuedAtUnix), ("expires_at_unix", .int c.expiresAtUnix)]

def canonicalNodeContextBytes (c : NodeContext) : Except AuthErr (List UInt8) := do
  let c := c.normalized
  c.validate
  return Json.marshal c.json

variable [Ed25519]

/-- `VerifySignedNodeContext` up to its replay check. -/
def admitNodeContext (sc : SignedNodeContext) (publicKey : List UInt8)
    (opts : NodeContextVerifyOptions) (clock : Time) : Except AuthErr NodeContext := do
  require (publicKey.length = publicKeySize) (.invalidGrant .publicKeySize)
  let ctx := sc.context.normalized
  ctx.validate
  let canonical ← canonicalNodeContextBytes ctx
  require (verifySignature publicKey canonical sc.signature) .invalidSignature
  checkLifetime ctx.issuedAtUnix ctx.expiresAtUnix opts.maxTTL (nowOr opts.now clock)
  require (opts.audience = [] || ctx.audience = opts.audience) .wrongAudience
  require (opts.chainID = [] || ctx.chainID = opts.chainID) .wrongChainHash
  require (opts.chainSHA256 = [] || ctx.chainSHA256 = toLower (trimSpace opts.chainSHA256))
    .wrongChainHash
  require (opts.currentNode = [] || ctx.currentNode = trimSpace opts.currentNode) .wrongSubject
  return ctx

def verifySignedNodeContext (cache : Option NonceCache) (sc : SignedNodeContext)
    (publicKey : List UInt8) (opts : NodeContextVerifyOptions) (clock : Time) :
    Option NonceCache × Except AuthErr NodeContext :=
  acceptOnce cache (admitNodeContext sc publicKey opts clock) NodeContext.nonce
    NodeContext.expiresAtUnix (nowOr opts.now clock)

/-! ## What is accepted -/

omit [Ed25519] in
@[simp]
lemma NodeContext.nodes_normalized (c : NodeContext) :
    c.normalized.normalized.nodes = c.normalized.nodes := by
  simp [NodeContext.normalized, normalizeNodeContextNodes]

omit [Ed25519] in
@[simp]
lemma NodeContext.currentNode_normalized (c : NodeContext) :
    c.normalized.normalized.currentNode = c.normalized.currentNode := by
  simp [NodeContext.normalized]

omit [Ed25519] in
@[simp]
lemma NodeContext.chainID_normalized (c : NodeContext) :
    c.normalized.normalized.chainID = c.normalized.chainID := by
  simp [NodeContext.normalized]

omit [Ed25519] in
@[simp]
lemma NodeContext.capabilities_normalized (c : NodeContext) :
    c.normalized.normalized.capabilities = c.normalized.capabilities := by
  have hdefault : normalizeCapabilities [capabilityNodeContext] = [capabilityNodeContext] := by
    decide
  by_cases hcaps : normalizeCapabilities c.capabilities = [] <;>
    simp [NodeContext.normalized, hcaps, hdefault]

variable {c : NodeContext}

omit [Ed25519] in
lemma NodeContext.mem_nodes {node : Text} (h : node ∈ c.normalized.nodes) :
    trimSpace node = node ∧ node ≠ [] :=
  ⟨(mem_distinctTrimmed h).1, (mem_distinctTrimmed h).2.1⟩

omit [Unicode] [Ed25519] in
lemma trimSpace_headD {nodes : List Text} (h : ∀ node ∈ nodes, trimSpace node = node) :
    trimSpace (nodes.headD []) = nodes.headD [] := by
  cases nodes with
  | nil => rfl
  | cons node rest => exact h node List.mem_cons_self

omit [Unicode] [Ed25519] in
lemma trimSpace_getLastD {nodes : List Text} (h : ∀ node ∈ nodes, trimSpace node = node) :
    trimSpace (nodes.getLastD []) = nodes.getLastD [] := by
  rcases List.eq_nil_or_concat nodes with rfl | ⟨rest, node, rfl⟩
  · rfl
  · rw [List.concat_eq_append, List.getLastD_concat]
    exact h node (by simp)

omit [Ed25519] in
lemma NodeContext.normalized_normalized (h : c.normalized.audience ≠ []) :
    c.normalized.normalized = c.normalized := by
  have htrim : ∀ node ∈ normalizeNodeContextNodes c.nodes, trimSpace node = node :=
    fun node hnode => (NodeContext.mem_nodes hnode).1
  have haudience : trimSpace (orElse (trimSpace (orElse c.audience audienceNodeContext))
      audienceNodeContext) = trimSpace (orElse c.audience audienceNodeContext) := by
    rw [@orElse_of_ne (trimSpace (orElse c.audience audienceNodeContext)) _ h, trimSpace_trimSpace]
  have horigin := trimSpace_orElse (trimSpace_trimSpace c.originNode) (trimSpace_headD htrim)
  have hendpoint := trimSpace_orElse (trimSpace_trimSpace c.endpointNode) (trimSpace_getLastD htrim)
  have hnodes : normalizeNodeContextNodes (normalizeNodeContextNodes c.nodes) =
      normalizeNodeContextNodes c.nodes := distinctTrimmed_distinctTrimmed c.nodes
  have hdefault : normalizeCapabilities [capabilityNodeContext] = [capabilityNodeContext] := by
    decide
  by_cases hcaps : normalizeCapabilities c.capabilities = [] <;>
    simp only [NodeContext.normalized, orElse_orElse, trimSpace_trimSpace, haudience,
      trimSpace_toLower, toLower_toLower, hnodes, horigin, hendpoint, hcaps, if_true, if_false,
      hdefault, List.cons_ne_nil, normalizeCapabilities_normalizeCapabilities]

omit [Ed25519] in
lemma NodeContext.normalized_of_validate (h : c.validate = .ok ()) :
    c.normalized.normalized = c.normalized ∧ c.normalized.validate = .ok () ∧
      isLowerHexSHA256 c.normalized.chainSHA256 = true ∧ c.normalized.chainID ≠ [] := by
  have hchecked := h
  simp only [NodeContext.validate, checks_ok, requirePresent_eq_ok, requireNone_eq_ok] at hchecked
  obtain ⟨-, -, hpresent, hhex, -⟩ := hchecked
  have hsame : c.normalized.normalized = c.normalized :=
    NodeContext.normalized_normalized (hpresent ("audience", _) (by simp))
  refine ⟨hsame, ?_, hhex, hpresent ("chain_id", _) (by simp)⟩
  rw [← h]
  unfold NodeContext.validate
  rw [hsame]

omit [Ed25519] in
lemma NodeContext.nodup_nodes (c : NodeContext) : c.normalized.nodes.Nodup :=
  nodup_distinctTrimmed

omit [Ed25519] in
lemma NodeContext.nodes_of_validate (h : c.validate = .ok ()) :
    c.normalized.currentNode ∈ c.normalized.nodes ∧
      c.normalized.nodes.getLast? = some c.normalized.endpointNode := by
  simp only [NodeContext.validate, checks_ok, requirePresent_eq_ok, requireNone_eq_ok,
    List.find?_eq_none, Bool.not_eq_true', Bool.not_eq_false] at h
  obtain ⟨-, -, -, -, hne, hin, -, hendpoint, -⟩ := h
  have hcurrent := hin c.normalized.currentNode List.mem_cons_self
  have htrim : trimSpace c.normalized.currentNode = c.normalized.currentNode :=
    trimSpace_trimSpace c.currentNode
  refine ⟨by simpa [nodeInContext, htrim] using hcurrent, ?_⟩
  rw [hendpoint, List.getLast?_eq_some_getLast hne, List.getLastD_eq_getLast?,
    List.getLast?_eq_some_getLast hne, Option.getD_some]

omit [Ed25519] in
lemma NodeContext.window_of_validate (h : c.validate = .ok ()) :
    0 < c.issuedAtUnix ∧ c.issuedAtUnix < c.expiresAtUnix := by
  simp only [NodeContext.validate, checks_ok, requirePresent_eq_ok, requireNone_eq_ok] at h
  obtain ⟨-, -, -, -, -, -, -, -, -, -, hwindow⟩ := h
  exact validWindow_iff.mp hwindow

lemma admitNodeContext_ok {sc : SignedNodeContext} {publicKey : List UInt8}
    {opts : NodeContextVerifyOptions} {clock : Time} {ctx : NodeContext}
    (h : admitNodeContext sc publicKey opts clock = .ok ctx) : ctx = sc.context.normalized ∧
      (0 < ctx.issuedAtUnix ∧ ctx.issuedAtUnix < ctx.expiresAtUnix) ∧
      checkLifetime ctx.issuedAtUnix ctx.expiresAtUnix opts.maxTTL (nowOr opts.now clock) =
        .ok () := by
  simp only [admitNodeContext, checks_ok] at h
  obtain ⟨-, ⟨⟩, hvalid, -, -, -, ⟨⟩, hlife, -, -, -, -, rfl⟩ := h
  exact ⟨rfl, NodeContext.window_of_validate hvalid, hlife⟩

end

end WeaverSSH.AuthProof
