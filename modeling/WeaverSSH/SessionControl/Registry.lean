import WeaverSSH.AuthProof.NodeContext
import WeaverSSH.SessionMux.Frame

/-!
# The registry of a session's nodes

A `Registry` holds the nodes of one chain that have registered: the position in the chain, the
signed context, and the services each offers. The first registration fixes the chain;
`registerVerified` refuses another chain, a context older than the node has, and a service that its
capabilities do not cover.

`resolve` reads a reference to a node as seen from a node, `authorize` asks the node found for a
service, and `referenceResolvesToLocal` is for a node that keeps no registry. The map of nodes is a
function.
-/

namespace WeaverSSH.SessionControl

open AuthProof SessionMux

/-- What `ErrUnknownNode` is wrapped with. -/
inductive Unknown where
  | named (name : Text)
  | noPrevious (node : Text)
  | noNext (node : Text)
  | empty
deriving DecidableEq, Repr

/-- The errors of the registry, and those of the package below. -/
inductive RegistryErr where
  | auth (err : AuthErr)
  | invalidService (service : ServiceID)
  | missingCapability (node : Text) (service : ServiceID)
  | chainMismatch
  | unknownNode (detail : Unknown)
  | staleRegistration
  | serviceUnavailable (node : Text) (service : ServiceID)
deriving DecidableEq, Repr

/-- `Node`: its services are a set. -/
structure Node where
  id : Text
  index : ℕ
  context : NodeContext
  services : Finset ServiceID
deriving DecidableEq

def Node.supports (n : Node) (service : ServiceID) : Bool := service ∈ n.services

structure Registry where
  chainID : Text
  chainSHA256 : Text
  order : List Text
  nodes : Text → Option Node

def newRegistry : Registry := ⟨[], [], [], fun _ => none⟩

/-! ## Services -/

def containsCapability (capabilities : List Text) (want : Text) : Bool :=
  capabilities.any fun capability => trimSpace capability = want

def serviceAuthorizedByCapabilities (capabilities : List Text) (service : ServiceID) : Bool :=
  if service = serviceControl then containsCapability capabilities "node.context"
  else if service = serviceFS then
    containsCapability capabilities "vfs.mesh" || containsCapability capabilities "file.backhaul"
  else if service = serviceTCP ∨ service = serviceUDP then
    containsCapability capabilities "socks.proxy"
  else if service = serviceExec ∨ service = serviceEvents then
    containsCapability capabilities "compute.mapreduce"
  else false

/-- What the loop of `normalizeServices` asks of one service. -/
def checkService (ctx : NodeContext) (service : ServiceID) : Except RegistryErr Unit := do
  require service.valid (.invalidService service)
  require (serviceAuthorizedByCapabilities ctx.capabilities service)
    (.missingCapability ctx.currentNode service)

/-- `normalizeServices`: the control service is always one of them. -/
def normalizeServices (ctx : NodeContext) (services : List ServiceID) :
    Except RegistryErr (Finset ServiceID) := do
  let requested := serviceControl :: services
  requested.forM (checkService ctx)
  return requested.toFinset

section

variable [Unicode]

/-- `cloneNode`. -/
def Node.clone (n : Node) : Node := { n with context := n.context.normalized }

/-! ## Registration -/

/-- What `RegisterVerified` asks before it takes the lock. -/
def admitRegistration (ctx : NodeContext) (services : List ServiceID) (clock : Time) :
    Except RegistryErr (NodeContext × Finset ServiceID) := do
  let ctx := ctx.normalized
  ctx.validate.mapError .auth
  require (unix clock < ctx.expiresAtUnix) (.auth .expiredGrant)
  let normalizedServices ← normalizeServices ctx services
  return (ctx, normalizedServices)

/-- The chain of the first registration is the registry's. -/
def Registry.adopt (r : Registry) (ctx : NodeContext) : Except RegistryErr Registry :=
  if r.chainID = [] then
    .ok { r with chainID := ctx.chainID, chainSHA256 := ctx.chainSHA256, order := ctx.nodes }
  else if r.chainID ≠ ctx.chainID ∨ r.chainSHA256 ≠ ctx.chainSHA256 ∨ r.order ≠ ctx.nodes then
    .error .chainMismatch
  else .ok r

/-- The node a context registers, where it is in the chain and is not older than the context its
node has. -/
def Registry.place (r : Registry) (ctx : NodeContext) (services : Finset ServiceID) :
    Except RegistryErr Node := do
  let index ← (r.order.idxOf? ctx.currentNode).elim
    (.error (.unknownNode (.named ctx.currentNode))) .ok
  require ((r.nodes ctx.currentNode).all fun existing =>
    existing.context.issuedAtUnix ≤ ctx.issuedAtUnix) .staleRegistration
  return ⟨ctx.currentNode, index, ctx, services⟩

/-- `r.nodes[node.ID] = node`. -/
def Registry.store (r : Registry) (node : Node) : Registry :=
  { r with nodes := Function.update r.nodes node.id (some node) }

/-- `RegisterVerified`. The chain is set before the last two checks are made, and a registration
they refuse leaves it set. -/
def Registry.registerVerified (r : Registry) (ctx : NodeContext) (services : List ServiceID)
    (clock : Time) : Registry × Except RegistryErr Node :=
  match admitRegistration ctx services clock with
  | .error e => (r, .error e)
  | .ok (ctx, normalizedServices) =>
    match r.adopt ctx with
    | .error e => (r, .error e)
    | .ok adopted =>
      match adopted.place ctx normalizedServices with
      | .error e => (adopted, .error e)
      | .ok node => (adopted.store node, .ok node.clone)

/-! ## References -/

/-- The nodes a reference may name by their place. -/
inductive Alias where
  | self
  | previous
  | next
  | endpoint
deriving DecidableEq, Repr

/-- The words `Resolve` knows. -/
def registryAliases : List (Text × Alias) :=
  [("endpoint", .endpoint), ("target", .endpoint), ("remote", .endpoint),
    ("last", .endpoint), ("self", .self), ("local", .self), ("here", .self),
    ("this", .self), ("current", .self), (".", .self),
    ("previous", .previous), ("prev", .previous), ("next", .next)]

def Registry.nameOf (r : Registry) (name currentNode : Text) : Except RegistryErr Text :=
  match registryAliases.lookup (toLower name) with
  | none => .ok name
  | some .endpoint => .ok (r.order.getLastD name)
  | some .self => .ok currentNode
  | some .previous =>
    match r.order.idxOf? currentNode with
    | some (index + 1) => .ok (r.order.getD index [])
    | _ => .error (.unknownNode (.noPrevious currentNode))
  | some .next =>
    match r.order.idxOf? currentNode with
    | some index => (r.order[index + 1]?).elim (.error (.unknownNode (.noNext currentNode))) .ok
    | none => .error (.unknownNode (.noNext currentNode))

def Registry.resolve (r : Registry) (ref currentNode : Text) : Except RegistryErr Node := do
  let name ← r.nameOf (trimSpace ref) (trimSpace currentNode)
  require (name ≠ []) (.unknownNode .empty)
  let node ← (r.nodes name).elim (.error (.unknownNode (.named name))) .ok
  return node.clone

def Registry.authorize (r : Registry) (nodeRef currentNode : Text) (service : ServiceID) :
    Except RegistryErr Node := do
  let node ← r.resolve nodeRef currentNode
  require (node.supports service) (.serviceUnavailable node.id service)
  return node

/-! ## References to the local node -/

/-- The words `referenceResolvesToLocal` knows. -/
def localAliases : List (Text × Alias) :=
  [("self", .self), ("local", .self), ("here", .self), ("this", .self),
    ("current", .self), (".", .self), ("endpoint", .endpoint),
    ("target", .endpoint), ("remote", .endpoint), ("last", .endpoint),
    ("previous", .previous), ("prev", .previous), ("next", .next)]

/-- `referenceResolvesToLocal`: who asks is not known here, and the words for a neighbour of the one
who asks never mean the local node. -/
def referenceResolvesToLocal (ref : Text) (context : NodeContext) : Bool :=
  let ref := trimSpace ref
  match localAliases.lookup (toLower ref) with
  | some .self => true
  | some .endpoint => context.currentNode = context.endpointNode
  | some .previous => false
  | some .next => false
  | none => ref = context.currentNode

end

end WeaverSSH.SessionControl
