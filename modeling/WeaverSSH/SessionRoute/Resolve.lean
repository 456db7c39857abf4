import WeaverSSH.SessionControl.Registry
import WeaverSSH.SessionLink.Types

/-!
# References to the nodes of a chain

`resolveNode` reads a reference to a node with nothing but the signed context of the node it is
given to: a word for a place in the chain, or else a name. If it finds a node, it is the one the
reference names (`nameIn`), and in the chain (`resolveNode_eq_ok`).
-/

namespace WeaverSSH.SessionRoute

open AuthProof SessionControl SessionLink

/-- The errors of the package, and those of the packages below. -/
inductive RouteErr where
  | noRoute
  | targetLocal
  | targetUnknown (name : Option Text)
  | invalidEntry
  | tooLarge
  | unsupportedVersion (version : Text)
  | encode
  | decode
  | storage
  | notRoutable
  | context (err : AuthErr)
  | link (err : LinkErr)
  | broker
deriving DecidableEq, Repr

/-- The words `ResolveNode` knows. -/
def nodeAliases : List (Text × Alias) :=
  [("self", .self), ("local", .self), ("here", .self), ("this", .self),
    ("current", .self), (".", .self), ("previous", .previous),
    ("prev", .previous), ("next", .next), ("endpoint", .endpoint),
    ("last", .endpoint), ("remote", .endpoint)]

section

variable [Unicode]

/-- The name a reference stands for in a normalised context. -/
def nameIn (ctx : NodeContext) (name : Text) : Except RouteErr Text :=
  match nodeAliases.lookup (toLower name) with
  | none => .ok name
  | some .self => .ok ctx.currentNode
  | some .previous =>
    match ctx.nodes.idxOf? ctx.currentNode with
    | some (index + 1) => .ok (ctx.nodes.getD index [])
    | _ => .error (.targetUnknown none)
  | some .next =>
    match ctx.nodes.idxOf? ctx.currentNode with
    | some index => (ctx.nodes[index + 1]?).elim (.error (.targetUnknown none)) .ok
    | none => .error (.targetUnknown none)
  | some .endpoint => ctx.nodes.getLast?.elim (.error (.targetUnknown none)) .ok

def resolveNode (ctx : NodeContext) (raw : Text) : Except RouteErr (Text × ℕ) := do
  let ctx := ctx.normalized
  let name ← nameIn ctx (trimSpace raw)
  let index ← (ctx.nodes.idxOf? name).elim (.error (.targetUnknown (some name))) .ok
  return (name, index)

lemma resolveNode_eq_ok {ctx : NodeContext} {raw name : Text} {index : ℕ} :
    resolveNode ctx raw = .ok (name, index) ↔ nameIn ctx.normalized (trimSpace raw) = .ok name ∧
        ctx.normalized.nodes.idxOf? name = some index := by
  simp only [resolveNode, checks_ok, elim_eq_ok, Prod.mk.injEq]
  constructor
  · rintro ⟨m, hm, i, hi, rfl, rfl⟩
    exact ⟨hm, hi⟩
  · rintro ⟨hm, hi⟩
    exact ⟨name, hm, index, hi, rfl, rfl⟩

end

end WeaverSSH.SessionRoute
