import WeaverSSH.Framework.Checks
import WeaverSSH.Framework.Text

/-!
# Paths with groups in them

A path of connections is a list of steps, each the name of a node or a selector `group:NAME` for one
of the members of a group: pinned by the operator, printed by a program, or the only one there is.
`resolvePath` makes a path of nodes of it. With a set of signed nodes (`loadSignedNodeSet`) every
member of a group that is used has to be in it, and the one that is chosen.
-/

namespace WeaverSSH.Connections

structure ConnGroup where
  name : Text
  members : List Text
deriving DecidableEq, Repr

/-- `ConnStore`: the groups in it. -/
structure ConnStore where
  groups : List ConnGroup
deriving DecidableEq, Repr

/-- `ConnChain`: the steps of it. -/
structure ConnChain where
  nodes : List Text
deriving DecidableEq, Repr

inductive ConnErr where
  | unknownGroup (group : Text)
  | noMembers (group : Text)
  | memberNotSigned (group member : Text)
  | notMember (chosen group : Text)
  | notSigned (chosen : Text)
  | ambiguous (group : Text) (members : ℕ)
  | emptyResolver
  | resolver (group : Text)
  | nodeContext
deriving DecidableEq, Repr

/-- What the file of a signed context has of it, in its `context` or at its top. -/
structure NodeContextFile where
  context : Option (List Text)
  nodes : List Text
deriving DecidableEq, Repr

/-- A character for all those that differ from it in case only, as `unicode.SimpleFold` says. -/
class CaseFolding where
  fold : Char → Char

/-- `strings.EqualFold`: bytes that are part of no character are all read alike. -/
def equalFold [CaseFolding] (s t : Text) : Bool :=
  s.map foldRune = t.map foldRune
where
  foldRune : Rune → Char
    | .char c => CaseFolding.fold c
    | .raw _ => CaseFolding.fold '�'

def fieldsFunc (separates : Rune → Bool) (t : Text) : List Text :=
  (t.splitOnP separates).filter (· ≠ [])

def replaceArrows : Text → Text
  | .char '-' :: .char '>' :: rest => .char ',' :: replaceArrows rest
  | .char '=' :: .char '>' :: rest => .char ',' :: replaceArrows rest
  | .char '→' :: rest => .char ',' :: replaceArrows rest
  | r :: rest => r :: replaceArrows rest
  | [] => []

def isBracket (r : Rune) : Bool :=
  r = .char '[' || r = .char ']' || r = .char '(' || r = .char ')'

/-- `strings.Trim` of brackets. -/
def trimBrackets (t : Text) : Text := (t.dropWhile isBracket).rdropWhile isBracket

def splitChainNodes (raw : Text) : List Text :=
  let fields := fieldsFunc (fun r =>
    r = .char ',' || r = .char '+' || r = .char ';' || r.isSpace) (replaceArrows raw)
  (fields.map fun field => trimBrackets (trimSpace field)).filter (· ≠ [])

/-- `readNodeContext`, but for the current node. -/
def readNodeContext (read : Text → Option NodeContextFile) (path : Text) :
    Except ConnErr (List Text) :=
  if trimSpace path = [] then .ok []
  else
    match read path with
    | none => .error .nodeContext
    | some file => .ok (file.context.getD file.nodes)

def signedNames (nodes : List Text) : List Text := (nodes.map trimSpace).filter (· ≠ [])

/-- The set that is supplied, in an argument and in a file. -/
def suppliedNodes (read : Text → Option NodeContextFile) (list contextFile : Text) :
    Except ConnErr (List Text) := do
  let nodes ← if trimSpace contextFile ≠ [] then readNodeContext read contextFile else .ok []
  return signedNames (splitChainNodes list) ++ signedNames nodes

/-- `loadSignedNodeSet`: an empty set is none. -/
def loadSignedNodeSet (read : Text → Option NodeContextFile) (list contextFile : Text) :
    Except ConnErr (Option (List Text)) := do
  let set ← suppliedNodes read list contextFile
  return if set = [] then none else some set

def runGroupResolver (run : List Text → ConnGroup → Option Text) (g : ConnGroup)
    (resolver : Text) : Except ConnErr Text :=
  if hasPrefix resolver "exec:" then do
    let fields := fieldsFunc Rune.isSpace (trimPrefix resolver "exec:")
    require (fields ≠ []) .emptyResolver
    let out ← (run fields g).elim (.error (.resolver g.name)) .ok
    return trimSpace out
  else .ok resolver

def chooseGroupMember (run : List Text → ConnGroup → Option Text) (g : ConnGroup)
    (pin resolver : Text) : Except ConnErr Text :=
  if trimSpace pin ≠ [] then .ok (trimSpace pin)
  else if trimSpace resolver ≠ [] then runGroupResolver run g (trimSpace resolver)
  else
    match g.members with
    | [member] => .ok (trimSpace member)
    | members => .error (.ambiguous g.name members.length)

/-- `selectorGroup`: the name in a selector. -/
def selectorGroup [Unicode] (ref : Text) : Option Text :=
  if hasPrefix (toLower (trimSpace ref)) "group:" then
    some (trimSpace (ofBytes ((bytes (trimSpace ref)).drop 6)))
  else none

section

variable [CaseFolding]

def findGroup (store : ConnStore) (name : Text) : Option ConnGroup :=
  store.groups.find? fun g => equalFold g.name (trimSpace name)

def groupContains (group : ConnGroup) (member : Text) : Bool :=
  group.members.any fun m => equalFold (trimSpace m) (trimSpace member)

variable [Unicode]

/-- `resolveStep`; `none` for a signed set is no restriction. -/
def resolveStep (run : List Text → ConnGroup → Option Text) (store : ConnStore)
    (selects resolvers : Text → Text) (signed : Option (List Text)) (node : Text) :
    Except ConnErr Text :=
  match selectorGroup node with
  | none => .ok node
  | some group => do
    let g ← (findGroup store group).elim (.error (.unknownGroup group)) .ok
    require (g.members ≠ []) (.noMembers group)
    match signed with
    | none => pure ()
    | some set =>
      requireNone (g.members.find? (trimSpace · ∉ set)) fun m => .memberNotSigned group m
    let chosen ← chooseGroupMember run g (selects group) (resolvers group)
    require (groupContains g chosen) (.notMember chosen group)
    match signed with
    | none => pure ()
    | some set => require (chosen ∈ set) (.notSigned chosen)
    return chosen

def resolvePath (run : List Text → ConnGroup → Option Text) (store : ConnStore) (chain : ConnChain)
    (selects resolvers : Text → Text) (signed : Option (List Text)) :
    Except ConnErr (List Text) :=
  chain.nodes.mapM (resolveStep run store selects resolvers signed)

end

end WeaverSSH.Connections
