import WeaverSSH.Framework.Checks
import WeaverSSH.Framework.FilePath

/-!
# References to paths of the published tree

`vfs.go` of the package `vfs`: a reference is `vfs://PATH`, `vfs::NODE:/PATH`, or `NODE:/PATH`, and
`ParsePath` tells the path of the tree that it stands for.

The environment's variables are a function. `unicode.IsLetter`, `unicode.IsDigit` and `net.ParseIP`
are left to `CharClasses` and `Addresses`.
-/

namespace WeaverSSH.Vfs

open FilePath

def scheme : Text := "vfs://"

def nodeScheme : Text := "vfs::"

def defaultNodeNamespace : Text := ".wv/nodes"

/-- `unicode.IsLetter` and `unicode.IsDigit`. -/
class CharClasses where
  isLetter : Char → Bool
  isDigit : Char → Bool
  slash_notLetter : isLetter '/' = false
  slash_notDigit : isDigit '/' = false

/-- Whether `net.ParseIP` accepts a text. -/
class Addresses where
  isIP : Text → Bool
  slash_notMem : ∀ t, isIP t = true → slash ∉ t

abbrev Env := Text → Text

/-- The first of the variables that has a value. -/
def firstEnv (env : Env) (keys : List String) : Text :=
  ((keys.map fun key => trimSpace (env (text key))).find? (· ≠ [])).getD []

inductive RefErr where
  | escapes (ref : Text)
  | notReference (ref : Text)
  | notNodeReference (ref : Text)
  | noPath (ref : Text)
  | emptyNode
  | invalidNode (ref : Text)
deriving DecidableEq, Repr

/-! ## Paths -/

/-- The loop of `cleanNamespacePath`. -/
def cleanSegments (ref : Text) : List Text → Except RefErr (List Text)
  | [] => .ok []
  | seg :: parts =>
    let seg := trimSpace seg
    if seg = [] ∨ seg = dot then cleanSegments ref parts
    else if seg = dotDot then .error (.escapes ref)
    else (cleanSegments ref parts).map (seg :: ·)

def cleanNamespacePath (ref rest : Text) : Except RefErr Text :=
  let rest := trimSlashes (trimPrefix rest [slash])
  if rest = [] ∨ rest = dot then .ok []
  else (cleanSegments ref (split rest '/')).map slashed

def joinNamespace (parts : List Text) : Text := slashed ((parts.map trimSlashes).filter (· ≠ []))

/-! ## Nodes -/

section

variable [CharClasses] [Addresses]

def nodeRune : Rune → Bool
  | .char c => !(c = '/' || c = '\\' || c = ':' || isSpace c) &&
    (CharClasses.isLetter c || CharClasses.isDigit c || c = '-' || c = '_' || c = '.' || c = '@')
  | .raw _ => false

/-- The characters of a user's name before an address. -/
def userRune : Rune → Bool
  | .char c => CharClasses.isLetter c || CharClasses.isDigit c || c = '-' || c = '_' || c = '.'
  | .raw _ => false

/-- What is after the last `@`, and what is before it. -/
def hostPart (ref : Text) : Text := ref.rtakeWhile (· ≠ .char '@')

def userPart (ref : Text) : Text :=
  if Rune.char '@' ∈ ref then (ref.rdropWhile (· ≠ .char '@')).dropLast else []

def nodePrefixes : List String :=
  ["node/", "nodes/", "profile/", "profiles/", "connection/", "connections/"]

variable [Unicode]

/-- The name without a prefix; as many bytes are cut off as the prefix has. -/
def stripNodePrefix (ref : Text) : Text :=
  match nodePrefixes.find? fun p => hasPrefix (toLower ref) (text p) with
  | some p => trimSpace (ofBytes ((bytes ref).drop (text p).length))
  | none => ref

def cleanNodeName (ref : Text) : Except RefErr Text :=
  let ref := stripNodePrefix (trimSpace ref)
  if ref = [] ∨ ref = dot ∨ ref = dotDot then .error (.invalidNode ref)
  else if Addresses.isIP (hostPart ref) then
    if (userPart ref).all userRune then .ok ref else .error (.invalidNode ref)
  else if ref.all nodeRune then .ok ref
  else .error (.invalidNode ref)

/-- `strings.NewReplacer` of the arrows. -/
def replaceArrows : Text → Text
  | .char '-' :: .char '>' :: rest => .char ',' :: replaceArrows rest
  | .char '=' :: .char '>' :: rest => .char ',' :: replaceArrows rest
  | .char '→' :: rest => .char ',' :: replaceArrows rest
  | r :: rest => r :: replaceArrows rest
  | [] => []

def nodeSeparator (r : Rune) : Bool := r = .char ',' || r = .char ';' || r = .char '+' || r.isSpace

def splitEnvNodeList (raw : Text) : List Text :=
  (((replaceArrows raw).splitOnP nodeSeparator).filter (· ≠ [])).filterMap fun field =>
    (cleanNodeName field).toOption

def chainNodes (env : Env) : List Text := splitEnvNodeList (firstEnv env ["WEAVERSSH_CHAIN_NODES"])

def originNames : List String := ["origin", "@origin", "workstation"]

def localNames : List String := ["local", "self", ".", "here", "this"]

def endpointNames : List String := ["endpoint", "target", "remote", "last"]

def firstNonempty (texts : List Text) : Text := (texts.find? (· ≠ [])).getD []

def resolveNodeRef (env : Env) (ref : Text) : Except RefErr Text :=
  let ref := trimSpace ref
  let lower := toLower ref
  if ref = [] then .error .emptyNode
  else if lower ∈ originNames.map text then
    cleanNodeName (firstNonempty [firstEnv env ["WEAVERSSH_ORIGIN_NODE", "WV_ORIGIN_NODE"],
      (chainNodes env).head?.getD [], "origin"])
  else if lower ∈ localNames.map text then
    cleanNodeName (firstNonempty [firstEnv env ["WEAVERSSH_NODE_ID", "WV_NODE"], "local"])
  else if lower ∈ endpointNames.map text then
    cleanNodeName (firstNonempty [firstEnv env ["WEAVERSSH_ENDPOINT_NODE", "WV_ENDPOINT_NODE"],
      (chainNodes env).getLast?.getD [], "endpoint"])
  else cleanNodeName ref

end

/-! ## References -/

/-- `splitBracketedIPv6Ref`: nothing where there are no brackets about a host, and the host and the
path where these are well formed. -/
def splitBracketedIPv6Ref (ref : Text) : Option (Option (Text × Text)) :=
  let front := ref.takeWhile (· ≠ .char '[')
  let opened := front.length
  let closed := (ref.takeWhile (· ≠ .char ']')).length
  if Rune.char '[' ∉ ref ∨ (front ≠ [] ∧ ¬ hasSuffix front "@") then none
  else if Rune.char ']' ∉ ref ∨ closed ≤ opened + 1 ∨ ref[closed + 1]? ≠ some (.char ':') then
    some none
  else
    let host := trimSpace ((ref.take closed).drop (opened + 1))
    if host = [] then some none
    else some (some (trimSpace (front ++ host), trimSpace (ref.drop (closed + 2))))

/-- `strings.Cut` at a colon. -/
def cutColon (t : Text) : Option (Text × Text) :=
  if Rune.char ':' ∈ t then
    some (t.takeWhile (· ≠ .char ':'), (t.dropWhile (· ≠ .char ':')).tail)
  else none

def splitNodeColonPath (rest : Text) : Option (Text × Text) :=
  match splitBracketedIPv6Ref rest with
  | some split => split
  | none => cutColon rest

/-- A drive's letter is one byte; one that is part of no character is taken for the character of its
number. -/
def driveLetter [CharClasses] : Rune → Bool
  | .char c => c.toNat < 128 && CharClasses.isLetter c
  | .raw b => CharClasses.isLetter (Char.ofNat b.toNat)

def isWindowsLocalPath [CharClasses] : Text → Bool
  | r :: .char ':' :: rest =>
    driveLetter r && (rest = [] || rest.head? = some (.char '\\') || rest.head? = some slash)
  | _ => false

def splitSCPStyleNodeRef [CharClasses] (ref : Text) : Option (Text × Text) :=
  let ref := trimSpace ref
  if ref = [] ∨ hasPrefix ref scheme ∨ hasPrefix ref nodeScheme ∨ "://" <:+: ref ∨
      isWindowsLocalPath ref then none
  else
    match splitBracketedIPv6Ref ref with
    | some split => split
    | none =>
      (cutColon ref).bind fun parts =>
        let nodeRef := trimSpace parts.1
        if nodeRef = [] ∨ "://" <:+: nodeRef ∨ slash ∈ nodeRef ∨ Rune.char '\\' ∈ nodeRef then none
        else some (nodeRef, trimSpace parts.2)

structure NodePath where
  raw : Text
  node : Text
  path : Text
  namespacePath : Text
deriving DecidableEq, Repr

/-- The subtree of the nodes, which a variable may tell. -/
def nodeNamespace (env : Env) : Text :=
  match cleanNamespacePath "WEAVERSSH_VFS_NODE_NAMESPACE"
      (firstEnv env ["WEAVERSSH_VFS_NODE_NAMESPACE"]) with
  | .error _ => defaultNodeNamespace
  | .ok path => if path = [] then defaultNodeNamespace else path

section

variable [CharClasses] [Addresses] [Unicode]

def buildNodePath (env : Env) (raw nodeRef pathPart : Text) : Except RefErr NodePath := do
  let node ← resolveNodeRef env nodeRef
  let rel ← cleanNamespacePath raw pathPart
  return ⟨raw, node, rel, joinNamespace [nodeNamespace env, node, rel]⟩

def parseNodePath (env : Env) (ref : Text) : Except RefErr NodePath :=
  if hasPrefix ref nodeScheme then
    match splitNodeColonPath (trimPrefix ref nodeScheme) with
    | none => .error (.noPath ref)
    | some (nodeRef, pathPart) => buildNodePath env ref nodeRef pathPart
  else .error (.notNodeReference ref)

/-- `ParseSCPStyleNodePath`: nothing where the reference has another form. -/
def parseSCPStyleNodePath (env : Env) (ref : Text) : Option (Except RefErr NodePath) :=
  (splitSCPStyleNodeRef ref).map fun parts => buildNodePath env ref parts.1 parts.2

def parsePath (env : Env) (ref : Text) : Except RefErr Text :=
  if hasPrefix ref nodeScheme then (parseNodePath env ref).map NodePath.namespacePath
  else if hasPrefix ref scheme then
    cleanNamespacePath ref (trimPrefix (trimPrefix ref scheme) [slash])
  else
    match parseSCPStyleNodePath env ref with
    | some np => np.map NodePath.namespacePath
    | none => .error (.notReference ref)

end

end WeaverSSH.Vfs
