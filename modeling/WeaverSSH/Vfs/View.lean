import WeaverSSH.Framework.Checks
import WeaverSSH.Framework.FilePath

/-!
# Views of the published tree

`view.go` of the package `vfs`: rules that hide paths of the published tree or show them under other
names. `VisiblePath` tells where a path is shown, `SourcePath` which path is meant by one of the
view, and `ListEntries` makes a listing of the view. `path.Match` is left to `PathMatch`;
`filepath.ToSlash` does nothing on Unix.
-/

namespace WeaverSSH.Vfs

open FilePath

def viewVersion : Text := "weaverssh.vfs.view.v1"

def viewActionHide : Text := "hide"

def viewActionRename : Text := "rename"

/-- A rule; `pattern` is its `Match`, and `target` its `To`. -/
structure ViewRule where
  action : Text
  pattern : Text
  target : Text := []
deriving DecidableEq, Repr

structure ViewConfig where
  version : Text := []
  rules : List ViewRule := []
deriving DecidableEq, Repr

/-- An entry of a directory, as the client of the tree gets it. -/
structure DirEntry where
  name : Text
  isDir : Bool
  size : ℕ
deriving DecidableEq, Repr

/-- An entry of a listing, with the path of the tree that it was made from. -/
structure ViewEntry where
  sourcePath : Text
  viewPath : Text
  entry : DirEntry
deriving DecidableEq, Repr

def defaultView : ViewConfig where
  version := viewVersion

/-! ## Paths -/

inductive PathErr where
  | containsNUL
  | escapes (p : Text)
deriving DecidableEq, Repr

def cleanViewRel (p : Text) : Except PathErr Text :=
  let p := trimSlashes (trimSpace p)
  if p = [] ∨ p = dot then .ok []
  else if Rune.char '\x00' ∈ p then .error .containsNUL
  else
    let cleaned := clean p
    if cleaned = dot then .ok []
    else if isAbs cleaned ∨ cleaned = dotDot ∨ hasPrefix cleaned (text "../") ∨
        dotDot ∈ split cleaned '/' then .error (.escapes p)
    else .ok cleaned

def joinViewRel (parent name : Text) : Text :=
  let name := trimSlashes name
  if parent = [] then name
  else if name = [] then parent
  else parent ++ slash :: name

/-- The directory of a path and the name in it. -/
def splitViewRel (p : Text) : Text × Text :=
  let parts := split (trimSlashes p) '/'
  (slashed parts.dropLast, parts.getLast?.getD [])

def pathWithin (p root : Text) : Bool :=
  root = [] || p = root || hasPrefix p (root ++ [slash])

def replacePrefix (p source target : Text) : Text :=
  if p = source then target else joinViewRel target (trimPrefix p (source ++ [slash]))

def containsGlob (p : Text) : Bool := p.any fun r => r = .char '*' || r = .char '?' || r = .char '['

def pathPrefixes (p : Text) : List Text :=
  let p := trimSlashes p
  if p = [] then [] else (split p '/').inits.tail.map slashed

/-- `path.Match`: whether a pattern is well formed and a name matches it. -/
class PathMatch where
  ok : Text → Text → Bool

def hideRuleMatches [PathMatch] (pattern source : Text) : Bool :=
  if pattern = [] then false
  else if !containsGlob pattern then
    if slash ∈ pattern then pathWithin source pattern
    else (split source '/').any fun seg => seg = pattern
  else
    let candidates := pathPrefixes source
    if slash ∉ pattern then
      candidates.any fun c => (split c '/').any fun seg => PathMatch.ok pattern seg
    else candidates.any fun c => PathMatch.ok pattern c

/-! ## Rules -/

inductive ViewErr where
  | path (err : PathErr)
  | version (version : Text)
  | pattern (rule : ℕ) (err : PathErr)
  | patternIsRoot (rule : ℕ)
  | patternNotLiteral (rule : ℕ)
  | target (rule : ℕ) (err : PathErr)
  | targetIsRoot (rule : ℕ)
  | targetNotLiteral (rule : ℕ)
  | unknownAction (rule : ℕ) (action : Text)
deriving DecidableEq, Repr

def normalizeRename (i : ℕ) (pattern target : Text) : Except ViewErr ViewRule := do
  require (!containsGlob pattern) (.patternNotLiteral i)
  let target ← (cleanViewRel target).mapError (.target i)
  require (target ≠ []) (.targetIsRoot i)
  require (!containsGlob target) (.targetNotLiteral i)
  return ⟨viewActionRename, pattern, target⟩

section

variable [Unicode]

/-- One turn of the loop of `Normalize`. -/
def normalizeRule (i : ℕ) (r : ViewRule) : Except ViewErr ViewRule := do
  let action := toLower (trimSpace r.action)
  let pattern ← (cleanViewRel r.pattern).mapError (.pattern i)
  require (pattern ≠ []) (.patternIsRoot i)
  if action = viewActionHide then .ok ⟨viewActionHide, pattern, []⟩
  else if action = viewActionRename then normalizeRename i pattern r.target
  else .error (.unknownAction i action)

/-- The loop of `Normalize`, from some rule on. -/
def normalizeRules : ℕ → List ViewRule → Except ViewErr (List ViewRule)
  | _, [] => .ok []
  | i, r :: rules => do
    let r ← normalizeRule i r
    let rules ← normalizeRules (i + 1) rules
    return r :: rules

def ViewConfig.normalize (cfg : ViewConfig) : Except ViewErr ViewConfig := do
  let version := if trimSpace cfg.version = [] then viewVersion else cfg.version
  require (version = viewVersion) (.version version)
  let rules ← normalizeRules 0 cfg.rules
  return ⟨viewVersion, rules⟩

end

/-- One turn of the loop of `SourcePath`. -/
def ViewRule.toSource (r : ViewRule) (p : Text) : Text :=
  if r.action = viewActionRename ∧
    pathWithin p r.target then replacePrefix p r.target r.pattern else p

/-- One turn of the loop of `VisiblePath`. -/
def ViewRule.toView (r : ViewRule) (p : Text) : Text :=
  if r.action = viewActionRename ∧
    pathWithin p r.pattern then replacePrefix p r.pattern r.target else p

/-! ## Projections -/

namespace ViewConfig

variable [PathMatch]

/-- Whether a path is hidden; one that cannot be cleaned is. -/
def isHiddenSource (cfg : ViewConfig) (sourcePath : Text) : Bool :=
  match cleanViewRel sourcePath with
  | .error _ => true
  | .ok p => cfg.rules.any fun r => r.action = viewActionHide && hideRuleMatches r.pattern p

variable [Unicode]

/-- The path of the tree, and whether it is hidden. The renames are undone in the reverse order. -/
def sourcePath (cfg : ViewConfig) (viewPath : Text) : Except ViewErr (Text × Bool) := do
  let cfg ← cfg.normalize
  let p ← (cleanViewRel viewPath).mapError .path
  let p := cfg.rules.foldr ViewRule.toSource p
  return (p, cfg.isHiddenSource p)

def visiblePath (cfg : ViewConfig) (sourcePath : Text) : Except ViewErr (Text × Bool) := do
  let cfg ← cfg.normalize
  let p ← (cleanViewRel sourcePath).mapError .path
  if cfg.isHiddenSource p then .ok ([], true)
  else .ok (cfg.rules.foldl (fun p r => r.toView p) p, false)

/-- One turn of the loop of `ListEntries`: an entry, unless it is hidden or shown in another
directory. -/
def projectEntry (cfg : ViewConfig) (sourceParent viewParent : Text) (e : DirEntry) :
    Except ViewErr (Option ViewEntry) := do
  let sourceChild := joinViewRel sourceParent e.name
  let (viewChild, hidden) ← cfg.visiblePath sourceChild
  let (parent, name) := splitViewRel viewChild
  if hidden ∨ parent ≠ viewParent then .ok none
  else .ok (some ⟨sourceChild, viewChild, { e with name := name }⟩)

def listEntries (cfg : ViewConfig) (sourceParent viewParent : Text) (entries : List DirEntry) :
    Except ViewErr (List ViewEntry) := do
  let cfg ← cfg.normalize
  let sourceParent ← (cleanViewRel sourceParent).mapError .path
  let viewParent ← (cleanViewRel viewParent).mapError .path
  let projected ← entries.mapM (cfg.projectEntry sourceParent viewParent)
  return projected.reduceOption

end ViewConfig

end WeaverSSH.Vfs
