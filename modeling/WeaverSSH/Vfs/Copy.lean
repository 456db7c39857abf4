import WeaverSSH.Framework.Effects
import WeaverSSH.Vfs.Reference
import WeaverSSH.Vfs.Tree

/-!
# Copies out of the VFS and into it

`copier` of `vfscli`: `fromVFS` writes what a 9P server has to the local disk, and `toVFS` a local
file or directory to the server, both through a view, in which an upload's destination is looked up
once.

The server, the disk and the hooks answer as they like (`Client`, `Disk`, `Transfers`). The
recursion is only followed to some depth, as a server may list directories without end.
-/

namespace WeaverSSH.Vfs

open FilePath Progress WeaverSSH.Action

/-- The client of a 9P server: what it says of a path, by how much was asked before. -/
structure Client where
  /-- whether the path is a directory -/
  stat : ℕ → Text → Option Bool
  list : ℕ → Text → Option (List DirEntry)
  readFile : ℕ → Text → Option (List UInt8)
  mkdirAll : ℕ → Text → Bool
  writeFile : ℕ → Text → List UInt8 → Bool

/-- The local disk; the entries of its directories are names. -/
structure Disk where
  stat : ℕ → Text → Option Bool
  readDir : ℕ → Text → Option (List (Text × Bool))
  readFile : ℕ → Text → Option (List UInt8)
  mkdirAll : ℕ → Text → Bool
  writeFile : ℕ → Text → List UInt8 → Bool
  named : ∀ n p es, readDir n p = some es → ∀ e ∈ es, ViewName e.1

/-- Whether the hooks before and after a transfer let it pass. -/
structure Transfers where
  before : ℕ → Bool := fun _ => true
  after : ℕ → Bool := fun _ => true

inductive CopyErr where
  | reference (err : RefErr)
  | view (err : ViewErr)
  | hidden (ref : Text)
  | stat (ref : Text)
  | isDirectory (ref : Text)
  | read (path : Text)
  | mkdir (path : Text)
  | write (path : Text)
  | refused (viewRel : Text)
  | transfer
  | depth
deriving DecidableEq, Repr

structure Copier where
  c : Client
  disk : Disk
  recursive : Bool
  view : ViewConfig
  transfers : Transfers

/-- `transferObserver.run`. -/
def Transfers.run {κ : Type} (t : Transfers) (fn : Action (Progress κ) CopyErr Unit) :
    Action (Progress κ) CopyErr Unit := do
  ask (fun n => if t.before n then some () else none) .transfer
  fn
  ask (fun n => if t.after n then some () else none) .transfer

/-- Something that the copy makes on the local disk. -/
inductive LocalWrite where
  | mkdirAll (path : Text)
  | writeFile (path : Text) (data : List UInt8)
deriving DecidableEq, Repr

def LocalWrite.path : LocalWrite → Text
  | .mkdirAll path => path
  | .writeFile path _ => path

/-- Something that the copy makes on the server: `path` is what the server is told, for the file or
the directory `source` that is reported under `view`. -/
structure Creation where
  path : Text
  source : Text
  view : Text
deriving DecidableEq, Repr

/-- `splitRel`: the directory of a path, and the name in it. -/
def splitRel (rel : Text) : Text × Text := splitViewRel rel

namespace Copier

variable [CharClasses] [Addresses] [Unicode] [PathMatch] (cp : Copier) (env : Env)

/-- `resolveViewRef`: the path of the view that is referred to, and the path of the tree. -/
def resolveViewRef (ref : Text) : Except CopyErr (Text × Text) := do
  let viewRel ← (parsePath env ref).mapError .reference
  let source ← (cp.view.sourcePath viewRel).mapError .view
  require (!source.2) (.hidden ref)
  return (viewRel, source.1)

/-! ## Out of the VFS -/

/-- A copy that makes things on the local disk. -/
abbrev Download := Action (Progress LocalWrite) CopyErr

def isLocalDir (p : Text) : Download Bool :=
  look fun n => hasSuffix p [slash] || cp.disk.stat n p = some true

def localJoinDir (dst rel : Text) : Download Text := do
  let dir ← cp.isLocalDir dst
  return if dir then join [dst, base rel] else dst

def fileFromVFS (sourceRel localPath : Text) : Download Unit :=
  cp.transfers.run do
    let data ← ask (cp.c.readFile · sourceRel) (.read sourceRel)
    make (.mkdirAll (dir localPath)) (cp.disk.mkdirAll · (dir localPath)) (.mkdir (dir localPath))
    make (.writeFile localPath data) (cp.disk.writeFile · localPath data) (.write localPath)

def dirFromVFS : ℕ → Text → Text → Text → Download Unit
  | 0, _, _, _ => fail .depth
  | depth + 1, sourceRel, viewRel, localDir => do
    make (.mkdirAll localDir) (cp.disk.mkdirAll · localDir) (.mkdir localDir)
    let entries ← ask (cp.c.list · sourceRel) (.read sourceRel)
    let mapped ← reads fun _ => (cp.view.listEntries sourceRel viewRel entries).mapError .view
    mapped.forM fun e =>
      if e.entry.isDir then dirFromVFS depth e.sourcePath e.viewPath (join [localDir, e.entry.name])
      else cp.fileFromVFS e.sourcePath (join [localDir, e.entry.name])

def fromVFS (depth : ℕ) (src dst : Text) : Download Unit := do
  let (viewRel, sourceRel) ← reads fun _ => cp.resolveViewRef env src
  let isDir ← ask (cp.c.stat · sourceRel) (.stat src)
  if isDir then
    demand cp.recursive (.isDirectory src)
    let localDir ← cp.localJoinDir dst viewRel
    cp.dirFromVFS depth sourceRel viewRel localDir
  else
    let target ← cp.localJoinDir dst viewRel
    cp.fileFromVFS sourceRel target

/-! ## Into the VFS -/

/-- A copy that makes things on the server. -/
abbrev Upload := Action (Progress Creation) CopyErr

def fileToVFS (localPath sourceRel viewRel : Text) : Upload Unit := do
  demand (!cp.view.isHiddenSource sourceRel) (.refused viewRel)
  cp.transfers.run do
    let data ← ask (cp.disk.readFile · localPath) (.read localPath)
    let parent := (splitRel sourceRel).1
    if parent ≠ [] then
      make ⟨parent, sourceRel, viewRel⟩ (cp.c.mkdirAll · parent) (.mkdir parent)
    make ⟨sourceRel, sourceRel, viewRel⟩ (cp.c.writeFile · sourceRel data) (.write sourceRel)

def dirToVFS : ℕ → Text → Text → Text → Upload Unit
  | 0, _, _, _ => fail .depth
  | depth + 1, localDir, sourceRel, viewRel => do
    demand (!cp.view.isHiddenSource sourceRel) (.refused viewRel)
    make ⟨sourceRel, sourceRel, viewRel⟩ (cp.c.mkdirAll · sourceRel) (.mkdir sourceRel)
    let entries ← ask (cp.disk.readDir · localDir) (.read localDir)
    entries.forM fun e =>
      let childLocal := join [localDir, e.1]
      let childSourceRel := joinRel sourceRel e.1
      let childViewRel := joinRel viewRel e.1
      if cp.view.isHiddenSource childSourceRel then pure ()
      else if e.2 then dirToVFS depth childLocal childSourceRel childViewRel
      else cp.fileToVFS childLocal childSourceRel childViewRel

def toVFS (depth : ℕ) (src dst : Text) : Upload Unit := do
  let isDir ← ask (cp.disk.stat · src) (.stat src)
  let (viewDst, sourceDst) ← reads fun _ => cp.resolveViewRef env dst
  if isDir then
    demand cp.recursive (.isDirectory src)
    let name := base src
    cp.dirToVFS depth src (joinRel sourceDst name) (joinRel viewDst name)
  else
    -- a destination that is a directory gets the file under its own name
    let into ← look fun n => cp.c.stat n sourceDst = some true || hasSuffix dst [slash]
    if into then cp.fileToVFS src (joinRel sourceDst (base src)) (joinRel viewDst (base src))
    else cp.fileToVFS src sourceDst viewDst

end Copier

end WeaverSSH.Vfs
