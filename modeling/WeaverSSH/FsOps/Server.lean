import WeaverSSH.FsOps.Protocol
import WeaverSSH.Framework.Action

/-!
# The file operations service

`server.go` of the package `sessionfsops`. A stream carries one request. Its paths are names below
the exported directory; the directory of the last name is found on the host with its links followed,
and has to be below the exported one. Random names and the verdict of a file backend come with each
request.
-/

namespace WeaverSSH.FsOps

open HostTree FilePath WeaverSSH.Action

structure Server where
  root : Text
  readOnly : Bool
deriving DecidableEq, Repr

structure Surroundings where
  sys : Sys
  /-- What is drawn for each name that is made up. -/
  random : ℕ → Option Text
  /-- The verdict of `Begin`, where there is a file backend. -/
  backend : Option (Except Text Unit)

abbrev Handler (α : Type) := Action Host FsErr α

def look {α : Type} (said : PathErr → FsErr) (call : Host → Except PathErr α) : Handler α :=
  reads fun h => (call h).mapError said

def change (said : PathErr → FsErr) (call : Host → Except PathErr Host) : Handler Unit :=
  tries fun h => (call h).mapError said

def attempt (call : Host → Except PathErr Host) : Handler (Option PathErr) := fun h =>
  match call h with
  | .ok h' => (.ok none, h')
  | .error e => (.ok (some e), h)

def found (sys : Sys) (path : Text) : Handler (Option Info) :=
  reads fun h =>
    match h.lstat sys path with
    | .ok info => .ok (some info)
    | .error e => if e.errno = .notExist then .ok none else .error (.os e)

def tempPrefix : Text := ".wv-replace-"

def treeTempPrefix : Text := ".wv-tree-"

def treeBackupPrefix : Text := ".wv-tree-backup-"

def nul : Rune := .char '\x00'

def backslash : Rune := .char '\x5c'

/-- `mutatingOperation`, of the name as it is. -/
def mutatingOperation (operation : Text) : Bool :=
  match Operation.ofName operation with
  | some .lstat => false
  | some .list => false
  | _ => true

def cleanRelative (raw : Text) : Except FsErr Text := do
  let raw := trimSpace raw
  let denied : FsErr := .pathDenied []
  require (raw ≠ [] && !hasPrefix raw "/" && nul ∉ raw && backslash ∉ raw) denied
  require (dotDot ∉ split raw '/') denied
  let cleaned := clean raw
  require (cleaned ≠ [] && cleaned ≠ dot && cleaned ≠ dotDot && !hasPrefix cleaned "../")
    denied
  return cleaned

/-- A path below the exported directory. -/
structure Final where
  relative : Text
  parentRelative : Text
  name : Text
  parentAbsolute : Text
deriving DecidableEq, Repr

def Final.absolute (f : Final) : Text := join [f.parentAbsolute, f.name]

/-- A name beside that of the path, below the exported directory. -/
def Final.beside (f : Final) (name : Text) : Text :=
  if f.parentRelative ≠ [] then join [f.parentRelative, name] else name

section

variable (srv : Server) (env : Surroundings)

def resolveFinal (raw : Text) : Handler Final := do
  let relative ← reads fun _ => cleanRelative raw
  let parent := dir relative
  let parentRelative := if parent = dot then [] else parent
  let name := base relative
  demand (name ≠ [] && name ≠ dot && name ≠ dotDot && slash ∉ name && backslash ∉ name &&
    nul ∉ name) (.pathDenied "invalid final name")
  let parentAbsolute ← look (fun e => .pathDenied (text "resolve parent: " ++ e.message)) fun h =>
    h.evalSymlinks env.sys (join [srv.root, parentRelative])
  demand (withinRoot srv.root parentAbsolute) (.pathDenied [])
  let notDirectory : FsErr := .pathDenied "parent is not a directory"
  let info ← look (fun _ => notDirectory) fun h => h.stat env.sys parentAbsolute
  demand info.isDir notDirectory
  return ⟨relative, parentRelative, name, parentAbsolute⟩

/-- `os.FileMode`, with the bits for what is no file. -/
def fileMode (info : Info) : ℕ :=
  match info.entry with
  | .dir _ => 0x80000000 + info.perm
  | .link _ => 0x08000000 + info.perm
  | .special mode => mode
  | .file _ _ => info.perm

def linkTarget (absolute : Text) (info : Info) : Handler Text :=
  if info.isLink then look .os fun h => h.readlink env.sys absolute else pure []

def fileMetadata (relative absolute : Text) (info : Info) : Handler FileMetadata := do
  let kind : Text :=
    if info.isLink then "symlink" else if info.isDir then "directory"
    else if info.isRegular then "file" else "special"
  let target ← linkTarget env absolute info
  return ⟨relative, info.name, kind, fileMode info, info.size, info.modTime, target⟩

def lstat (request : Request) : Handler Result := do
  let final ← resolveFinal srv env request.finalPath
  let info ← look .os fun h => h.lstat env.sys final.absolute
  let metadata ← fileMetadata env final.relative final.absolute info
  return { metadata := some metadata }

/-- The loop of `list`. -/
def listMetadata (relative absolute : Text) : List Text → Handler (List FileMetadata)
  | [] => pure []
  | name :: rest => do
    let path := join [absolute, name]
    let info ← look .os fun h => h.lstat env.sys path
    let metadata ← fileMetadata env (join [relative, name]) path info
    return metadata :: (← listMetadata relative absolute rest)

def list (request : Request) : Handler Result := do
  let final ← resolveFinal srv env request.finalPath
  let info ← look .os fun h => h.lstat env.sys final.absolute
  demand info.isDir (.pathDenied "list path is not a directory")
  let names ← look .os fun h => h.readDir env.sys final.absolute
  let limit := if request.limit ≤ 0 then 256 else request.limit.toNat
  let after :=
    if request.cursor ≠ [] then names.dropWhile fun name => nameLE name request.cursor else names
  let entries ← listMetadata env final.relative final.absolute (after.take limit)
  return {
    entries
    nextCursor :=
      if entries.length < after.length then (entries.getLast?.map FileMetadata.name).getD []
      else [] }

def symlink (request : Request) : Handler Result := do
  let final ← resolveFinal srv env request.finalPath
  let target := trimSpace request.linkTarget
  demand (target ≠ [] && nul ∉ target && backslash ∉ target && !isAbs target)
    (.pathDenied [])
  demand (withinRoot srv.root (clean (join [final.parentAbsolute, target]))) (.pathDenied [])
  let existing ← found env.sys final.absolute
  match existing with
  | none => pure ()
  | some info => do
    demand request.replaceExisting (.replaceFailed "destination exists")
    demand (!info.isDir)
      (.replaceFailed "refusing to replace directory with symlink")
    change .os fun h => h.remove env.sys final.absolute
  change .os fun h => h.symlink env.sys target final.absolute
  let info ← look .os fun h => h.lstat env.sys final.absolute
  let metadata ← fileMetadata env final.relative final.absolute info
  return { metadata := some metadata }

def setMetadata (request : Request) : Handler Result := do
  let final ← resolveFinal srv env request.finalPath
  let info ← look .os fun h => h.lstat env.sys final.absolute
  demand (!info.isLink) (.pathDenied "symlink metadata mutation is not portable")
  if request.mode ≠ 0 then
    change .os fun h => h.chmod env.sys final.absolute (request.mode.toNat % 0x200)
  if request.modTimeUnixNano ≠ 0 then change .os fun h => h.chtimes env.sys final.absolute
  let info ← look .os fun h => h.lstat env.sys final.absolute
  let metadata ← fileMetadata env final.relative final.absolute info
  return { metadata := some metadata }

def randomName (tempName : Text) (k : ℕ) : Handler Text :=
  reads fun _ => ((env.random k).map fun digits => tempName ++ digits).elim
    (.error (.other "rand")) .ok

/-- `createHiddenDirectory`, with so many tries left. -/
def createHiddenDirectory (parent tempName : Text) (mode : ℕ) : ℕ → Handler Text
  | 0 => fail (.replaceFailed "directory collision limit")
  | tries + 1 => do
    let name ← randomName env tempName (32 - (tries + 1))
    let path := join [parent, name]
    let failed ← attempt fun h => h.mkdir env.sys path mode
    match failed with
    | some e =>
      if e.errno = .exist then createHiddenDirectory parent tempName mode tries
      else fail (.os e)
    | none => do
      let _ ← attempt fun h => h.chmod env.sys path mode
      return name

/-- `reserveHiddenPath`, with so many tries left. -/
def reserveHiddenPath (parent tempName : Text) : ℕ → Handler Text
  | 0 => fail (.replaceFailed "hidden path collision limit")
  | tries + 1 => do
    let name ← randomName env tempName (32 - (tries + 1))
    let there ← gets fun h => h.lstat env.sys (join [parent, name])
    match there with
    | .error e =>
      if e.errno = .notExist then return name else reserveHiddenPath parent tempName tries
    | .ok _ => reserveHiddenPath parent tempName tries

def prepareTree (request : Request) : Handler Result := do
  let final ← resolveFinal srv env request.finalPath
  let existing ← found env.sys final.absolute
  match existing with
  | none => pure ()
  | some info => do
    demand (info.isDir && !info.isLink)
      (.replaceFailed "tree destination is not a directory")
    demand request.replaceExisting (.replaceFailed "tree destination exists")
  let mode := request.mode.toNat % 0x1000
  let mode := if mode = 0 then openMode else mode
  let name ← createHiddenDirectory env final.parentAbsolute treeTempPrefix (mode % 0x200) 32
  return {
    tempPath := final.beside name
    appliedMode := mode % 0x200
    replacedExisting := existing.isSome }

def commitTree (request : Request) : Handler Result := do
  let final ← resolveFinal srv env request.finalPath
  let temp ← resolveFinal srv env request.tempPath
  demand (final.parentRelative = temp.parentRelative &&
    final.parentAbsolute = temp.parentAbsolute && hasPrefix temp.name treeTempPrefix)
    (.pathDenied [])
  let invalid : FsErr := .replaceFailed "invalid staged tree"
  let staged ← look (fun _ => invalid) fun h => h.lstat env.sys temp.absolute
  demand (staged.isDir && !staged.isLink) invalid
  let existing ← found env.sys final.absolute
  match existing with
  | none => do
    change (fun e => .replaceFailed (text "atomic tree rename: " ++ e.message)) fun h =>
      h.rename env.sys temp.absolute final.absolute
    return { atomicVisibility := true }
  | some info => do
    demand request.replaceExisting (.replaceFailed "tree destination exists")
    demand (info.isDir && !info.isLink)
      (.replaceFailed "tree destination is not a directory")
    let backup ← reserveHiddenPath env final.parentAbsolute treeBackupPrefix 32
    let backupPath := join [final.parentAbsolute, backup]
    change (fun e => .replaceFailed (text "stage old tree: " ++ e.message)) fun h =>
      h.rename env.sys final.absolute backupPath
    let failed ← attempt fun h => h.rename env.sys temp.absolute final.absolute
    match failed with
    | some e => do
      let rollback ← attempt fun h => h.rename env.sys backupPath final.absolute
      let said := text "commit tree: " ++ e.message
      fail (.replaceFailed (match rollback with
        | some e' => said ++ text "; rollback: " ++ e'.message
        | none => said))
    | none => do
      let left ← attempt fun h => h.removeAll env.sys backupPath
      return {
        replacedExisting := true
        backupPath := if left.isSome then final.beside backup else [] }

def abortTree (request : Request) : Handler Result := do
  let temp ← resolveFinal srv env request.tempPath
  demand (hasPrefix temp.name treeTempPrefix || hasPrefix temp.name treeBackupPrefix)
    (.pathDenied [])
  let existing ← found env.sys temp.absolute
  match existing with
  | none => return {}
  | some info => do
    demand (info.isDir && !info.isLink) (.pathDenied [])
    change .os fun h => h.removeAll env.sys temp.absolute
    return {}

/-- The loop of `prepareReplace`, with so many tries left. -/
def createTemp (parent : Text) (mode : ℕ) : ℕ → Handler Text
  | 0 => fail (.replaceFailed "temporary-name collision limit exceeded")
  | tries + 1 => do
    let name ← randomName env tempPrefix (32 - (tries + 1))
    let path := join [parent, name]
    let failed ← attempt fun h => h.openFile env.sys path true false true mode
    match failed with
    | some e =>
      if e.errno = .exist then createTemp parent mode tries else fail (.os e)
    | none => do
      let failed ← attempt fun h => h.chmod env.sys path mode
      let failed ← match failed with
        | some e => pure (some e)
        | none => attempt fun h => (env.sys.call "close" path (.ok h))
      match failed with
      | some e => do
        let _ ← attempt fun h => h.remove env.sys path
        fail (.os e)
      | none => return name

def prepareReplace (request : Request) : Handler Result := do
  let final ← resolveFinal srv env request.finalPath
  let mode := request.mode.toNat % 0x200
  -- 0o644
  let mode := if mode = 0 then 0x1a4 else mode
  let existing ← found env.sys final.absolute
  match existing with
  | none => pure ()
  | some info =>
    demand info.isRegular (.replaceFailed "destination is not a regular file")
  let mode :=
    match existing with
    | some info => if request.preserveExistingMode then info.perm else mode
    | none => mode
  let name ← createTemp env final.parentAbsolute mode 32
  return {
    tempPath := final.beside name
    appliedMode := mode
    replacedExisting := existing.isSome }

def commitReplace (request : Request) : Handler Result := do
  let final ← resolveFinal srv env request.finalPath
  let temp ← resolveFinal srv env request.tempPath
  demand (final.parentRelative = temp.parentRelative &&
    final.parentAbsolute = temp.parentAbsolute)
    (.pathDenied "temporary and final paths must share one directory")
  demand (hasPrefix temp.name tempPrefix) (.pathDenied [])
  let invalid : FsErr := .replaceFailed "invalid temporary file"
  let info ← look (fun _ => invalid) fun h => h.lstat env.sys temp.absolute
  demand info.isRegular invalid
  let existing ← found env.sys final.absolute
  match existing with
  | none => pure ()
  | some info =>
    demand info.isRegular (.replaceFailed "destination is not a regular file")
  change (.renameFailed temp.relative final.relative) fun h =>
    h.rename env.sys temp.absolute final.absolute
  return {}

def abortReplace (request : Request) : Handler Result := do
  let temp ← resolveFinal srv env request.tempPath
  demand (hasPrefix temp.name tempPrefix) (.pathDenied [])
  let existing ← found env.sys temp.absolute
  match existing with
  | none => return {}
  | some info => do
    demand info.isRegular (.pathDenied [])
    let failed ← attempt fun h => h.remove env.sys temp.absolute
    match failed with
    | some e => if e.errno = .notExist then return {} else fail (.os e)
    | none => return {}

/-- The operation of a request, by its name as it is. -/
def dispatch (request : Request) : Handler Result :=
  match Operation.ofName request.operation with
  | some .prepareReplace => prepareReplace srv env request
  | some .commitReplace => commitReplace srv env request
  | some .abortReplace => abortReplace srv env request
  | some .lstat => lstat srv env request
  | some .list => list srv env request
  | some .symlink => symlink srv env request
  | some .setMetadata => setMetadata srv env request
  | some .prepareTree => prepareTree srv env request
  | some .commitTree => commitTree srv env request
  | some .abortTree => abortTree srv env request
  | none => fail (.invalidRequest [])

/-- `Server.Serve`: the response to the request of a stream, and what serving it leaves. -/
def Server.serve (h : Host) (stream : List UInt8) : Response × Host :=
  match readRequest stream with
  | .error e => (⟨[], .error e⟩, h)
  | .ok request =>
    if srv.readOnly && mutatingOperation request.operation then
      (⟨request.id, .error .readOnly⟩, h)
    else
      match env.backend with
      | some (.error e) => (⟨request.id, .error (.other e)⟩, h)
      | _ =>
        let (result, h') := dispatch srv env request h
        (⟨request.id, result⟩, h')

end

end WeaverSSH.FsOps
