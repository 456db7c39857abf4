import WeaverSSH.Framework.Checks
import WeaverSSH.Framework.Clock
import WeaverSSH.Framework.HostTree
import WeaverSSH.Framework.Json

/-!
# Requests of the file operations service

`protocol.go` of the package `sessionfsops`: a request is a line of JSON of bounded length.
`validateRequest` reads the name of the operation without the blanks around it, where the server
reads it as it is.
-/

namespace WeaverSSH.FsOps

open HostTree Json

inductive Operation where
  | prepareReplace
  | commitReplace
  | abortReplace
  | lstat
  | list
  | symlink
  | setMetadata
  | prepareTree
  | commitTree
  | abortTree
deriving DecidableEq, Repr

def operationNames : List (Text × Operation) :=
  [("prepare-replace", .prepareReplace), ("commit-replace", .commitReplace),
    ("abort-replace", .abortReplace), ("lstat", .lstat), ("list", .list),
    ("symlink", .symlink), ("set-metadata", .setMetadata),
    ("prepare-tree", .prepareTree), ("commit-tree", .commitTree),
    ("abort-tree", .abortTree)]

def Operation.ofName (name : Text) : Option Operation := operationNames.lookup name

structure Request where
  protocol : Text := []
  id : Text := []
  operation : Text := []
  finalPath : Text := []
  tempPath : Text := []
  mode : UInt32 := 0
  preserveExistingMode : Bool := false
  replaceExisting : Bool := false
  linkTarget : Text := []
  modTimeUnixNano : ℤ := 0
  cursor : Text := []
  limit : ℤ := 0
deriving DecidableEq, Repr

/-- A member of a request; there are no others. -/
def Request.member (r : Request) (key : Text) (j : Json) : Option Request :=
  if named key "protocol" then
    (readText r.protocol j).map fun v => { r with protocol := v }
  else if named key "id" then (readText r.id j).map fun v => { r with id := v }
  else if named key "operation" then
    (readText r.operation j).map fun v => { r with operation := v }
  else if named key "final_path" then
    (readText r.finalPath j).map fun v => { r with finalPath := v }
  else if named key "temp_path" then
    (readText r.tempPath j).map fun v => { r with tempPath := v }
  else if named key "mode" then (readUint32 r.mode j).map fun v => { r with mode := v }
  else if named key "preserve_existing_mode" then
    (readBool r.preserveExistingMode j).map fun v => { r with preserveExistingMode := v }
  else if named key "replace_existing" then
    (readBool r.replaceExisting j).map fun v => { r with replaceExisting := v }
  else if named key "link_target" then
    (readText r.linkTarget j).map fun v => { r with linkTarget := v }
  else if named key "mod_time_unix_nano" then
    (readInt64 r.modTimeUnixNano j).map fun v => { r with modTimeUnixNano := v }
  else if named key "cursor" then
    (readText r.cursor j).map fun v => { r with cursor := v }
  else if named key "limit" then (readInt64 r.limit j).map fun v => { r with limit := v }
  else none

structure FileMetadata where
  path : Text
  name : Text
  type : Text
  mode : ℕ
  size : ℕ
  modTimeUnixNano : ℤ
  linkTarget : Text
deriving DecidableEq, Repr

structure Result where
  tempPath : Text := []
  backupPath : Text := []
  appliedMode : ℕ := 0
  replacedExisting : Bool := false
  atomicVisibility : Bool := false
  metadata : Option FileMetadata := none
  entries : List FileMetadata := []
  nextCursor : Text := []
deriving DecidableEq, Repr

/-- The errors, those with a sentinel with what is said after it. -/
inductive FsErr where
  | invalidRequest (detail : Text)
  | readOnly
  | pathDenied (detail : Text)
  | replaceFailed (detail : Text)
  /-- `atomic rename %q to %q: %v`, behind the sentinel of `replaceFailed` -/
  | renameFailed (tempRel finalRel : Text) (err : PathErr)
  | os (err : PathErr)
  | other (message : Text)
deriving DecidableEq, Repr

/-- The id of the request, and what came of it. -/
structure Response where
  id : Text
  result : Except FsErr Result

def protocolVersion : Text := "weaverssh.fs-ops.v1"

def maxMessageBytes : ℕ := 0x100000

def validateRequest (r : Request) : Except FsErr Unit := do
  let invalid : FsErr := .invalidRequest []
  require (trimSpace r.protocol = protocolVersion && trimSpace r.id ≠ [] && len r.id ≤ 128) invalid
  match Operation.ofName (trimSpace r.operation) with
  | some .prepareReplace => require (r.finalPath ≠ [] && r.tempPath = []) invalid
  | some .commitReplace => require (r.finalPath ≠ [] && r.tempPath ≠ []) invalid
  | some .abortReplace => require (r.tempPath ≠ []) invalid
  | some .lstat => require (r.finalPath ≠ []) invalid
  | some .list => require (r.finalPath ≠ [] && 0 ≤ r.limit && r.limit ≤ 1024) invalid
  | some .symlink => require (r.finalPath ≠ [] && r.linkTarget ≠ []) invalid
  | some .setMetadata =>
    require (r.finalPath ≠ [] && (r.mode ≠ 0 || r.modTimeUnixNano ≠ 0)) invalid
  | some .prepareTree => require (r.finalPath ≠ [] && r.tempPath = []) invalid
  | some .commitTree => require (r.finalPath ≠ [] && r.tempPath ≠ []) invalid
  | some .abortTree => require (r.tempPath ≠ []) invalid
  | none => .error invalid

def newline : UInt8 := 10

/-- `readMessage`: the first line, without the blanks around it. -/
def readMessage (stream : List UInt8) : Option Text :=
  let line := stream.takeWhile (· ≠ newline)
  if stream.length ≤ line.length then none
  else if maxMessageBytes < line.length then none
  else
    let payload := trimSpace (ofBytes line)
    if payload = [] then none else some payload

def readRequest (stream : List UInt8) : Except FsErr Request :=
  match (readMessage stream).bind fun payload =>
      (parse payload).bind (decode Request.member {}) with
  | none => .error (.invalidRequest [])
  | some request => (validateRequest request).map fun _ => request

end WeaverSSH.FsOps
