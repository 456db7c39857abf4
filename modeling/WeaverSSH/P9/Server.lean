import WeaverSSH.Framework.Action
import WeaverSSH.Framework.Clock
import WeaverSSH.P9.Message

/-!
# The 9P server

`server.go` of the package `p9svc`. A session has fids, each with the names below the exported
directory that it stands for, and the path on the host that these were found to mean when the fid
was made. `handle` serves a request; what it changed before it failed stays changed.

`touched` keeps which call the handlers did on the host, on which path, and for which names.
-/

namespace WeaverSSH.P9

open HostTree FilePath WeaverSSH.Action PathErr

structure Server where
  root : Text
  readOnly : Bool
deriving DecidableEq, Repr

structure FidState where
  rel : Text
  path : Text
  opened : Bool
  isDir : Bool
deriving DecidableEq, Repr

def servedVersion : Text := "9P2000"

structure Session where
  msize : ℕ := 8192
  version : Text := servedVersion
  fids : UInt32 → Option FidState := fun _ => none

/-- What is done on the host. -/
inductive Deed where
  | stat
  | list
  | read
  | truncate
  | create
  | write
  | remove
deriving DecidableEq, Repr

structure Touch where
  deed : Deed
  rel : Text
  path : Text
deriving DecidableEq, Repr

structure World where
  session : Session
  host : Host
  touched : List Touch := []

abbrev Handler (α : Type) := Action World Text α

def touch (deed : Deed) (rel path : Text) : Handler Unit :=
  modify fun w => { w with touched := w.touched ++ [⟨deed, rel, path⟩] }

def setFid (fid : UInt32) (st : Option FidState) : Handler Unit :=
  modify fun w =>
    { w with session := { w.session with fids := Function.update w.session.fids fid st } }

def getFid (fid : UInt32) : Handler FidState :=
  reads fun w => (w.session.fids fid).elim (.error "unknown_fid") .ok

/-- A call that looks at the host; `said` is the text of its error. -/
def look {α : Type} (said : PathErr → Text) (call : Host → Except PathErr α) : Handler α :=
  reads fun w => (call w.host).mapError said

def change (said : PathErr → Text) (call : Host → Except PathErr Host) : Handler Unit :=
  tries fun w => ((call w.host).mapError said).map fun host => { w with host }

/-- The bits of a mode that ask for more than to read. -/
def wantsWrite (mode : UInt8) : Bool := mode &&& 0x03 ≠ 0 || mode &&& 0x10 ≠ 0

def truncates (mode : UInt8) : Bool := mode &&& 0x10 ≠ 0

/-- The bit of the permissions that asks for a directory. -/
def asksDir (perm : UInt32) : Bool := perm &&& 0x80000000 ≠ 0

def selectVersion (requested : Text) : Text :=
  if requested = servedVersion ∨ hasPrefix requested "9P2000." = true then servedVersion
  else "unknown"

def hasSeparator (name : Text) : Bool :=
  name.any fun r => r = .char '/' || r = .char '\x5c'

def validWalkName (name : Text) : Bool := name ≠ [] && !hasSeparator name && name ≠ dotDot

def validCreateName (name : Text) : Bool :=
  name ≠ [] && name ≠ dot && name ≠ dotDot && !hasSeparator name

section

variable (srv : Server) (sys : Sys)

/-- `Server.resolve`: the path on the host, with its links followed where all of it is there. -/
def Server.resolve (h : Host) (rel : Text) : Except Text Text :=
  let cleaned := clean (trimPrefix rel "/")
  let cleaned := if cleaned = dot then [] else cleaned
  if hasPrefix cleaned dotDot || isAbs cleaned then .error "path_escape"
  else
    let joined := join [srv.root, cleaned]
    match h.evalSymlinks sys joined with
    | .error e => if e.errno = .notExist then .ok joined else .error e.message
    | .ok found => if withinRoot srv.root found then .ok found else .error "path_escape"

def resolved (rel : Text) : Handler Text := reads fun w => srv.resolve sys w.host rel

/-- `os.Stat`, on behalf of a fid. -/
def statted (said : PathErr → Text) (rel path : Text) : Handler Info := do
  touch .stat rel path
  look said fun h => h.stat sys path

def handleVersion (msg : Message) : Handler (List UInt8) := do
  demand (6 ≤ msg.payload.length) "short_tversion"
  let msize := (uint32At msg.payload 0).toNat
  let (version, _) ← reads fun _ =>
    (unpackString msg.payload 4).mapError fun e => text "bad_tversion: " ++ e
  let selected := selectVersion version
  let msize := min (if msize = 0 ∨ 0x100000 < msize then 8192 else msize) 65536
  modify fun w => { w with
    session := { w.session with
      version := if selected ≠ "unknown" then selected else w.session.version
      msize := msize } }
  return littleEndian 4 msize ++ packString selected

def handleAttach (msg : Message) : Handler (List UInt8) := do
  demand (8 ≤ msg.payload.length) "short_tattach"
  let fid := uint32At msg.payload 0
  let root ← resolved srv sys []
  let info ← statted sys message [] root
  setFid fid (some ⟨[], root, false, true⟩)
  return (qidFor [] info).bytes

/-- The loop of `handleWalk`. -/
def walkNames : Text → List Text → Handler (Text × List Qid)
  | rel, [] => pure (rel, [])
  | rel, name :: rest => do
    demand (validWalkName name) "invalid_walk_name"
    if name = dot then walkNames rel rest
    else do
      let rel := join [rel, name]
      let path ← resolved srv sys rel
      let info ← statted sys (fun _ => "walk_not_found") rel path
      let (last, qids) ← walkNames rel rest
      return (last, qidFor rel info :: qids)

def walkReply (qids : List Qid) : List UInt8 :=
  littleEndian 2 qids.length ++ qids.flatMap Qid.bytes

def handleWalk (msg : Message) : Handler (List UInt8) := do
  demand (10 ≤ msg.payload.length) "short_twalk"
  let fid := uint32At msg.payload 0
  let newfid := uint32At msg.payload 4
  let names ← reads fun _ =>
    (unpackStrings msg.payload (uint16At msg.payload 8).toNat 10).mapError fun e =>
      text "bad_twalk: " ++ e
  let st ← getFid fid
  if names = [] then do
    setFid newfid (some st)
    return walkReply []
  else do
    let (rel, qids) ← walkNames srv sys st.rel names
    let path ← resolved srv sys rel
    let info ← statted sys message rel path
    setFid newfid (some ⟨rel, path, false, info.isDir⟩)
    return walkReply qids

/-- A file that is to be emptied when it is opened. -/
def emptied (st : FidState) (mode : UInt8) (info : Info) : Handler Info :=
  if truncates mode && !info.isDir then do
    touch .truncate st.rel st.path
    change (fun e => text "truncate: " ++ e.message) fun h => h.truncate sys st.path
    statted sys message st.rel st.path
  else pure info

def handleOpen (msg : Message) : Handler (List UInt8) := do
  demand (5 ≤ msg.payload.length) "short_topen"
  let fid := uint32At msg.payload 0
  let mode := msg.payload.getD 4 0
  let st ← getFid fid
  demand (!(srv.readOnly && wantsWrite mode)) "read_only"
  let info ← statted sys message st.rel st.path
  let info ← emptied sys st mode info
  setFid fid (some { st with opened := true, isDir := info.isDir })
  return (qidFor st.rel info).bytes ++ littleEndian 4 0

/-- What is told of an entry of a directory; nothing where it cannot be found. -/
def childStat (rel name : Text) : Handler (List UInt8) := do
  let child := join [rel, name]
  let path ← gets fun w => srv.resolve sys w.host child
  match path with
  | .error _ => pure []
  | .ok path => do
    touch .stat child path
    let info ← gets fun w => w.host.stat sys path
    match info with
    | .error _ => pure []
    | .ok info => pure (statBytes child info)

/-- The loop of `readDir`. -/
def listEntries (rel : Text) : List Text → Handler (List UInt8)
  | [] => pure []
  | name :: rest => do
    let entry ← childStat srv sys rel name
    return entry ++ (← listEntries rel rest)

def readDir (rel path : Text) : Handler (List UInt8) := do
  touch .list rel path
  let names ← look message fun h => h.readDir sys path
  listEntries srv sys rel names

/-- The bytes that are read: of a directory, what is told of all its entries. -/
def readData (st : FidState) (info : Info) (offset count : ℕ) : Handler (List UInt8) :=
  if info.isDir then do
    let all ← readDir srv sys st.rel st.path
    return (all.drop offset).take count
  else do
    touch .read st.rel st.path
    look message fun h => h.readAt sys st.path (int64 offset) count

def handleRead (msg : Message) : Handler (List UInt8) := do
  demand (16 ≤ msg.payload.length) "short_tread"
  let fid := uint32At msg.payload 0
  let offset := (uint64At msg.payload 4).toNat
  let count := min (uint32At msg.payload 12).toNat 0x100000
  let st ← getFid fid
  let info ← statted sys message st.rel st.path
  let data ← readData srv sys st info offset count
  return littleEndian 4 data.length ++ data

/-- A directory or an empty file at a path. -/
def created (path : Text) (perm : UInt32) : Handler Unit :=
  if asksDir perm then
    change (fun e => text "mkdir: " ++ e.message) fun h => h.mkdir sys path openMode
  else
    change (fun e => text "create: " ++ e.message) fun h =>
      h.openFile sys path true true false (perm.toNat % 0x200)

def handleCreate (msg : Message) : Handler (List UInt8) := do
  demand (!srv.readOnly) "read_only"
  demand (4 ≤ msg.payload.length) "short_tcreate"
  let fid := uint32At msg.payload 0
  let (name, offset) ← reads fun _ =>
    (unpackString msg.payload 4).mapError fun e => text "bad_tcreate: " ++ e
  demand (offset + 5 ≤ msg.payload.length) "short_tcreate"
  let perm := uint32At msg.payload offset
  let st ← getFid fid
  demand st.isDir "create_in_non_dir"
  demand (validCreateName name) "invalid_create_name"
  let child := join [st.rel, name]
  let path ← resolved srv sys child
  touch .create child path
  created sys path perm
  let info ← statted sys message child path
  setFid fid (some ⟨child, path, true, asksDir perm⟩)
  return (qidFor child info).bytes ++ littleEndian 4 0

def handleWrite (msg : Message) : Handler (List UInt8) := do
  demand (!srv.readOnly) "read_only"
  demand (16 ≤ msg.payload.length) "short_twrite"
  let fid := uint32At msg.payload 0
  let offset := (uint64At msg.payload 4).toNat
  let count := (uint32At msg.payload 12).toNat
  let st ← getFid fid
  demand (!st.isDir) "write_to_dir"
  let data := bytesAt msg.payload 16 count
  touch .write st.rel st.path
  -- 0o644
  change (fun e => text "open_for_write: " ++ e.message) fun h =>
    h.openFile sys st.path true false false 0x1a4
  change (fun e => text "write: " ++ e.message) fun h => h.writeAt sys st.path (int64 offset) data
  look message fun _ => sys.call "close" st.path (.ok ())
  return littleEndian 4 data.length

def handleRemove (msg : Message) : Handler (List UInt8) := do
  demand (4 ≤ msg.payload.length) "short_tremove"
  let fid := uint32At msg.payload 0
  let st ← gets fun w => w.session.fids fid
  setFid fid none
  match st with
  | none => fail "unknown_fid"
  | some st => do
    demand (!srv.readOnly) "read_only"
    demand (st.rel ≠ []) "refuse_remove_root"
    touch .remove st.rel st.path
    change (fun e => text "remove: " ++ e.message) fun h => h.remove sys st.path
    return []

def handleClunk (msg : Message) : Handler (List UInt8) := do
  demand (4 ≤ msg.payload.length) "short_tclunk"
  setFid (uint32At msg.payload 0) none
  return []

def handleStat (msg : Message) : Handler (List UInt8) := do
  demand (4 ≤ msg.payload.length) "short_tstat"
  let st ← getFid (uint32At msg.payload 0)
  let info ← statted sys message st.rel st.path
  let stat := statBytes st.rel info
  return littleEndian 2 stat.length ++ stat

def handle (msg : Message) : Handler (List UInt8) :=
  match Kind.ofType msg.type with
  | some .version => handleVersion msg
  | some .attach => handleAttach srv sys msg
  | some .walk => handleWalk srv sys msg
  | some .open => handleOpen srv sys msg
  | some .create => handleCreate srv sys msg
  | some .read => handleRead srv sys msg
  | some .write => handleWrite srv sys msg
  | some .clunk => handleClunk msg
  | some .remove => handleRemove srv sys msg
  | some .stat => handleStat sys msg
  | none => fail (text "unsupported_msg_" ++ Json.decimal msg.type.toNat)

/-- The reply to a request, and what serving it leaves. -/
def Server.respond (w : World) (msg : Message) : Message × World :=
  match handle srv sys msg w with
  | (.ok payload, w') => (⟨msg.type + 1, msg.tag, payload⟩, w')
  | (.error e, w') => (⟨rerror, msg.tag, errorPayload w'.session.version e⟩, w')

/-- The body of the loop of `handleConn`: the next message of a stream is served, with what is left
of the stream; `none` where it cannot be read. -/
def Server.receive (w : World) (stream : List UInt8) : Option (Message × World × List UInt8) :=
  (readMessage stream).map fun (msg, rest) =>
    let (reply, w') := Server.respond srv sys w msg
    (reply, w', rest)

end

end WeaverSSH.P9
