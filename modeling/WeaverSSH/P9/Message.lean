import WeaverSSH.Framework.Bytes
import WeaverSSH.Framework.HostTree
import WeaverSSH.Framework.Json

/-!
# Messages of 9P2000

`server.go` of the package `p9svc`, from `readMessage` on: a message is a type, a tag and a payload
behind its size. The requests the server knows are an enumeration (`Kind`); the type of a reply is
the next one. A payload is read at offsets, as the handlers do.
-/

namespace WeaverSSH.P9

open HostTree FilePath

inductive Kind where
  | version
  | attach
  | walk
  | open
  | create
  | read
  | write
  | clunk
  | remove
  | stat
deriving DecidableEq, Repr

def Kind.request : Kind → UInt8
  | .version => 100
  | .attach => 104
  | .walk => 110
  | .open => 112
  | .create => 114
  | .read => 116
  | .write => 118
  | .clunk => 120
  | .remove => 122
  | .stat => 124

def Kind.reply (kind : Kind) : UInt8 := kind.request + 1

def kinds : List Kind :=
  [.version, .attach, .walk, .open, .create, .read, .write, .clunk, .remove, .stat]

def Kind.ofType (type : UInt8) : Option Kind := kinds.find? fun kind => kind.request = type

/-- The type of the reply to a request that failed. -/
def rerror : UInt8 := 107

structure Message where
  type : UInt8
  tag : UInt16
  payload : List UInt8
deriving DecidableEq, Repr

def uint16At (b : List UInt8) (offset : ℕ) : UInt16 :=
  UInt16.ofNat (fromLittleEndian (bytesAt b offset 2))

def uint32At (b : List UInt8) (offset : ℕ) : UInt32 :=
  UInt32.ofNat (fromLittleEndian (bytesAt b offset 4))

def uint64At (b : List UInt8) (offset : ℕ) : UInt64 :=
  UInt64.ofNat (fromLittleEndian (bytesAt b offset 8))

lemma toNat_uint32At_littleEndian {n : ℕ} (h : n < 256 ^ 4) (rest : List UInt8) :
    (uint32At (littleEndian 4 n ++ rest) 0).toNat = n := by
  have hfirst := bytesAt_append_left (littleEndian 4 n) rest
  rw [length_littleEndian] at hfirst
  unfold uint32At
  rw [hfirst, fromLittleEndian_littleEndian, Nat.mod_eq_of_lt h]
  exact Nat.mod_eq_of_lt h

def maxMessage : ℕ := 0x1000000

/-- What stands before the payload. -/
def Message.header (msg : Message) : List UInt8 :=
  littleEndian 4 (7 + msg.payload.length) ++ [msg.type] ++ littleEndian 2 msg.tag.toNat

/-- `writeMessage`. -/
def Message.encode (msg : Message) : List UInt8 := msg.header ++ msg.payload

def sizeAt (b : List UInt8) : ℕ := fromLittleEndian (bytesAt b 0 4)

def messageAt (b : List UInt8) (size : ℕ) : Message :=
  ⟨b.getD 4 0, uint16At b 5, bytesAt b 7 (size - 7)⟩

/-- `readMessage`, with what is left of the stream; `none` where it fails. -/
def readMessage (stream : List UInt8) : Option (Message × List UInt8) :=
  let size := sizeAt stream
  if stream.length < 7 then none
  else if size < 7 ∨ maxMessage < size then none
  else if stream.length < size then none
  else some (messageAt stream size, stream.drop size)

/-! ### What is written is read -/

lemma Message.length_header (msg : Message) : msg.header.length = 7 := by simp [Message.header]

lemma Message.length_encode (msg : Message) : msg.encode.length = 7 + msg.payload.length := by
  rw [Message.encode, List.length_append, msg.length_header]

/-! ### Strings -/

def packString (value : Text) : List UInt8 := littleEndian 2 (len value) ++ bytes value

/-- `unpackString`, with the offset behind it. -/
def unpackString (b : List UInt8) (offset : ℕ) : Except Text (Text × ℕ) :=
  let n := (uint16At b offset).toNat
  if b.length < offset + 2 then .error "short_string_len"
  else if b.length < offset + 2 + n then .error "short_string_body"
  else .ok (ofBytes (bytesAt b (offset + 2) n), offset + 2 + n)

/-- Several strings behind one another. -/
def unpackStrings (b : List UInt8) : ℕ → ℕ → Except Text (List Text)
  | 0, _ => .ok []
  | count + 1, offset => do
    let (name, next) ← unpackString b offset
    return name :: (← unpackStrings b count next)

/-! ## What is told of files -/

structure Qid where
  isDir : Bool
  version : UInt32
  path : UInt64
deriving DecidableEq, Repr

/-- `fnv.New64a`. -/
def fnv64a (b : List UInt8) : UInt64 :=
  b.foldl (fun hash byte => (hash ^^^ byte.toUInt64) * 1099511628211) 14695981039346656037

def pathHash (rel : Text) (info : Info) : UInt64 := fnv64a (bytes rel ++ [0] ++ bytes info.name)

def unixSeconds (modTime : ℤ) : UInt32 := UInt32.ofNat ((modTime / 1000000000) % 2 ^ 32).toNat

def qidFor (rel : Text) (info : Info) : Qid :=
  ⟨info.isDir, unixSeconds info.modTime, pathHash rel info⟩

def qidDir : UInt8 := 0x80

def Qid.bytes (q : Qid) : List UInt8 :=
  [if q.isDir then qidDir else 0] ++ littleEndian 4 q.version.toNat ++ littleEndian 8 q.path.toNat

def statBytes (rel : Text) (info : Info) : List UInt8 :=
  let name := if rel = [] ∨ rel = dot then [slash] else info.name
  let mode := info.perm + (if info.isDir then 0x80000000 else 0)
  let mtime := littleEndian 4 (unixSeconds info.modTime).toNat
  let body := littleEndian 2 0 ++ littleEndian 4 0 ++ (qidFor rel info).bytes ++
    littleEndian 4 mode ++ mtime ++ mtime ++ littleEndian 8 info.size ++ packString name ++
    packString (text "weaverssh") ++ packString (text "weaverssh") ++ packString []
  littleEndian 2 body.length ++ body

/-- The payload of the reply to a request that failed. -/
def errorPayload (version message : Text) : List UInt8 :=
  packString message ++ (if version = "9P2000.u" then littleEndian 4 5 else [])

end WeaverSSH.P9
