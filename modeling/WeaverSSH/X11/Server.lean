import WeaverSSH.Framework.Bytes
import WeaverSSH.Framework.Checks
import WeaverSSH.Framework.Clock
import WeaverSSH.Framework.Hex

/-!
# The X11 server and its SECURITY extension

A client presents a cookie; one that is accepted may ask for further cookies
(`GenerateAuthorization`), each with an identifier and perhaps a time to live, and have them taken
back (`RevokeAuthorization`).

The table of authorizations is a list in which an identifier stands once. The cookie that is drawn
and the clock are given with the request. Replies and other requests are left out.
-/

namespace WeaverSSH.X11

inductive ByteOrder where
  | bigEndian
  | littleEndian
deriving DecidableEq, Repr

/-- `Uint16` and `Uint32` of some bytes at an offset. -/
def ByteOrder.uint : ByteOrder → List UInt8 → ℕ → ℕ → ℕ
  | .bigEndian, b, offset, width => fromLittleEndian (bytesAt b offset width).reverse
  | .littleEndian, b, offset, width => fromLittleEndian (bytesAt b offset width)

structure ConnectionSetup where
  byteOrder : ByteOrder
  authProtoName : List UInt8
  authProtoData : List UInt8
deriving DecidableEq, Repr

inductive SetupErr where
  | short
  | invalidByteOrder
  /-- A slice past the buffer ends the process. -/
  | crash
deriving DecidableEq, Repr

/-- `(n + 3) & ^uint16(3)`, as it wraps. -/
def padded (n : ℕ) : ℕ := (n + 3) % 2 ^ 16 / 4 * 4

def readConnectionSetup (r : List UInt8) : Except SetupErr ConnectionSetup := do
  require (12 ≤ r.length) .short
  let bo ← match r.head? with
    | some 0x42 => .ok ByteOrder.bigEndian
    | some 0x6c => .ok ByteOrder.littleEndian
    | _ => .error .invalidByteOrder
  let nameLen := bo.uint r 6 2
  let dataStart := padded nameLen
  let dataEnd := (dataStart + bo.uint r 8 2) % 2 ^ 16
  let totalLen := (dataStart + padded (bo.uint r 8 2)) % 2 ^ 16
  if totalLen = 0 then return ⟨bo, [], []⟩
  let authBuf := bytesAt r 12 totalLen
  require (authBuf.length = totalLen) .short
  require (nameLen ≤ totalLen && dataStart ≤ dataEnd && dataEnd ≤ totalLen) .crash
  return ⟨bo, authBuf.take nameLen, bytesAt authBuf dataStart (dataEnd - dataStart)⟩

structure Request where
  opcode : UInt8
  detail : UInt8
  data : List UInt8
deriving DecidableEq, Repr

def readRequest (bo : ByteOrder) : List UInt8 → Option Request
  | opcode :: detail :: l₁ :: l₂ :: rest =>
    let length := bo.uint [l₁, l₂] 0 2 * 4
    let data := rest.take (length - 4)
    if data.length = length - 4 then some ⟨opcode, detail, data⟩ else none
  | _ => none

/-- `Authorization`, as far as it is read again. -/
structure Authorization where
  id : ℕ
  cookie : List UInt8
  timeout : ℕ
  createdAt : Time
deriving DecidableEq, Repr

def Authorization.current (a : Authorization) (now : Time) : Bool :=
  a.timeout = 0 || now ≤ a.createdAt + a.timeout * second

/-- `SecurityGenerateAuthRequest.Parse`: the timeout. -/
def parseTimeout (bo : ByteOrder) (data : List UInt8) : ℕ :=
  if 8 ≤ data.length && (bo.uint data 0 4).testBit 0 then bo.uint data 4 4 else 0

/-- `handleSecurityRequest` takes a request without a minor opcode for `GenerateAuthorization`. -/
def Request.generates (req : Request) : Bool :=
  req.detail = 1 || req.detail = 0 && 4 ≤ req.data.length

structure X11Server where
  validCookie : Text
  authorizations : List Authorization
  nextAuthID : ℕ
  /-- The connections that were accepted, with their byte orders. -/
  clients : List (ℕ × ByteOrder)
deriving DecidableEq, Repr

namespace X11Server

/-- `NewX11Server`. -/
def new (authCookie : Text) : X11Server := ⟨authCookie, [], 1, []⟩

def validateAuth (s : X11Server) (setup : ConnectionSetup) (now : Time) : Bool :=
  setup.authProtoName = bytes "MIT-MAGIC-COOKIE-1" &&
    (toHex setup.authProtoData = s.validCookie ||
      s.authorizations.any fun a => toHex setup.authProtoData = toHex a.cookie && a.current now)

/-- The authorization that `handleGenerateAuthorization` makes of a cookie. -/
def generated (s : X11Server) (bo : ByteOrder) (req : Request) (cookie : List UInt8) (now : Time) :
    Authorization :=
  ⟨s.nextAuthID, cookie, parseTimeout bo req.data, now⟩

/-- `handleSecurityRequest`; an error ends the connection. -/
def handleSecurityRequest (s : X11Server) (bo : ByteOrder) (req : Request)
    (cookie : Option (List UInt8)) (now : Time) : Option X11Server :=
  if req.generates then
    cookie.map fun cookie =>
      { s with
        nextAuthID := (s.nextAuthID + 1) % 2 ^ 32
        authorizations := s.authorizations.filter (·.id ≠ s.nextAuthID) ++
          [s.generated bo req cookie now] }
  else if req.detail = 2 then
    if req.data.length < 5 then none
    else some { s with
      authorizations := s.authorizations.filter (·.id ≠ bo.uint req.data 1 4) }
  else none

/-- What happens at a server: a connection `c` sends its setup, or a request, or ends. -/
inductive Act where
  | connect (c : ℕ) (r : List UInt8) (now : Time)
  | request (c : ℕ) (r : List UInt8) (cookie : Option (List UInt8)) (now : Time)
  | disconnect (c : ℕ)
deriving DecidableEq, Repr

def drop (s : X11Server) (c : ℕ) : X11Server := { s with clients := s.clients.filter (·.1 ≠ c) }

/-- `processConnectionSetup` and `processRequest`. -/
def step (s : X11Server) : Act → Option X11Server
  | .connect c r now =>
    match readConnectionSetup r with
    | .error .crash => none
    | .error _ => some s
    | .ok setup =>
      some (if s.validateAuth setup now then { s with clients := (c, setup.byteOrder) :: s.clients }
        else s)
  | .request c r cookie now => do
    let bo ← s.clients.lookup c
    let handled := do
      let req ← readRequest bo r
      if req.opcode = 138 then s.handleSecurityRequest bo req cookie now else some s
    some (handled.getD (s.drop c))
  | .disconnect c => some (s.drop c)

end X11Server

end WeaverSSH.X11
