import WeaverSSH.SessionRoute.Resolve

/-!
# The registry of leases

Processes of one user publish the links they hold in a file that all of them rewrite under a lock.
An entry has the generation of the transport that carries its link, and is good until its lease
ends. `perform` is one call. Each reads its clock before it waits for the lock, and drops what has
expired or is not valid *at that reading* (`sweep`).

The file is what is read back from it (`LeaseEntry.scrub`). Its size is a parameter, and so is
whether there is a text at all, since years of more than four digits have none. A call that is not
let finish (`written`) leaves the file as it was.
-/

namespace WeaverSSH.SessionRoute

open AuthProof SessionControl SessionLink

structure LeaseEntry where
  version : Text
  linkID : ID
  transportID : TransportID
  generation : UInt64
  binding : Text
  socket : Text
  localNode : Text
  peerNode : Text
  chainID : Text
  chainSHA256 : Text
  topology : List Text
  localIndex : ℤ
  peerIndex : ℤ
  pid : ℤ
  startedAt : Time
  updatedAt : Time
  leaseUntil : Time
deriving DecidableEq, Repr

structure LeaseRegistry where
  version : Text
  entries : List LeaseEntry
deriving DecidableEq, Repr

def leaseRegistryVersion : Text := "weaverssh.route-leases.v1"

def maxLeaseRegistryBytes : ℕ := 2 ^ 20

def LeaseEntry.scrub (e : LeaseEntry) : LeaseEntry :=
  { e with
    version := WeaverSSH.scrub e.version
    linkID := WeaverSSH.scrub e.linkID
    transportID := WeaverSSH.scrub e.transportID
    binding := WeaverSSH.scrub e.binding
    socket := WeaverSSH.scrub e.socket
    localNode := WeaverSSH.scrub e.localNode
    peerNode := WeaverSSH.scrub e.peerNode
    chainID := WeaverSSH.scrub e.chainID
    chainSHA256 := WeaverSSH.scrub e.chainSHA256
    topology := e.topology.map WeaverSSH.scrub }

def LeaseRegistry.scrub (r : LeaseRegistry) : LeaseRegistry :=
  ⟨WeaverSSH.scrub r.version, r.entries.map LeaseEntry.scrub⟩

def standsAt (topology : List Text) (index : ℤ) (node : Text) : Bool :=
  0 ≤ index && index < topology.length && topology[index.toNat]? = some node

def expiredLease (entry : LeaseEntry) (now : Time) : Bool :=
  isZero entry.leaseUntil || entry.leaseUntil ≤ now

section

variable [Unicode]

def normalizeLeaseEntry (entry : LeaseEntry) : LeaseEntry :=
  { entry with
    version := orElse entry.version leaseRegistryVersion
    linkID := trimSpace entry.linkID
    transportID := trimSpace entry.transportID
    binding := trimSpace entry.binding
    socket := trimSpace entry.socket
    localNode := trimSpace entry.localNode
    peerNode := trimSpace entry.peerNode
    chainID := trimSpace entry.chainID
    chainSHA256 := toLower (trimSpace entry.chainSHA256)
    topology := entry.topology.map trimSpace }

variable [SHA256]

/-- `validateLeaseEntry`. `Sub` gives the nearest duration, which is longer than the longest lease
where the difference is. -/
def validateLeaseEntry (entry : LeaseEntry) (now : Time) : Except RouteErr Unit := do
  require (entry.version = leaseRegistryVersion && validateID entry.linkID = .ok () &&
    validateTransportID entry.transportID = .ok () && entry.generation ≠ 0 &&
    entry.binding ≠ [] && entry.socket ≠ [] && entry.localNode ≠ [] && entry.peerNode ≠ [] &&
    entry.chainID ≠ [] && len entry.chainSHA256 = 64 && 2 ≤ entry.topology.length &&
    0 < entry.pid && !isZero entry.startedAt && !isZero entry.updatedAt &&
    !isZero entry.leaseUntil) .invalidEntry
  require (now < entry.leaseUntil && entry.leaseUntil - now ≤ maxLease) (.link .invalidLease)
  require (standsAt entry.topology entry.localIndex entry.localNode &&
    standsAt entry.topology entry.peerIndex entry.peerNode &&
    (entry.localIndex - entry.peerIndex).natAbs = 1) .invalidEntry
  require (deriveID ⟨entry.chainSHA256, entry.topology, entry.localNode, entry.peerNode⟩ =
    .ok entry.linkID) .invalidEntry

/-- The loop of the four operations over the entries: `decide` says whether an entry that is good
stays, and as what. -/
def sweep (now : Time) (decide : LeaseEntry → Except RouteErr (Option LeaseEntry)) :
    List LeaseEntry → Except RouteErr (List LeaseEntry)
  | [] => .ok []
  | raw :: rest =>
    let entry := normalizeLeaseEntry raw
    if expiredLease entry now || validateLeaseEntry entry now ≠ .ok () then sweep now decide rest
    else do
      let kept ← decide entry
      let entries ← sweep now decide rest
      return kept.toList ++ entries

/-- What `Register` does with an entry that is there: an older generation never replaces it. -/
def supersede (entry existing : LeaseEntry) : Except RouteErr (Option LeaseEntry) :=
  if existing.linkID ≠ entry.linkID then .ok (some existing)
  else if entry.generation < existing.generation then .error (.link .generationMismatch)
  else if existing.generation = entry.generation ∧ existing.transportID ≠ entry.transportID then
    .error (.link .generationMismatch)
  else .ok none

/-- What `Renew` does with an entry. -/
def prolong (token : Token) (leaseUntil now : Time) (entry : LeaseEntry) :
    Except RouteErr (Option LeaseEntry) :=
  if entry.linkID = token.linkID then
    if entry.transportID ≠ token.transportID ∨ entry.generation ≠ token.generation then
      .error (.link .generationMismatch)
    else .ok (some { entry with leaseUntil := leaseUntil, updatedAt := now })
  else .ok (some entry)

/-- What `Remove` does with an entry: only the exact generation goes. -/
def withdraw (token : Token) (entry : LeaseEntry) : Except RouteErr (Option LeaseEntry) :=
  if entry.linkID = token.linkID ∧ entry.transportID = token.transportID ∧
      entry.generation = token.generation then .ok none
  else .ok (some entry)

/-- What `ResetLink` does with an entry. -/
def reset (linkID : ID) (entry : LeaseEntry) : Except RouteErr (Option LeaseEntry) :=
  .ok (if entry.linkID = linkID then none else some entry)

inductive LeaseOp where
  | register (entry : LeaseEntry)
  | renew (token : Token) (leaseUntil : Time)
  | remove (token : Token)
  | resetLink (linkID : ID)

/-- What is asked of a call before it takes the lock. -/
def LeaseOp.checkArgs (now : Time) : LeaseOp → Except RouteErr Unit
  | .register entry => validateLeaseEntry (normalizeLeaseEntry entry) now
  | .renew _ leaseUntil =>
    require (!isZero leaseUntil && now < leaseUntil && leaseUntil - now ≤ maxLease)
      (.link .invalidLease)
  | .remove _ => .ok ()
  | .resetLink linkID => require (validateID linkID = .ok ()) (.link .invalidDescriptor)

def LeaseOp.apply (now : Time) : LeaseOp → List LeaseEntry → Except RouteErr (List LeaseEntry)
  | .register entry, entries => do
    let entries ← sweep now (supersede (normalizeLeaseEntry entry)) entries
    return entries ++ [normalizeLeaseEntry entry]
  | .renew token leaseUntil, entries => do
    let entries ← sweep now (prolong token leaseUntil now) entries
    -- `found`: every entry of the link that stayed is one that was renewed
    require (entries.any (·.linkID = token.linkID)) .noRoute
    return entries
  | .remove token, entries => sweep now (withdraw token) entries
  | .resetLink linkID, entries => sweep now (reset linkID) entries

omit [Unicode] [SHA256] in
/-- `snapshotUnlocked`: a file that is not there is an empty registry. -/
def snapshotUnlocked (file : Option LeaseRegistry) : Except RouteErr LeaseRegistry :=
  match file with
  | none => .ok ⟨leaseRegistryVersion, []⟩
  | some registry =>
    if registry.version ≠ leaseRegistryVersion then .error (.unsupportedVersion registry.version)
    else .ok registry

/-- One call on the file, with its clock reading. -/
structure LeaseCall where
  op : LeaseOp
  now : Time
  held : Time
  written : Bool

def LeaseCall.rewrite (size : LeaseRegistry → Option ℕ) (call : LeaseCall)
    (file : Option LeaseRegistry) : Except RouteErr LeaseRegistry := do
  call.op.checkArgs call.now
  let registry ← snapshotUnlocked file
  let entries ← call.op.apply call.now registry.entries
  let registry : LeaseRegistry := ⟨leaseRegistryVersion, entries⟩
  let payload ← (size registry).elim (.error .encode) .ok
  require (payload ≤ maxLeaseRegistryBytes) .tooLarge
  require call.written .storage
  return registry.scrub

/-- `Register`, `Renew`, `Remove` and `ResetLink`. -/
def LeaseCall.perform (size : LeaseRegistry → Option ℕ) (call : LeaseCall)
    (file : Option LeaseRegistry) : Option LeaseRegistry × Except RouteErr Unit :=
  match call.rewrite size file with
  | .error e => (file, .error e)
  | .ok registry => (some registry, .ok ())

end

def LeaseOp.link : LeaseOp → ID
  | .register entry => trimSpace entry.linkID
  | .renew token _ => token.linkID
  | .remove token => token.linkID
  | .resetLink linkID => linkID

end WeaverSSH.SessionRoute
