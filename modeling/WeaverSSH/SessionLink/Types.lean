import WeaverSSH.Framework.Clock
import WeaverSSH.Framework.Digest

/-!
# Logical links: descriptors, identifiers, tokens

A logical link joins two neighbours of a chain of nodes and outlives the transports that carry it.
Its identifier is a digest of the chain and of the two nodes in chain order (`deriveID`), so that
both ends derive the same one. A transport holds a `Token`: the link, the transport, and a
generation.
-/

namespace WeaverSSH.SessionLink

open SHA256

abbrev ID := Text

abbrev TransportID := Text

/-- The errors of the package. -/
inductive LinkErr where
  | invalidDescriptor
  | nodesNotAdjacent
  | invalidTransport
  | invalidLease
  | notReady
  | generationMismatch
  | leaseExpired
deriving DecidableEq, Repr

inductive State where
  | disconnected
  | connecting
  | ready
  | draining
deriving DecidableEq, Repr

structure Descriptor where
  chainSHA256 : Text
  topology : List Text
  localNode : Text
  peerNode : Text
deriving DecidableEq, Repr

structure Token where
  linkID : ID
  transportID : TransportID
  generation : UInt64
deriving DecidableEq, Repr

structure Snapshot where
  version : Text
  linkID : ID
  transportID : TransportID := []
  generation : UInt64 := 0
  localNode : Text := []
  peerNode : Text := []
  state : State
  lastError : Text := []
  leaseUntil : Time := zeroTime
  updatedAt : Time
deriving DecidableEq, Repr

def idVersion : Text := "weaverssh.session-link.v1"

/-- `MaxLease`: a day. -/
def maxLease : Duration := 24 * 60 * 60 * second

def Snapshot.readyAt (s : Snapshot) (now : Time) : Bool :=
  s.state = .ready && !isZero s.leaseUntil && now < s.leaseUntil

section

variable [Unicode]

def validNode (value : Text) : Bool :=
  value ≠ [] && len value ≤ 256 && value.all fun r => !(r.isSpace || r.isControl)

/-- The nodes of a topology, trimmed; none may be invalid or stand twice. -/
def normalizeTopology : List Text → List Text → Option (List Text)
  | _, [] => some []
  | seen, raw :: rest =>
    let node := trimSpace raw
    if !validNode node || node ∈ seen then none
    else (normalizeTopology (node :: seen) rest).map (node :: ·)

/-- `normalizeDescriptor`: the descriptor with its texts trimmed, and its two nodes in the order of
the chain. -/
def normalizeDescriptor (raw : Descriptor) : Except LinkErr (Descriptor × Text × Text) :=
  let chain := toLower (trimSpace raw.chainSHA256)
  let localNode := trimSpace raw.localNode
  let peerNode := trimSpace raw.peerNode
  if len chain ≠ 64 || !hexDecodes chain then .error .invalidDescriptor
  else if !validNode localNode || !validNode peerNode || localNode = peerNode then
    .error .invalidDescriptor
  else if raw.topology.length < 2 || 1024 < raw.topology.length then .error .invalidDescriptor
  else
    match normalizeTopology [] raw.topology with
    | none => .error .invalidDescriptor
    | some nodes =>
      -- no node stands twice, so the first place of a node is also its last
      match nodes.idxOf? localNode, nodes.idxOf? peerNode with
      | some i, some j =>
        let out : Descriptor := ⟨chain, nodes, localNode, peerNode⟩
        if i + 1 = j then .ok (out, localNode, peerNode)
        else if j + 1 = i then .ok (out, peerNode, localNode)
        else .error .nodesNotAdjacent
      | _, _ => .error .nodesNotAdjacent

/-- `DeriveID`: each of the four texts is followed by a zero byte. -/
def deriveID [SHA256] (raw : Descriptor) : Except LinkErr ID :=
  match normalizeDescriptor raw with
  | .error e => .error e
  | .ok (descriptor, lower, upper) =>
    .ok (hex ([idVersion, descriptor.chainSHA256, lower, upper].flatMap
      fun value => bytes value ++ [0]))

def validateTransportID (id : TransportID) : Except LinkErr Unit :=
  let value := trimSpace id
  if len value < 8 || 512 < len value then .error .invalidTransport
  else if value.any fun r => r.isSpace || r.isControl then .error .invalidTransport
  else .ok ()

def validateID (id : ID) : Except LinkErr Unit :=
  if len id ≠ 64 then .error .invalidDescriptor
  else if !hexDecodes id || id ≠ toLower id then .error .invalidDescriptor
  else .ok ()

def validateLease (lease : Duration) : Except LinkErr Unit :=
  if lease ≤ 0 || maxLease < lease then .error .invalidLease else .ok ()

lemma validateID_of_deriveID [SHA256] {raw : Descriptor} {id : ID} (h : deriveID raw = .ok id) :
    validateID id = .ok () := by
  obtain ⟨m, rfl⟩ : ∃ m, id = hex m := by
    unfold deriveID at h
    split at h
    · cases h
    · exact ⟨_, (Except.ok.inj h).symm⟩
  have hlow := lowerHex_hex m
  have hlen : len (hex m) = 64 := (len_of_lowerHex hlow).trans (length_hex m)
  have hdec : hexDecodes (hex m) = true := by
    simp only [hexDecodes, Bool.and_eq_true, List.all_eq_true]
    exact ⟨fun r hr => Rune.isHex_of_isLowerHex (hlow r hr), by simp [length_hex]⟩
  simp [validateID, hlen, hdec, toLower_of_lowerHex hlow]

end

end WeaverSSH.SessionLink
