import WeaverSSH.AuthProof.NodeContext
import WeaverSSH.SessionLink.Types
import WeaverSSH.SessionMux.Frame

/-!
# Reconnecting to a logical link

The acceptor of a reconnection makes a `ReconnectChallenge` for one link, transport and peer.
-/

namespace WeaverSSH.SessionControl

open AuthProof SessionLink SessionMux

structure ReconnectChallenge where
  version : Text
  algorithm : Text
  challengeID : Text
  linkID : ID
  transportID : TransportID
  sessionBinding : Text
  chainSHA256 : Text
  acceptorNode : Text
  proverNode : Text
  issuedAtUnix : ℤ
  expiresAtUnix : ℤ
deriving DecidableEq, Repr

/-- The errors of the package, and those of the package below. -/
inductive ReconnectErr where
  | challenge
  | proof
  | entropy
  | auth (err : AuthErr)
deriving DecidableEq, Repr

def reconnectChallengeVersion : Text := "weaverssh.reconnect-challenge.v1"

/-- `MaxReconnectChallengeTTL`: two minutes. -/
def maxReconnectChallengeTTL : Duration := 2 * 60 * second

def validReconnectText (value : Text) (max : ℕ) : Bool :=
  let value := trimSpace value
  value ≠ [] && len value ≤ max && value.all fun r => !(r.isControl || r.isSpace)

section

variable [Unicode]

def validSHA256 (value : Text) : Bool :=
  len value == 64 && value = toLower value && hexDecodes value

def ReconnectChallenge.normalized (c : ReconnectChallenge) : ReconnectChallenge :=
  { c with
    version := trimSpace (orElse c.version reconnectChallengeVersion)
    algorithm := trimSpace (orElse c.algorithm AuthProof.algorithm)
    challengeID := trimSpace c.challengeID
    transportID := trimSpace c.transportID
    sessionBinding := trimSpace c.sessionBinding
    chainSHA256 := toLower (trimSpace c.chainSHA256)
    acceptorNode := trimSpace c.acceptorNode
    proverNode := trimSpace c.proverNode }

def ReconnectChallenge.validate (c : ReconnectChallenge) (now clock : Time) :
    Except ReconnectErr Unit := do
  let c := c.normalized
  require (c.version = reconnectChallengeVersion && c.algorithm = AuthProof.algorithm &&
    validReconnectText c.challengeID 512 && (validateID c.linkID).isOk &&
    (validateTransportID c.transportID).isOk && validReconnectText c.sessionBinding 512 &&
    validSHA256 c.chainSHA256 && validReconnectText c.acceptorNode 256 &&
    validReconnectText c.proverNode 256 && c.acceptorNode ≠ c.proverNode &&
    0 < c.issuedAtUnix && c.issuedAtUnix < c.expiresAtUnix &&
    seconds (int64 (c.expiresAtUnix - c.issuedAtUnix)) ≤ maxReconnectChallengeTTL) .challenge
  let now := nowOr now clock
  require (c.issuedAtUnix ≤ unix now && unix now < c.expiresAtUnix) .challenge

end

end WeaverSSH.SessionControl
