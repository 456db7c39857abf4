import WeaverSSH.Framework.Sha256
import WeaverSSH.HopProof.Spec
import WeaverSSH.SessionControl.Reconnect
import WeaverSSH.SocksProof.Protocol

/-!
# Lifetimes of signed objects

Five functions decide whether a signed object's window is open and no longer than a limit, and each
multiplies the length of the window by a second in 64 bits. A window longer than a duration wraps
(`wrapped_lifetimes_accepted`).
-/

namespace WeaverSSH

open AuthProof HopProof SocksProof SessionControl

/-- What an accepted window is to satisfy, computed exactly: it is no longer than `maxTTL`, and the
clock is in it but for `skew`. -/
structure WithinLimits (issued expires : ℤ) (maxTTL : Duration) (now : Time) (skew : Duration) :
    Prop where
  length : (expires - issued) * second ≤ maxTTL
  begun : issued ≤ unix (now + skew)
  unexpired : unix (now - skew) < expires

variable {maxTTL : Duration} {now : Time}

/-- The one argument behind the five functions. -/
lemma withinLimits_iff {issued expires : ℤ} {skew : Duration}
    (hexpires : IsInt64 expires) (hmax : IsInt64 maxTTL) (hpos : 0 < issued)
    (hwindow : issued < expires) (hlife : seconds (int64 (expires - issued)) ≤ maxTTL)
    (hbegun : issued ≤ unix (now + skew)) (hunexpired : unix (now - skew) < expires) :
    WithinLimits issued expires maxTTL now skew ↔ expires - issued ≤ maxSeconds := by
  rw [int64_window hpos hwindow hexpires] at hlife
  have hexact := seconds_within_iff (by omega) hmax hlife
  exact ⟨fun h => hexact.mp h.length, fun h => ⟨hexact.mpr h, hbegun, hunexpired⟩⟩

lemma withinLimits_of_checkLifetime {issued expires : ℤ}
    (hexpires : IsInt64 expires) (hmax : IsInt64 maxTTL) (hset : 0 < maxTTL)
    (hwindow : 0 < issued ∧ issued < expires)
    (h : checkLifetime issued expires maxTTL now = .ok ()) :
    WithinLimits issued expires maxTTL now 0 ↔ expires - issued ≤ maxSeconds := by
  obtain ⟨hbegun, hunexpired, hlife⟩ := checkLifetime_eq_ok.mp h
  exact withinLimits_iff hexpires hmax hwindow.1 hwindow.2 (hlife hset) (by simpa) (by simpa)

variable {options : HopProof.VerifyOptions}

lemma isInt64_limit (h : IsInt64 options.maxTTL) : IsInt64 options.limit := by
  unfold HopProof.VerifyOptions.limit
  split_ifs
  · decide
  · exact h

section

variable [Unicode]

lemma validate_lifetime {c : ReconnectChallenge} {now clock : Time}
    (h : c.validate now clock = .ok ()) : 0 < c.issuedAtUnix ∧ c.issuedAtUnix < c.expiresAtUnix ∧
      seconds (int64 (c.expiresAtUnix - c.issuedAtUnix)) ≤ maxReconnectChallengeTTL ∧
      c.issuedAtUnix ≤ unix (nowOr now clock) ∧ unix (nowOr now clock) < c.expiresAtUnix := by
  simp only [ReconnectChallenge.validate, checks_ok] at h
  obtain ⟨⟨⟨⟨-, hpos⟩, hwindow⟩, hlife⟩, hbegun, hunexpired⟩ := h
  exact ⟨hpos, hwindow, hlife, hbegun, hunexpired⟩

variable [SHA256]

lemma Linked.lifetimes {nodeContext : NodeContext}
    {verifier : Text → List UInt8 → List UInt8 → Bool}
    (hmax : IsInt64 options.maxTTL) {hops : List SignedHop} {record : ℕ}
    {previousDigest : Text} (h : Linked nodeContext verifier options now record previousDigest hops)
    (hint : ∀ s ∈ hops, IsInt64 s.hop.expiresAtUnix) (s : SignedHop) (hs : s ∈ hops) :
    WithinLimits s.hop.issuedAtUnix s.hop.expiresAtUnix options.limit now options.skew ↔
      s.hop.expiresAtUnix - s.hop.issuedAtUnix ≤ maxSeconds := by
  obtain ⟨i, hi⟩ := List.mem_iff_getElem?.mp hs
  obtain ⟨digest, hadmitted⟩ := h.admitted hi
  exact withinLimits_iff (hint s hs) (isInt64_limit hmax) hadmitted.positive hadmitted.window
    hadmitted.lifetime hadmitted.begun hadmitted.unexpired

/-- **Lifetime limits.** Whatever one of the five functions accepts, its window is within the limit
and around the clock exactly where the window is no longer than a duration can be. -/
theorem lifetime_limits [Ed25519] : (∀ (issued expires : ℤ) (maxTTL : Duration) (now clock : Time),
      IsInt64 issued → IsInt64 expires → IsInt64 maxTTL → 0 < maxTTL →
      validateTime issued expires maxTTL now clock = .ok () →
      (WithinLimits issued expires maxTTL (nowOr now clock) 0 ↔ expires - issued ≤ maxSeconds)) ∧
    (∀ (cache cache' : Option NonceCache) (sg : SignedGrant) (publicKey : List UInt8)
      (opts : AuthProof.VerifyOptions) (clock : Time) (grant : Grant),
      IsInt64 grant.issuedAtUnix → IsInt64 grant.expiresAtUnix → IsInt64 opts.maxTTL →
      0 < opts.maxTTL → verifySignedGrant cache sg publicKey opts clock = (cache', .ok grant) →
      (WithinLimits grant.issuedAtUnix grant.expiresAtUnix opts.maxTTL (nowOr opts.now clock) 0 ↔
        grant.expiresAtUnix - grant.issuedAtUnix ≤ maxSeconds)) ∧
    (∀ (cache cache' : Option NonceCache) (sc : SignedNodeContext) (publicKey : List UInt8)
      (opts : NodeContextVerifyOptions) (clock : Time) (ctx : NodeContext),
      IsInt64 ctx.issuedAtUnix → IsInt64 ctx.expiresAtUnix → IsInt64 opts.maxTTL → 0 < opts.maxTTL →
      verifySignedNodeContext cache sc publicKey opts clock = (cache', .ok ctx) →
      (WithinLimits ctx.issuedAtUnix ctx.expiresAtUnix opts.maxTTL (nowOr opts.now clock) 0 ↔
        ctx.expiresAtUnix - ctx.issuedAtUnix ≤ maxSeconds)) ∧
    (∀ (cache cache' : Option NonceCache) (nodeContext : NodeContext) (chain : Chain)
      (verifier : Text → List UInt8 → List UInt8 → Bool) (options : HopProof.VerifyOptions)
      (clock : Time), (∀ s ∈ chain.hops, IsInt64 s.hop.issuedAtUnix ∧ IsInt64 s.hop.expiresAtUnix) →
      IsInt64 options.maxTTL →
      verify cache nodeContext chain verifier options clock = (cache', .ok ()) →
      ((∀ s ∈ chain.hops, WithinLimits s.hop.issuedAtUnix s.hop.expiresAtUnix options.limit
        (nowOr options.now clock) options.skew) ↔
        ∀ s ∈ chain.hops, s.hop.expiresAtUnix - s.hop.issuedAtUnix ≤ maxSeconds)) ∧
    (∀ (c : ReconnectChallenge) (now clock : Time),
      IsInt64 c.issuedAtUnix → IsInt64 c.expiresAtUnix → c.validate now clock = .ok () →
      (WithinLimits c.issuedAtUnix c.expiresAtUnix maxReconnectChallengeTTL (nowOr now clock) 0 ↔
        c.expiresAtUnix - c.issuedAtUnix ≤ maxSeconds)) := by
  refine ⟨?_, ?_, ?_, ?_, ?_⟩
  · intro issued expires maxTTL now clock _ hexpires hmax hset h
    simp only [validateTime, checks_ok, Bool.not_eq_true', Bool.and_eq_false_iff,
      decide_eq_false_iff_not, not_lt] at h
    obtain ⟨⟨⟨⟨hpos, hwindow⟩, hbegun⟩, hunexpired⟩, hlife⟩ := h
    exact withinLimits_iff hexpires hmax hpos hwindow (hlife.resolve_left (not_le.mpr hset))
      (by simpa) (by simpa)
  · intro cache cache' sg publicKey opts clock grant _ hexpires hmax hset h
    obtain ⟨-, hwindow, hlife⟩ := admitGrant_ok (acceptOnce_ok h).1
    exact withinLimits_of_checkLifetime hexpires hmax hset hwindow hlife
  · intro cache cache' sc publicKey opts clock ctx _ hexpires hmax hset h
    obtain ⟨-, hwindow, hlife⟩ := admitNodeContext_ok (acceptOnce_ok h).1
    exact withinLimits_of_checkLifetime hexpires hmax hset hwindow hlife
  · intro cache cache' nodeContext chain verifier options clock hint hmax h
    obtain ⟨index, -, -, -, -, -, hhops, -⟩ := verify_eq_ok.mp h
    exact forall₂_congr fun s hs =>
      Linked.lifetimes hmax (verifyHops_ok hhops) (fun s hs => (hint s hs).2) s hs
  · intro c now clock _ hexpires h
    obtain ⟨hpos, hwindow, hlife, hbegun, hunexpired⟩ := validate_lifetime h
    exact withinLimits_iff hexpires (by decide) hpos hwindow hlife (by simpa) (by simpa)

end

/-! ### A lifetime of 585 years -/

attribute [local instance] asciiCase sha256 checksumScheme

/-- The least number of seconds whose product comes out at less than a second. -/
def wrappingLifetime : ℤ := 18446744074

/-- An instant a minute after the epoch. -/
def early : Time := 60 * second

def nobodysKey : List UInt8 := List.replicate 32 0

def noDigest : Text := List.replicate 64 (.char '0')

/-- A grant that is valid for `lifetime` seconds, and its signature. -/
def grantFor (lifetime : ℤ) : SignedGrant :=
  let grant : Grant :=
    { version := grantVersion, algorithm := AuthProof.algorithm, issuerPeerID := "issuer"
      subjectPeerID := "subject", audience := "audience", sessionID := "session"
      capabilities := ["x11.relay"], securityLevel := [], x11CookieSHA256 := noDigest
      chainSHA256 := noDigest, nonce := "nonce", issuedAtUnix := 1
      expiresAtUnix := 1 + lifetime }
  ⟨grant, Base64.encode (checksum nobodysKey (Json.marshal grant.json))⟩

def contextFor (lifetime : ℤ) : NodeContext :=
  { version := nodeContextVersion, algorithm := AuthProof.algorithm, issuerPeerID := "issuer"
    audience := audienceNodeContext, chainID := "chain", chainSHA256 := noDigest
    nodes := ["a", "b"], currentNode := "b", originNode := "a"
    endpointNode := "b", capabilities := [capabilityNodeContext], nonce := "nonce"
    issuedAtUnix := 1, expiresAtUnix := 1 + lifetime }

def signedContextFor (lifetime : ℤ) : SignedNodeContext :=
  ⟨contextFor lifetime,
    Base64.encode (checksum nobodysKey (Json.marshal (contextFor lifetime).json))⟩

def nodeChecksum (node : Text) (message : List UInt8) : List UInt8 := checksum (bytes node) message

def nodeVerifier (node : Text) (message signature : List UInt8) : Bool :=
  signature = nodeChecksum node message

/-- The chain of one hop between the two nodes. -/
def chainFor (lifetime : ℤ) : Chain :=
  let hop : Hop :=
    { version := hopVersion, chainID := "chain", chainSHA256 := noDigest
      rootNode := "a", fromNode := "a", toNode := "b", hopIndex := 1
      nonce := "nonce", issuedAtUnix := 1, expiresAtUnix := 1 + lifetime }
  ⟨chainVersion, [⟨"a", hop, Base64.encode (nodeChecksum "a" (Json.marshal hop.json))⟩]⟩

def challengeFor (lifetime : ℤ) : ReconnectChallenge :=
  { version := reconnectChallengeVersion, algorithm := AuthProof.algorithm
    challengeID := "challenge", linkID := noDigest, transportID := "transport"
    sessionBinding := "session", chainSHA256 := noDigest, acceptorNode := "a"
    proverNode := "b", issuedAtUnix := 1, expiresAtUnix := 1 + lifetime }

/-- The five functions accept a lifetime, with a limit of one minute where one is to be set. -/
def AllAccept (lifetime : ℤ) : Prop :=
  validateTime 1 (1 + lifetime) (60 * second) early 0 = .ok () ∧
  (verifySignedGrant none (grantFor lifetime) nobodysKey
    { now := early, maxTTL := 60 * second } 0).2 = .ok (grantFor lifetime).grant ∧
  (verifySignedNodeContext none (signedContextFor lifetime) nobodysKey
    { now := early, maxTTL := 60 * second } 0).2 = .ok (contextFor lifetime) ∧
  (verify none (contextFor lifetime) (chainFor lifetime) nodeVerifier
    { now := early, maxTTL := 60 * second } 0).2 = .ok () ∧
  (challengeFor lifetime).validate early 0 = .ok ()

instance (lifetime : ℤ) : Decidable (AllAccept lifetime) :=
  inferInstanceAs (Decidable (_ ∧ _ ∧ _ ∧ _ ∧ _))

theorem lifetime_limits_minute :
    AllAccept 60 ∧ WithinLimits 1 61 (60 * second) early 0 := by
  have haccept : AllAccept 60 := by decide +kernel
  refine ⟨haccept, ?_⟩
  exact (lifetime_limits.1 1 61 (60 * second) early 0 (by decide) (by decide) (by decide)
    (by decide) haccept.1).mpr (by decide)

/-- A window of 585 years is accepted under limits of minutes. -/
theorem wrapped_lifetimes_accepted :
    AllAccept wrappingLifetime ∧ maxReconnectChallengeTTL < wrappingLifetime * second := by
  decide +kernel

end WeaverSSH
