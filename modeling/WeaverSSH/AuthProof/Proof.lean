import WeaverSSH.Framework.Base64
import WeaverSSH.Framework.Checks
import WeaverSSH.Framework.Clock
import WeaverSSH.Framework.Digest
import WeaverSSH.Framework.Json
import WeaverSSH.Framework.ReplayCache

/-!
# Grants and the cache of their nonces

A `Grant` is a payload a trusted peer signs: who may do what, in which session, and from when to
when. `verifySignedGrant` accepts one for the session at hand and last of all stores its nonce in a
shared cache, `NonceCache`.

The signature is over the JSON text of the normalised grant, and Ed25519 itself is a parameter.
`time.Now` is the argument `clock`. Where several fields are empty the source names any one of them;
here it is the first.
-/

namespace WeaverSSH.AuthProof

open List

/-- `ed25519.Verify`, on a public key, a message and a signature. -/
class Ed25519 where
  verify : List UInt8 → List UInt8 → List UInt8 → Bool

def publicKeySize : ℕ := 32

def signatureSize : ℕ := 64

/-- What the package's `ErrInvalidGrant` is wrapped with. -/
inductive Fault where
  | publicKeySize
  | unsupportedVersion (version : Text)
  | unsupportedAlgorithm (algorithm : Text)
  | missing (field : String)
  | notLowerHex (field : String)
  | unknownCapability (capability : Text)
  | validityWindow
  | noNodes
  | notInChain (node : Text)
  | originNotFirst
  | endpointNotLast
deriving DecidableEq, Repr

/-- The errors of the package. -/
inductive AuthErr where
  | invalidGrant (fault : Fault)
  | invalidSignature
  | expiredGrant
  | notYetValid
  | wrongAudience
  | wrongSubject
  | missingCapability
  | wrongX11CookieHash
  | wrongChainHash
  | grantTTLTooLong
  | replay
  | invalidSecurityLevel (level : Text)
  | wrongSecurityLevel
  | invalidReconnectIdentity
deriving DecidableEq, Repr

/-! ## The cache -/

/-- `NonceCache`: the nonces accepted, each until its grant expires. -/
abbrev NonceCache := ReplayCache Text

/-- `CheckAndStore`; a cache that is not there refuses nothing. -/
def checkAndStore (cache : Option NonceCache) (nonce : Text) (expiresAtUnix : ℤ) (now : Time) :
    Option NonceCache × Except AuthErr Unit :=
  match cache with
  | none => (none, .ok ())
  | some c =>
    let (c, stored) := c.check nonce expiresAtUnix (unix now)
    (some c, if stored then .ok () else .error .replay)

/-! ## Capabilities and levels -/

def algorithm : Text := "Ed25519"

def knownCapabilities : List Text :=
  ["x11.relay", "websocket.upgrade", "socks.proxy", "file.backhaul",
    "vfs.mesh", "node.context", "compute.mapreduce"]

def knownCapability (cap : Text) : Bool := knownCapabilities.contains cap

/-- The texts of a list, trimmed: no blank one, and each where it stands first. -/
def distinctTrimmed : List Text → List Text → List Text
  | _, [] => []
  | seen, raw :: rest =>
    let value := trimSpace raw
    if value = [] || seen.contains value then distinctTrimmed seen rest
    else value :: distinctTrimmed (value :: seen) rest

/-- `normalizeCapabilities`: `sort.Strings` compares bytes. -/
def normalizeCapabilities (caps : List Text) : List Text :=
  (distinctTrimmed [] caps).insertionSort fun a b => bytes a ≤ bytes b

def hasCapability (caps : List Text) (required : Text) : Bool := caps.contains (trimSpace required)

def isLowerHexSHA256 (s : Text) : Bool := len s == 64 && s.all Rune.isLowerHex

section

variable [Unicode]

def levelNames : List (Text × List Text) :=
  [("compat", ["", "auto", "compat"]),
   ("same_uid", ["sameuid", "same_uid", "uid"]),
   ("x11_cookie", ["cookie", "x11", "x11_cookie", "mit_cookie",
     "mit_magic_cookie"]),
   ("agent_proof", ["agent", "agent_proof", "ssh_agent",
     "ssh_agent_proof", "key_proof", "private_key"]),
   ("strict", ["strict"])]

/-- `NormalizeSecurityLevel`: an unknown level keeps its dashes. -/
def normalizeSecurityLevel (level : Text) : Text :=
  let underscored := level.map fun r => if r = .char '-' then .char '_' else r
  let name := toLower (trimSpace underscored)
  match levelNames.find? (·.2.contains name) with
  | some p => p.1
  | none => toLower (trimSpace level)

def knownSecurityLevel (level : Text) : Bool :=
  (levelNames.map Prod.fst).contains (normalizeSecurityLevel level)

/-! ## Grants -/

structure Grant where
  version : Text
  algorithm : Text
  issuerPeerID : Text
  subjectPeerID : Text
  audience : Text
  sessionID : Text
  capabilities : List Text
  securityLevel : Text
  x11CookieSHA256 : Text
  chainSHA256 : Text
  nonce : Text
  issuedAtUnix : ℤ
  expiresAtUnix : ℤ
deriving DecidableEq, Repr

structure SignedGrant where
  grant : Grant
  signature : Text
deriving DecidableEq, Repr

/-- `VerifyOptions`, but for the cache. -/
structure VerifyOptions where
  now : Time := zeroTime
  audience : Text := []
  subjectPeerID : Text := []
  requiredCapabilities : List Text := []
  securityLevel : Text := []
  x11CookieSHA256 : Text := []
  chainSHA256 : Text := []
  maxTTL : Duration := 0
deriving Repr

def grantVersion : Text := "weaverssh.auth.v1"

def orElse (value default : Text) : Text := if value = [] then default else value

def Grant.normalized (g : Grant) : Grant :=
  let level := normalizeSecurityLevel g.securityLevel
  { g with
    version := orElse g.version grantVersion
    algorithm := orElse g.algorithm AuthProof.algorithm
    issuerPeerID := trimSpace g.issuerPeerID
    subjectPeerID := trimSpace g.subjectPeerID
    audience := trimSpace g.audience
    sessionID := trimSpace g.sessionID
    nonce := trimSpace g.nonce
    x11CookieSHA256 := toLower (trimSpace g.x11CookieSHA256)
    chainSHA256 := toLower (trimSpace g.chainSHA256)
    capabilities := normalizeCapabilities g.capabilities
    securityLevel := if level = "compat" then [] else level }

/-- The window of a signed object: from a positive second to a later one. -/
def validWindow (issued expires : ℤ) : Bool := 0 < issued && 0 < expires && issued < expires

def Grant.validate (g : Grant) : Except AuthErr Unit := do
  let g := g.normalized
  require (g.version = grantVersion) (.invalidGrant (.unsupportedVersion g.version))
  require (g.algorithm = AuthProof.algorithm) (.invalidGrant (.unsupportedAlgorithm g.algorithm))
  requirePresent (fun name => .invalidGrant (.missing name))
    [("issuer_peer_id", g.issuerPeerID), ("subject_peer_id", g.subjectPeerID),
      ("audience", g.audience), ("session_id", g.sessionID), ("nonce", g.nonce),
      ("x11_cookie_sha256", g.x11CookieSHA256), ("chain_sha256", g.chainSHA256)]
  require (g.capabilities ≠ []) (.invalidGrant (.missing "capabilities"))
  require (g.securityLevel = [] || knownSecurityLevel g.securityLevel)
    (.invalidSecurityLevel g.securityLevel)
  require (isLowerHexSHA256 g.x11CookieSHA256) (.invalidGrant (.notLowerHex "x11_cookie_sha256"))
  require (isLowerHexSHA256 g.chainSHA256) (.invalidGrant (.notLowerHex "chain_sha256"))
  require (validWindow g.issuedAtUnix g.expiresAtUnix) (.invalidGrant .validityWindow)
  requireNone (g.capabilities.find? (!knownCapability ·)) fun cap =>
    .invalidGrant (.unknownCapability cap)

def Grant.json (g : Grant) : Json :=
  .obj ([(text "version", .str g.version), (text "algorithm", .str g.algorithm),
    (text "issuer_peer_id", .str g.issuerPeerID), (text "subject_peer_id", .str g.subjectPeerID),
    (text "audience", .str g.audience), (text "session_id", .str g.sessionID),
    (text "capabilities", .arr (g.capabilities.map .str))] ++
    Json.optional "security_level" g.securityLevel ++
    [(text "x11_cookie_sha256", .str g.x11CookieSHA256), (text "chain_sha256", .str g.chainSHA256),
    (text "nonce", .str g.nonce), (text "issued_at_unix", .int g.issuedAtUnix),
    (text "expires_at_unix", .int g.expiresAtUnix)])

def canonicalBytes (g : Grant) : Except AuthErr (List UInt8) := do
  let g := g.normalized
  g.validate
  return Json.marshal g.json

variable [Ed25519]

/-- A signature of 64 bytes over a message, in base 64. -/
def verifySignature (publicKey message : List UInt8) (signature : Text) : Bool :=
  match Base64.decode signature with
  | none => false
  | some sig => sig.length == signatureSize && Ed25519.verify publicKey message sig

/-- What was admitted is accepted where its nonce can be stored. -/
def acceptOnce {α : Type} (cache : Option NonceCache) (admitted : Except AuthErr α)
    (nonce : α → Text) (expires : α → ℤ) (now : Time) : Option NonceCache × Except AuthErr α :=
  match admitted with
  | .error e => (cache, .error e)
  | .ok a =>
    match checkAndStore cache (nonce a) (expires a) now with
    | (cache, .error e) => (cache, .error e)
    | (cache, .ok ()) => (cache, .ok a)

/-- The instant a verification takes for the present one. -/
def nowOr (now clock : Time) : Time := if isZero now then clock else now

/-- The checks of a signed object's lifetime, in the order of the source. -/
def checkLifetime (issued expires : ℤ) (maxTTL : Duration) (now : Time) : Except AuthErr Unit := do
  require (issued ≤ unix now) .notYetValid
  require (unix now < expires) .expiredGrant
  require (!(0 < maxTTL && maxTTL < seconds (int64 (expires - issued)))) .grantTTLTooLong

/-- `VerifySignedGrant` up to its replay check. -/
def admitGrant (sg : SignedGrant) (publicKey : List UInt8) (opts : VerifyOptions) (clock : Time) :
    Except AuthErr Grant := do
  require (publicKey.length = publicKeySize) (.invalidGrant .publicKeySize)
  let grant := sg.grant.normalized
  grant.validate
  let canonical ← canonicalBytes grant
  require (verifySignature publicKey canonical sg.signature) .invalidSignature
  checkLifetime grant.issuedAtUnix grant.expiresAtUnix opts.maxTTL (nowOr opts.now clock)
  require (opts.audience = [] || grant.audience = opts.audience) .wrongAudience
  require (opts.subjectPeerID = [] || grant.subjectPeerID = opts.subjectPeerID) .wrongSubject
  require (opts.requiredCapabilities.all (hasCapability grant.capabilities)) .missingCapability
  require (opts.securityLevel = [] ||
    normalizeSecurityLevel grant.securityLevel = normalizeSecurityLevel opts.securityLevel)
    .wrongSecurityLevel
  require (opts.x11CookieSHA256 = [] ||
    grant.x11CookieSHA256 = toLower (trimSpace opts.x11CookieSHA256)) .wrongX11CookieHash
  require (opts.chainSHA256 = [] || grant.chainSHA256 = toLower (trimSpace opts.chainSHA256))
    .wrongChainHash
  return grant

def verifySignedGrant (cache : Option NonceCache) (sg : SignedGrant) (publicKey : List UInt8)
    (opts : VerifyOptions) (clock : Time) : Option NonceCache × Except AuthErr Grant :=
  acceptOnce cache (admitGrant sg publicKey opts clock) Grant.nonce Grant.expiresAtUnix
    (nowOr opts.now clock)

end

/-! ## Trimmed lists -/

lemma mem_distinctTrimmed {l : List Text} : ∀ {seen : List Text} {v : Text},
    v ∈ distinctTrimmed seen l → trimSpace v = v ∧ v ≠ [] ∧ v ∉ seen := by
  induction l with
  | nil =>
    intro seen v hv
    cases hv
  | cons raw rest ih =>
    intro seen v hv
    rw [distinctTrimmed] at hv
    split_ifs at hv with hskip
    · exact ih hv
    · simp only [Bool.or_eq_true, decide_eq_true_eq, contains_iff_mem, not_or] at hskip
      rcases mem_cons.mp hv with rfl | hv
      · exact ⟨trimSpace_trimSpace raw, hskip⟩
      · obtain ⟨htrim, hne, hseen⟩ := ih hv
        exact ⟨htrim, hne, fun hmem => hseen (mem_cons_of_mem _ hmem)⟩

lemma nodup_distinctTrimmed {l : List Text} : ∀ {seen : List Text},
    (distinctTrimmed seen l).Nodup := by
  induction l with
  | nil => exact .nil
  | cons raw rest ih =>
    intro seen
    rw [distinctTrimmed]
    split_ifs
    · exact ih
    · refine nodup_cons.mpr ⟨fun hmem => ?_, ih⟩
      exact (mem_distinctTrimmed hmem).2.2 mem_cons_self

lemma distinctTrimmed_self {l : List Text} : ∀ {seen : List Text},
    (∀ v ∈ l, trimSpace v = v ∧ v ≠ [] ∧ v ∉ seen) → l.Nodup → distinctTrimmed seen l = l := by
  induction l with
  | nil => exact fun _ _ => rfl
  | cons v rest ih =>
    intro seen h hnodup
    obtain ⟨htrim, hne, hseen⟩ := h v mem_cons_self
    obtain ⟨hv, hrest⟩ := nodup_cons.mp hnodup
    rw [distinctTrimmed]
    simp only [htrim, hne, decide_false, Bool.false_or, contains_iff_mem, hseen, if_false]
    rw [ih _ hrest]
    intro w hw
    obtain ⟨hwtrim, hwne, hwseen⟩ := h w (mem_cons_of_mem v hw)
    refine ⟨hwtrim, hwne, fun hmem => ?_⟩
    rcases mem_cons.mp hmem with rfl | hmem
    · exact hv hw
    · exact hwseen hmem

@[simp]
lemma distinctTrimmed_distinctTrimmed (l : List Text) :
    distinctTrimmed [] (distinctTrimmed [] l) = distinctTrimmed [] l :=
  distinctTrimmed_self (fun _ hv => mem_distinctTrimmed hv) nodup_distinctTrimmed

lemma sorted_normalizeCapabilities (caps : List Text) :
    (normalizeCapabilities caps).Pairwise fun a b => bytes a ≤ bytes b := by
  have : Std.Total fun a b : Text => bytes a ≤ bytes b := ⟨fun a b => List.le_total _ _⟩
  have : IsTrans Text fun a b : Text => bytes a ≤ bytes b := ⟨fun a b c => List.le_trans⟩
  exact pairwise_insertionSort _ _

@[simp]
lemma normalizeCapabilities_normalizeCapabilities (caps : List Text) :
    normalizeCapabilities (normalizeCapabilities caps) = normalizeCapabilities caps := by
  have hperm := perm_insertionSort (fun a b : Text => bytes a ≤ bytes b)
    (distinctTrimmed [] caps)
  have hself : distinctTrimmed [] (normalizeCapabilities caps) = normalizeCapabilities caps :=
    distinctTrimmed_self (fun v hv => mem_distinctTrimmed (hperm.mem_iff.mp hv))
      (hperm.nodup_iff.mpr nodup_distinctTrimmed)
  conv_lhs => rw [normalizeCapabilities, hself]
  exact (sorted_normalizeCapabilities caps).insertionSort_eq

@[simp]
lemma orElse_orElse (v d : Text) : orElse (orElse v d) d = orElse v d := by
  unfold orElse
  split_ifs <;> rfl

lemma orElse_of_ne {v d : Text} (h : v ≠ []) : orElse v d = v := if_neg h

lemma trimSpace_orElse {v d : Text} (hv : trimSpace v = v) (hd : trimSpace d = d) :
    trimSpace (orElse v d) = orElse v d := by
  unfold orElse
  split_ifs
  · exact hd
  · exact hv

/-! ## What is accepted -/

lemma checkLifetime_eq_ok {issued expires : ℤ} {maxTTL : Duration} {now : Time} {u : Unit} :
    checkLifetime issued expires maxTTL now = .ok u ↔ issued ≤ unix now ∧ unix now < expires ∧
        (0 < maxTTL → seconds (int64 (expires - issued)) ≤ maxTTL) := by
  simp only [checkLifetime, checks_ok, Bool.not_eq_true', Bool.and_eq_false_iff,
    decide_eq_false_iff_not, not_lt]
  rw [imp_iff_not_or, not_lt]

lemma validWindow_iff {issued expires : ℤ} :
    validWindow issued expires = true ↔ 0 < issued ∧ issued < expires := by
  simp only [validWindow, checks_ok]
  omega

lemma acceptOnce_ok {α : Type} {cache cache' : Option NonceCache} {admitted : Except AuthErr α}
    {nonce : α → Text} {expires : α → ℤ} {now : Time} {a : α}
    (h : acceptOnce cache admitted nonce expires now = (cache', .ok a)) :
    admitted = .ok a ∧ checkAndStore cache (nonce a) (expires a) now = (cache', .ok ()) := by
  cases admitted with
  | error e => cases h
  | ok a' =>
    unfold acceptOnce at h
    cases hstore : checkAndStore cache (nonce a') (expires a') now with
    | mk c result =>
      simp only [hstore] at h
      cases result with
      | error e => cases h
      | ok u =>
        cases h
        exact ⟨rfl, hstore⟩

section

variable [Unicode]

lemma Grant.window_of_validate {g : Grant} (h : g.validate = .ok ()) :
    0 < g.issuedAtUnix ∧ g.issuedAtUnix < g.expiresAtUnix := by
  simp only [Grant.validate, checks_ok, requirePresent_eq_ok] at h
  obtain ⟨-, -, -, -, -, -, -, hwindow, -⟩ := h
  exact validWindow_iff.mp hwindow

lemma admitGrant_ok [Ed25519] {sg : SignedGrant} {publicKey : List UInt8} {opts : VerifyOptions}
    {clock : Time} {grant : Grant} (h : admitGrant sg publicKey opts clock = .ok grant) :
    grant = sg.grant.normalized ∧
      (0 < grant.issuedAtUnix ∧ grant.issuedAtUnix < grant.expiresAtUnix) ∧
      checkLifetime grant.issuedAtUnix grant.expiresAtUnix opts.maxTTL (nowOr opts.now clock) =
        .ok () := by
  simp only [admitGrant, checks_ok] at h
  obtain ⟨-, ⟨⟩, hvalid, -, -, -, ⟨⟩, hlife, -, -, -, -, -, -, rfl⟩ := h
  exact ⟨rfl, Grant.window_of_validate hvalid, hlife⟩

end

/-! ## A stand-in for the signature scheme -/

/-- A signature that depends on every byte of the key and the message. -/
def checksum (key message : List UInt8) : List UInt8 :=
  replicate signatureSize ((key ++ message).foldl (fun a b => 31 * a + b) 7)

/-- The scheme that accepts exactly the checksums, for evaluating examples. -/
@[reducible] def checksumScheme : Ed25519 where
  verify key message signature := signature = checksum key message

end WeaverSSH.AuthProof
