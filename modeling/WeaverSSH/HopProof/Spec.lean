import WeaverSSH.HopProof.Hop

/-!
# What a verified chain is

`Admitted` lists what `admitHop` checks of one record, and `Linked` is the condition on a list of
records that `verifyHops` walks. A chain that `verify` accepts is linked (`verify_eq_ok`,
`verifyHops_ok`).
-/

namespace WeaverSSH.HopProof

open AuthProof

section

variable [Unicode]

lemma normalizeHop_normalizeHop (h : Hop) : normalizeHop (normalizeHop h) = normalizeHop h := by
  have hversion : orElse (orElse h.version hopVersion) hopVersion =
      orElse h.version hopVersion := by
    unfold orElse
    split_ifs <;> rfl
  simp [normalizeHop, hversion]

/-- What is checked of the record with the number `record`, after one with the digest
`previousDigest`. -/
structure Admitted (nodeContext : NodeContext) (verifier : Text → List UInt8 → List UInt8 → Bool)
    (options : VerifyOptions) (now : Time) (record : ℕ) (previousDigest : Text)
    (signed : SignedHop) : Prop where
  principal : signed.principal = nodeContext.nodes.getD record []
  fromNode : (normalizeHop signed.hop).fromNode = nodeContext.nodes.getD record []
  toNode : (normalizeHop signed.hop).toNode = nodeContext.nodes.getD (record + 1) []
  hopIndex : signed.hop.hopIndex = record + 1
  rootNode : (normalizeHop signed.hop).rootNode = nodeContext.nodes.getD 0 []
  chainID : (normalizeHop signed.hop).chainID = nodeContext.chainID
  chainSHA256 : (normalizeHop signed.hop).chainSHA256 = nodeContext.chainSHA256
  parent : (normalizeHop signed.hop).parentHopSHA256 = previousDigest
  binding : (normalizeHop signed.hop).parentSessionBinding = [] ↔ record = 0
  positive : 0 < signed.hop.issuedAtUnix
  window : signed.hop.issuedAtUnix < signed.hop.expiresAtUnix
  lifetime : seconds (int64 (signed.hop.expiresAtUnix - signed.hop.issuedAtUnix)) ≤ options.limit
  begun : signed.hop.issuedAtUnix ≤ unix (now + options.skew)
  unexpired : unix (now - options.skew) < signed.hop.expiresAtUnix
  valid : validateHop (normalizeHop signed.hop) = true
  signature : ∃ signature, Base64.decode signed.signature = some signature ∧ signature ≠ [] ∧
    verifier signed.principal (Json.marshal (normalizeHop signed.hop).json) signature = true

variable {message : List UInt8}

lemma canonicalHopBytes_eq_ok {h : Hop} : canonicalHopBytes h = .ok message ↔
      validateHop (normalizeHop h) = true ∧ Json.marshal (normalizeHop h).json = message := by
  simp only [canonicalHopBytes, checks_ok]

variable {record : ℕ} {u : Unit}

omit [Unicode] in
lemma checkSignature_eq_ok {verifier : Text → List UInt8 → List UInt8 → Bool}
    {principal : Text} {signature : Text} :
    checkSignature verifier record principal message signature = .ok u ↔
      ∃ sig, Base64.decode signature = some sig ∧ sig ≠ [] ∧
        verifier principal message sig = true := by
  unfold checkSignature
  cases Base64.decode signature with
  | none => simp
  | some sig => simp

lemma admitHop_eq_ok {nodeContext : NodeContext}
    {verifier : Text → List UInt8 → List UInt8 → Bool} {options : VerifyOptions} {now : Time}
    {previousDigest : Text} {signed : SignedHop} {hop : Hop} :
    admitHop nodeContext verifier options now record previousDigest signed = .ok hop ↔
      Admitted nodeContext verifier options now record previousDigest signed ∧
        normalizeHop signed.hop = hop := by
  simp only [admitHop, checks_ok, canonicalHopBytes_eq_ok, normalizeHop_normalizeHop,
    checkSignature_eq_ok, Bool.not_eq_true', Bool.and_eq_false_iff, decide_eq_false_iff_not]
  constructor
  · rintro ⟨⟨⟨⟨⟨⟨⟨⟨hprincipal, hfrom⟩, hto⟩, hindex⟩, hroot⟩, hid⟩, hsha⟩, hparent⟩, hfirst, hlater,
      ⟨⟨hpos, hwindow⟩, hlife⟩, hbegun, hunexpired, message, ⟨hvalid, rfl⟩, hverified, rfl⟩
    refine ⟨⟨hprincipal, hfrom, hto, hindex, hroot, hid, hsha, hparent, ?_, hpos, hwindow, hlife,
      hbegun, hunexpired, hvalid, hverified⟩, rfl⟩
    constructor
    · intro hnone
      exact hlater.elim (fun hzero => by omega) fun hsome => absurd hnone hsome
    · intro hzero
      exact not_not.mp (hfirst.resolve_left (not_not.mpr hzero))
  · rintro ⟨h, rfl⟩
    refine ⟨⟨⟨⟨⟨⟨⟨⟨h.principal, h.fromNode⟩, h.toNode⟩, h.hopIndex⟩, h.rootNode⟩, h.chainID⟩,
      h.chainSHA256⟩, h.parent⟩, ?_, ?_, ⟨⟨h.positive, h.window⟩, h.lifetime⟩, h.begun, h.unexpired,
      _, ⟨h.valid, rfl⟩, h.signature, rfl⟩
    · by_cases hzero : record = 0
      · exact .inr (not_not.mpr (h.binding.mpr hzero))
      · exact .inl hzero
    · by_cases hzero : record = 0
      · exact .inl (by omega)
      · exact .inr fun hnone => hzero (h.binding.mp hnone)

lemma currentIndex_eq_ok {ctx : NodeContext} {index : ℕ}
    (h : currentIndex ctx.normalized = .ok index) :
    ctx.normalized.nodes.idxOf? ctx.normalized.currentNode = some index := by
  unfold currentIndex at h
  dsimp only at h
  split at h
  · cases h
  · rw [NodeContext.nodes_normalized, NodeContext.currentNode_normalized] at h
    split at h
    · rename_i hidx
      rw [hidx, Except.ok.inj h]
    · cases h

def SignedHop.digested (s : SignedHop) : List UInt8 :=
  Json.marshal (SignedHop.json ⟨trimSpace s.principal, normalizeHop s.hop, s.signature⟩)

def SignedHop.nonce (s : SignedHop) : Text := (normalizeHop s.hop).nonce

variable [SHA256]

/-- Each record is admitted with the digest of the one before. -/
def Linked (nodeContext : NodeContext) (verifier : Text → List UInt8 → List UInt8 → Bool)
    (options : VerifyOptions) (now : Time) : ℕ → Text → List SignedHop → Prop
  | _, _, [] => True
  | record, previousDigest, signed :: rest =>
    Admitted nodeContext verifier options now record previousDigest signed ∧
      ∃ digest, signedHopDigest signed = .ok digest ∧
        Linked nodeContext verifier options now (record + 1) digest rest

lemma signedHopDigest_eq_ok {s : SignedHop} {digest : Text} : signedHopDigest s = .ok digest ↔
      trimSpace s.principal ≠ [] ∧ s.signature ≠ [] ∧ SHA256.hex s.digested = digest := by
  simp only [signedHopDigest, checks_ok, and_assoc]
  rfl

lemma signedHopDigest_normalizeHop (s : SignedHop) :
    signedHopDigest ⟨s.principal, normalizeHop s.hop, s.signature⟩ = signedHopDigest s := by
  simp only [signedHopDigest, normalizeHop_normalizeHop]

variable {nodeContext : NodeContext} {verifier : Text → List UInt8 → List UInt8 → Bool}
  {options : VerifyOptions} {now : Time}

variable {hops : List SignedHop}

lemma Linked.admitted :
    ∀ {record : ℕ} {digest : Text}, Linked nodeContext verifier options now record digest hops →
    ∀ {i : ℕ} {s : SignedHop}, hops[i]? = some s →
      ∃ digest', Admitted nodeContext verifier options now (record + i) digest' s := by
  induction hops with
  | nil =>
    rintro record digest - i s hs
    cases hs
  | cons t rest ih =>
    rintro record digest ⟨hadmitted, next, -, hrest⟩ i s hs
    cases i with
    | zero =>
      obtain rfl : t = s := by simpa using hs
      exact ⟨digest, hadmitted⟩
    | succ i =>
      rw [List.getElem?_cons_succ] at hs
      obtain ⟨digest', h⟩ := ih hrest hs
      exact ⟨digest', by rwa [Nat.add_right_comm] at h⟩

lemma verifyHops_ok : ∀ {cache cache' : Option NonceCache} {record : ℕ}
    {previousDigest : Text}, verifyHops nodeContext verifier options now cache record previousDigest
      hops = (cache', .ok ()) →
        Linked nodeContext verifier options now record previousDigest hops := by
  induction hops with
  | nil => exact fun _ => trivial
  | cons signed rest ih =>
    intro cache cache' record previousDigest h
    rw [verifyHops] at h
    split at h
    · cases h
    · rename_i hop hpassed
      obtain ⟨hadmitted, rfl⟩ := admitHop_eq_ok.mp hpassed
      split at h
      · cases h
      · split at h
        · cases h
        · rename_i digest hdigest
          rw [signedHopDigest_normalizeHop] at hdigest
          exact ⟨hadmitted, digest, hdigest, ih h⟩

lemma Admitted.digest {record : ℕ} {previousDigest : Text} {signed : SignedHop}
    (h : Admitted nodeContext verifier options now record previousDigest signed) :
    ∃ digest, signedHopDigest signed = .ok digest := by
  obtain ⟨signature, hdecode, hsignature, -⟩ := h.signature
  have hvalid := h.valid
  simp only [validateHop, checks_ok] at hvalid
  refine ⟨_, signedHopDigest_eq_ok.mpr ⟨?_, fun hnil => ?_, rfl⟩⟩
  · rw [h.principal, ← h.fromNode, normalizeHop, trimSpace_trimSpace]
    exact hvalid.1.1.1.1.1.1.2
  · rw [hnil] at hdecode
    exact hsignature (Option.some.inj hdecode).symm

lemma verifyHops_of_linked : ∀ {c : NonceCache} {record : ℕ}
    {previousDigest : Text}, Linked nodeContext verifier options now record previousDigest hops →
    (∀ s ∈ hops, c.seen s.nonce = none) → (hops.map SignedHop.nonce).Nodup →
    ∃ c', verifyHops nodeContext verifier options now (some c) record previousDigest hops =
      (some c', .ok ()) := by
  induction hops with
  | nil => exact fun {c} _ _ _ _ _ => ⟨c, rfl⟩
  | cons signed rest ih =>
    intro c record previousDigest h hnew hnodup
    obtain ⟨hadmitted, digest, hdigest, hrest⟩ := h
    obtain ⟨hsigned, hnodup⟩ := List.nodup_cons.mp hnodup
    have hpassed := admitHop_eq_ok.mpr ⟨hadmitted, rfl⟩
    have hevict : (c.evict (unix now)).seen signed.nonce = none := by
      simp [ReplayCache.evict, hnew signed List.mem_cons_self]
    have hstore : checkAndStore (some c) (normalizeHop signed.hop).nonce
        (normalizeHop signed.hop).expiresAtUnix now =
        (some ⟨Function.update (c.evict (unix now)).seen signed.nonce
          (some signed.hop.expiresAtUnix)⟩, .ok ()) := by
      change (some (c.check signed.nonce signed.hop.expiresAtUnix (unix now)).1,
        if (c.check signed.nonce signed.hop.expiresAtUnix (unix now)).2 then _ else _) = _
      simp [ReplayCache.check, hevict]
    rw [verifyHops]
    simp only [hpassed, hstore, signedHopDigest_normalizeHop, hdigest]
    refine ih hrest (fun s hs => ?_) hnodup
    have hne : s.nonce ≠ signed.nonce := fun heq => hsigned (heq ▸ List.mem_map_of_mem hs)
    simp [Function.update_of_ne hne, ReplayCache.evict, hnew s (List.mem_cons_of_mem signed hs)]

variable {chain : Chain} {clock : Time}

/-- `verify` accepts exactly the chains that are as long as the path is, whose records are accepted
one after the other, and whose last one names the current node. -/
lemma verify_eq_ok {cache cache' : Option NonceCache} :
    verify cache nodeContext chain verifier options clock = (cache', .ok u) ↔
      ∃ index, currentIndex nodeContext.normalized = .ok index ∧ index ≠ 0 ∧
        chain.version = chainVersion ∧ chain.hops.length = index ∧ index ≤ maxHops ∧
        verifyHops nodeContext.normalized verifier options (nowOr options.now clock) cache 0 []
          chain.hops = (cache', .ok ()) ∧ (chain.hops.getLast?.map fun s => s.hop.toNode) =
          some nodeContext.normalized.currentNode := by
  unfold verify
  dsimp only
  cases hindex : currentIndex nodeContext.normalized with
  | error e => simp
  | ok index =>
    simp only [Except.ok.injEq, exists_eq_left']
    by_cases hzero : index = 0
    · simp [hzero]
    · by_cases hshape : (chain.version = chainVersion ∧ chain.hops.length = index) ∧
          chain.hops.length ≤ maxHops
      · obtain ⟨⟨hversion, hlength⟩, hmax⟩ := hshape
        have hmax' : index ≤ maxHops := hlength ▸ hmax
        rw [if_neg hzero, if_neg (by simp [hversion, hlength, hmax'])]
        simp only [ne_eq, hzero, not_false_eq_true, hversion, hlength, hmax', true_and]
        cases hhops : verifyHops nodeContext.normalized verifier options
            (nowOr options.now clock) cache 0 [] chain.hops with
        | mk c result =>
          cases result with
          | error e => simp
          | ok u' =>
            by_cases hlast : (chain.hops.getLast?.map fun s => s.hop.toNode) =
                some nodeContext.normalized.currentNode
            · simp only [hlast, if_true, and_true]
            · simp [hlast]
      · have hbad : (decide (chain.version ≠ chainVersion) ||
            decide (chain.hops.length ≠ index) || decide (maxHops < chain.hops.length)) = true := by
          simp only [Bool.or_eq_true, decide_eq_true_eq]
          by_contra hgood
          simp only [not_or, not_not, not_lt] at hgood
          exact hshape hgood
        rw [if_neg hzero, if_pos hbad]
        constructor
        · rintro ⟨⟩
        · rintro ⟨-, hversion, hlength, hmax, -⟩
          exact absurd ⟨⟨hversion, hlength⟩, hlength ▸ hmax⟩ hshape

lemma verify_snd_eq_ok {cache : Option NonceCache} :
    (verify cache nodeContext chain verifier options clock).2 = .ok () ↔
      ∃ cache', verify cache nodeContext chain verifier options clock = (cache', .ok ()) :=
  ⟨fun h => ⟨_, Prod.ext rfl h⟩, fun ⟨_, h⟩ => by rw [h]⟩

end

end WeaverSSH.HopProof
