import WeaverSSH.Guarantees.Lifetime
import WeaverSSH.HopProof.Wire

/-!
# Integrity of hop chains

A chain that a node accepts has one record for each node before it, signed by that node and naming
the next, and the last record determines the others (`hop_chain_integrity`). That needs the nonce
and the session binding to be UTF-8, as everything that `decode` returns is: JSON writes all stray
bytes the same (`spliced_stray_byte`).
-/

namespace WeaverSSH.HopProof

open AuthProof List SHA256 SignedHop

section

variable [Unicode]

/-- A record as `verify` compares it. -/
def SignedHop.normalize (s : SignedHop) : SignedHop :=
  ⟨s.principal, normalizeHop s.hop, s.signature⟩

/-- The nonce and the binding are UTF-8. -/
def SignedHop.Plain (s : SignedHop) : Prop :=
  validUTF8 s.hop.nonce = true ∧ validUTF8 s.hop.parentSessionBinding = true

variable {nodeContext : NodeContext} {verifier : Text → List UInt8 → List UInt8 → Bool}
  {options : VerifyOptions}

lemma Admitted.normalize_eq {options' : VerifyOptions} {now now' : Time} {record : ℕ}
    {digest digest' : Text} {s s' : SignedHop}
    (h : Admitted nodeContext verifier options now record digest s)
    (h' : Admitted nodeContext verifier options' now' record digest' s')
    (hs : s.Plain) (hs' : s'.Plain) (hdigest : validUTF8 digest = true)
    (hdigest' : validUTF8 digest' = true)
    (hhop : (normalizeHop s.hop).scrub = (normalizeHop s'.hop).scrub)
    (hsignature : WeaverSSH.scrub s.signature = WeaverSSH.scrub s'.signature) :
    s.normalize = s'.normalize := by
  have hversion : (normalizeHop s.hop).version = (normalizeHop s'.hop).version := by
    have hv := h.valid
    have hv' := h'.valid
    simp only [validateHop, checks_ok] at hv hv'
    rw [hv.1.1.1.1.1.1.1.1.1, hv'.1.1.1.1.1.1.1.1.1]
  have hnonce : (normalizeHop s.hop).nonce = (normalizeHop s'.hop).nonce := by
    have heq : WeaverSSH.scrub (trimSpace s.hop.nonce) = WeaverSSH.scrub (trimSpace s'.hop.nonce) :=
      congrArg Hop.nonce hhop
    rwa [scrub_of_valid (validUTF8_trimSpace hs.1), scrub_of_valid (validUTF8_trimSpace hs'.1)]
      at heq
  have hbinding : (normalizeHop s.hop).parentSessionBinding =
      (normalizeHop s'.hop).parentSessionBinding := by
    have heq : WeaverSSH.scrub (trimSpace s.hop.parentSessionBinding) =
        WeaverSSH.scrub (trimSpace s'.hop.parentSessionBinding) :=
      congrArg Hop.parentSessionBinding hhop
    rwa [scrub_of_valid (validUTF8_trimSpace hs.2), scrub_of_valid (validUTF8_trimSpace hs'.2)]
      at heq
  have hparent : (normalizeHop s.hop).parentHopSHA256 = (normalizeHop s'.hop).parentHopSHA256 := by
    have heq : WeaverSSH.scrub (normalizeHop s.hop).parentHopSHA256 =
        WeaverSSH.scrub (normalizeHop s'.hop).parentHopSHA256 := congrArg Hop.parentHopSHA256 hhop
    rw [h.parent, h'.parent, scrub_of_valid hdigest, scrub_of_valid hdigest'] at heq
    rw [h.parent, h'.parent, heq]
  have hsig : s.signature = s'.signature := by
    obtain ⟨sig, hdecode, -⟩ := h.signature
    obtain ⟨sig', hdecode', -⟩ := h'.signature
    rwa [scrub_of_valid (Base64.valid_of_decode hdecode),
      scrub_of_valid (Base64.valid_of_decode hdecode')] at hsignature
  have hissued : (normalizeHop s.hop).issuedAtUnix = (normalizeHop s'.hop).issuedAtUnix := by
    injection hhop
  have hexpires : (normalizeHop s.hop).expiresAtUnix = (normalizeHop s'.hop).expiresAtUnix := by
    injection hhop
  have heq : normalizeHop s.hop = normalizeHop s'.hop := by
    have hindex : (normalizeHop s.hop).hopIndex = (normalizeHop s'.hop).hopIndex :=
      h.hopIndex.trans h'.hopIndex.symm
    have hto := h.toNode.trans h'.toNode.symm
    have hfrom := h.fromNode.trans h'.fromNode.symm
    have hroot := h.rootNode.trans h'.rootNode.symm
    have hid := h.chainID.trans h'.chainID.symm
    have hsha := h.chainSHA256.trans h'.chainSHA256.symm
    generalize normalizeHop s.hop = g at *
    generalize normalizeHop s'.hop = g' at *
    cases g
    cases g'
    simp_all
  unfold SignedHop.normalize
  rw [h.principal, h'.principal, heq, hsig]

variable [SHA256]

lemma Linked.determined {options' : VerifyOptions} {now now' : Time}
    {messages : Set (List UInt8)} (hfree : CollisionFree messages) {hops : List SignedHop} :
    ∀ {hops' : List SignedHop} {record : ℕ} {digest digest' : Text},
    Linked nodeContext verifier options now record digest hops →
    Linked nodeContext verifier options' now' record digest' hops' →
    hops.length = hops'.length → validUTF8 digest = true → validUTF8 digest' = true →
    (∀ s ∈ hops, s.Plain ∧ s.digested ∈ messages) →
    (∀ s ∈ hops', s.Plain ∧ s.digested ∈ messages) → hops ≠ [] →
    (hops.getLast?.map fun s => normalizeHop s.hop) =
      (hops'.getLast?.map fun s => normalizeHop s.hop) → digest = digest' ∧
      (hops.map fun s => normalizeHop s.hop) = (hops'.map fun s => normalizeHop s.hop) ∧
      hops.dropLast.map normalize = hops'.dropLast.map normalize := by
  induction hops with
  | nil => exact fun _ _ _ _ _ _ _ hne => absurd rfl hne
  | cons s rest ih =>
    intro hops' record digest digest' h h' hlength hdigest hdigest' hplain hplain' _ hlast
    obtain ⟨s', rest', rfl⟩ := exists_cons_of_length_eq_add_one hlength.symm
    obtain ⟨hadmitted, next, hnext, hrest⟩ := h
    obtain ⟨hadmitted', next', hnext', hrest'⟩ := h'
    cases rest with
    | nil =>
      obtain rfl : rest' = [] := by simpa using hlength
      have hhop : normalizeHop s.hop = normalizeHop s'.hop := by simpa using hlast
      refine ⟨?_, by simp [hhop], rfl⟩
      rw [← hadmitted.parent, ← hadmitted'.parent, hhop]
    | cons t rest =>
      obtain ⟨t', rest', rfl⟩ : ∃ t' r, rest' = t' :: r := by
        cases rest' with
        | nil => simp at hlength
        | cons t' r => exact ⟨t', r, rfl⟩
      obtain ⟨-, -, hd⟩ := signedHopDigest_eq_ok.mp hnext
      obtain ⟨-, -, hd'⟩ := signedHopDigest_eq_ok.mp hnext'
      obtain ⟨heq, hhops, hrecords⟩ := ih hrest hrest' (by simpa using hlength)
        (hd ▸ valid_hex _) (hd' ▸ valid_hex _)
        (fun x hx => hplain x (mem_cons_of_mem s hx))
        (fun x hx => hplain' x (mem_cons_of_mem s' hx)) (by simp) (by simpa using hlast)
      -- equal digests come from equal texts, and those from equal records
      obtain ⟨hs, hmem⟩ := hplain s mem_cons_self
      obtain ⟨hs', hmem'⟩ := hplain' s' mem_cons_self
      have htext : s.digested = s'.digested := hfree hmem hmem' (by rw [hd, hd', heq])
      have hscrub := scrub_eq_of_marshal_eq htext
      have hsame := hadmitted.normalize_eq hadmitted' hs hs' hdigest hdigest'
        (congrArg hop hscrub) (congrArg signature hscrub)
      have hhop : normalizeHop s.hop = normalizeHop s'.hop := congrArg hop hsame
      refine ⟨?_, congrArg₂ cons hhop hhops, ?_⟩
      · rw [← hadmitted.parent, ← hadmitted'.parent, hhop]
      · rw [dropLast_cons_cons, dropLast_cons_cons, map_cons, map_cons, hsame, hrecords]

/-- **Integrity of hop chains.** At the node with the index `k`, an accepted chain has `k` records,
each signed by the node of its place and naming the next; and of two accepted chains of UTF-8
texts, with no collision among the texts digested, whose last hops are the same, all hops are the
same, and all records before the last in every part. -/
theorem hop_chain_integrity {Signed : Text → List UInt8 → Prop}
    (hunforgeable : ∀ node message signature, verifier node message signature = true →
      Signed node message)
    {k : ℕ} (hk : nodeContext.normalized.nodes.idxOf? nodeContext.normalized.currentNode = some k)
    {cache cache' : Option NonceCache} {chain : Chain} {options : VerifyOptions} {clock : Time}
    (haccept : verify cache nodeContext chain verifier options clock = (cache', .ok ())) :
    chain.hops.length = k ∧ (∀ (i : ℕ) (s : SignedHop), chain.hops[i]? = some s →
      Signed s.principal (Json.marshal (normalizeHop s.hop).json) ∧
      nodeContext.normalized.nodes[i]? = some s.principal ∧
      nodeContext.normalized.nodes[i + 1]? = some (normalizeHop s.hop).toNode) ∧
    ∀ (cache₂ cache₂' : Option NonceCache) (chain₂ : Chain) (options₂ : VerifyOptions)
      (clock₂ : Time),
      verify cache₂ nodeContext chain₂ verifier options₂ clock₂ = (cache₂', .ok ()) →
      (∀ s ∈ chain.hops ++ chain₂.hops, s.Plain) →
      CollisionFree {m | ∃ s ∈ chain.hops ++ chain₂.hops, s.digested = m} →
      (chain.hops.getLast?.map fun s => normalizeHop s.hop) =
        (chain₂.hops.getLast?.map fun s => normalizeHop s.hop) →
      (chain.hops.map fun s => normalizeHop s.hop) = (chain₂.hops.map fun s => normalizeHop s.hop) ∧
      chain.hops.dropLast.map normalize =
        chain₂.hops.dropLast.map normalize := by
  obtain ⟨index, hindex, hpos, -, hlength, -, hhops, -⟩ := verify_eq_ok.mp haccept
  obtain rfl : index = k := Option.some.inj ((currentIndex_eq_ok hindex).symm.trans hk)
  have hlinked := verifyHops_ok hhops
  have hbound : index < nodeContext.normalized.nodes.length := by
    obtain ⟨hlt, -⟩ := idxOf?_eq_some_iff.mp hk
    exact hlt
  refine ⟨hlength, fun i s hs => ?_, ?_⟩
  · obtain ⟨digest, hadmitted⟩ := hlinked.admitted hs
    rw [Nat.zero_add] at hadmitted
    have hi : i < index := by
      rw [← hlength]
      exact (List.getElem?_eq_some_iff.mp hs).1
    obtain ⟨sig, -, -, hverified⟩ := hadmitted.signature
    refine ⟨hunforgeable _ _ _ hverified, ?_, ?_⟩
    · rw [hadmitted.principal, getD_eq_getElem?_getD,
        getElem?_eq_getElem (show i < _ by omega)]
      rfl
    · rw [hadmitted.toNode, getD_eq_getElem?_getD,
        getElem?_eq_getElem (show i + 1 < _ by omega)]
      rfl
  · intro cache₂ cache₂' chain₂ options₂ clock₂ haccept₂ hplain hfree hlast
    obtain ⟨index₂, hindex₂, -, -, hlength₂, -, hhops₂, -⟩ := verify_eq_ok.mp haccept₂
    obtain rfl : index = index₂ := Except.ok.inj (hindex.symm.trans hindex₂)
    have hmem : ∀ s ∈ chain.hops ++ chain₂.hops,
        s.Plain ∧ s.digested ∈ {m | ∃ s ∈ chain.hops ++ chain₂.hops, s.digested = m} :=
      fun s hs => ⟨hplain s hs, s, hs, rfl⟩
    have hne : chain.hops ≠ [] := by
      intro hnil
      rw [hnil] at hlength
      exact hpos hlength.symm
    exact (Linked.determined hfree hlinked (verifyHops_ok hhops₂) (hlength.trans hlength₂.symm) rfl
      rfl (fun s hs => hmem s (mem_append_left _ hs))
      (fun s hs => hmem s (mem_append_right _ hs)) hne hlast).2

end

/-! ### Chains of two hops -/

attribute [local instance] asciiCase sha256

def thirdOfThree : NodeContext :=
  { contextFor 60 with
    nodes := ["a", "b", "c"], currentNode := "c", endpointNode := "c" }

def signedHop (hop : Hop) : SignedHop :=
  ⟨hop.fromNode, hop, Base64.encode (nodeChecksum hop.fromNode (Json.marshal hop.json))⟩

def firstHop (nonce : Text) : SignedHop :=
  signedHop { version := hopVersion, chainID := "chain", chainSHA256 := noDigest
              rootNode := "a", fromNode := "a", toNode := "b", hopIndex := 1
              nonce := nonce, issuedAtUnix := 1, expiresAtUnix := 61 }

def secondHop (first : SignedHop) : SignedHop :=
  signedHop { version := hopVersion, chainID := "chain", chainSHA256 := noDigest
              rootNode := "a", fromNode := "b", toNode := "c", hopIndex := 2
              parentHopSHA256 := hex first.digested
              parentSessionBinding := "session", nonce := "second"
              issuedAtUnix := 1, expiresAtUnix := 61 }

/-- The chain of the two hops, by the nonce of the first; the last signature ends in `ending`. -/
def twoHops (nonce ending : Text) : Chain :=
  let second := secondHop (firstHop nonce)
  ⟨chainVersion, [firstHop nonce, { second with signature := second.signature ++ ending }]⟩

def verifiedTwoHops (nonce ending : Text) : Except HopErr Unit :=
  (verify none thirdOfThree (twoHops nonce ending) nodeVerifier { now := early } 0).2

lemma verifiedTwoHops_eq_ok {nonce ending : Text} (h : verifiedTwoHops nonce ending = .ok ()) :
    ∃ cache, verify none thirdOfThree (twoHops nonce ending) nodeVerifier { now := early } 0 =
      (cache, .ok ()) :=
  verify_snd_eq_ok.mp h

/-- A line break at the end of a signature is not read, and does not change what was signed
before. -/
theorem hop_chain_integrity_reworded :
    verifiedTwoHops "first" [] = .ok () ∧
    verifiedTwoHops "first" [.char '\n'] = .ok () ∧
    (twoHops "first" []).hops.length = 2 ∧
    (twoHops "first" []).hops.dropLast.map normalize =
      (twoHops "first" [.char '\n']).hops.dropLast.map normalize := by
  obtain ⟨haccept, haccept₂, hplain, hapart, hlast⟩ :
      verifiedTwoHops "first" [] = .ok () ∧
      verifiedTwoHops "first" [.char '\n'] = .ok () ∧
      (∀ s ∈ (twoHops "first" []).hops ++ (twoHops "first" [.char '\n']).hops,
        validUTF8 s.hop.nonce = true ∧ validUTF8 s.hop.parentSessionBinding = true) ∧
      (∀ s ∈ (twoHops "first" []).hops ++ (twoHops "first" [.char '\n']).hops,
        ∀ s' ∈ (twoHops "first" []).hops ++ (twoHops "first" [.char '\n']).hops,
        hex s.digested = hex s'.digested → s.digested = s'.digested) ∧
      ((twoHops "first" []).hops.getLast?.map fun s => normalizeHop s.hop) =
        ((twoHops "first" [.char '\n']).hops.getLast?.map fun s => normalizeHop s.hop) := by
    decide +kernel
  have hsigned : ∀ node message signature, nodeVerifier node message signature = true →
      nodeVerifier node message (nodeChecksum node message) = true := by simp [nodeVerifier]
  obtain ⟨cache, hverify⟩ := verifiedTwoHops_eq_ok haccept
  obtain ⟨cache₂, hverify₂⟩ := verifiedTwoHops_eq_ok haccept₂
  obtain ⟨hlength, -, hdetermined⟩ :=
    hop_chain_integrity hsigned (k := 2) (by decide +kernel) hverify
  refine ⟨haccept, haccept₂, hlength, (hdetermined _ _ _ _ _ hverify₂ hplain ?_ hlast).2⟩
  rintro m ⟨s, hs, rfl⟩ m' ⟨s', hs', rfl⟩ heq
  exact hapart s hs s' hs' heq

/-- Two accepted chains with the same last record, whose first nonces are two stray bytes. -/
theorem spliced_stray_byte :
    verifiedTwoHops [.raw 0xff] [] = .ok () ∧ verifiedTwoHops [.raw 0xfe] [] = .ok () ∧
    (twoHops [.raw 0xff] []).hops.getLast? = (twoHops [.raw 0xfe] []).hops.getLast? ∧
    ((twoHops [.raw 0xff] []).hops.map fun s => normalizeHop s.hop) ≠
      ((twoHops [.raw 0xfe] []).hops.map fun s => normalizeHop s.hop) := by
  decide +kernel

end WeaverSSH.HopProof
