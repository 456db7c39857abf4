import WeaverSSH.Evidence.JournalWire
import WeaverSSH.Framework.Sha256

/-!
# What an append prepares and what a journal reads

`Prepared.Follows` says what is given to the provider: the leaf of the event, a statement with the
next number that follows the last head, and its head. `Prepared.Follows.verifyRecord` says when the
record that is made of it is verified.
-/

namespace WeaverSSH.Evidence

open AuthProof Base64 Statement

lemma unix_mul_second (n : ℤ) : unix (n * second) = n :=
  Int.mul_ediv_cancel n (by decide)

lemma isZero_mul_second {n : ℤ} (hn : 0 < n) : isZero (n * second) = false := by
  rw [isZero, decide_eq_false_iff_not, zeroTime]
  intro heq
  have hn' : n = -62135596800 := mul_right_cancel₀ (show second ≠ 0 by decide) heq
  omega

lemma AgentEvent.validate_ok {e : AgentEvent} (h : e.validate = .ok ()) :
    e.version = agentEventVersion ∧ 0 < e.observedAtUnix := by
  simp only [AgentEvent.validate, checks_ok] at h
  exact ⟨h.1.1.1.1.1, h.1.2⟩

lemma AgentEvent.canonicalBytes_eq_ok {e : AgentEvent} {payload : List UInt8} :
    e.canonicalBytes = .ok payload ↔ e.validate = .ok () ∧ Json.marshal e.json = payload := by
  unfold AgentEvent.canonicalBytes
  rw [bind_eq_ok]
  exact ⟨fun ⟨_, hvalid, hpayload⟩ => ⟨hvalid, pure_eq_ok.mp hpayload⟩,
    fun ⟨hvalid, hpayload⟩ => ⟨(), hvalid, pure_eq_ok.mpr hpayload⟩⟩

section

variable [Unicode] [SHA256]

/-- The digest that a statement after some records follows. -/
def lastDigest (records : List AgentEvidenceRecord) : Text :=
  (records.getLast?.map fun r => r.head.statementSHA256).getD []

/-- What is prepared for an event after some records. -/
structure Prepared.Follows (j : Journal) (records : List AgentEvidenceRecord) (a : Attempt)
    (p : Prepared) : Prop where
  event : a.event.validate = .ok ()
  id : ∀ r ∈ records, r.event.id ≠ a.event.id
  leaf : p.leaf = ⟨trimSpace a.event.id, trimSpace a.event.subject, trimSpace a.event.kind,
    SHA256.hex (Json.marshal a.event.json), a.event.observedAtUnix⟩
  leafValid : p.leaf.validate = .ok ()
  proof : p.proof = ⟨0, 1, []⟩
  statement : ∃ nonce, p.signed.statement = ⟨evidenceVersion, trimSpace j.streamID,
    UInt64.ofNat (records.length + 1), toLower (trimSpace (lastDigest records)),
    toHex p.leaf.digest, 1, a.event.observedAtUnix, j.keyID, trimSpace (encode nonce)⟩
  statementValid : p.signed.statement.validate = .ok ()
  signed : p.signed = ⟨p.signed.statement, algorithmEd25519, encode j.signer.publicKey,
    encode (j.signer.sign p.signed.statement.message)⟩
  head : p.head =
    ⟨j.streamID, UInt64.ofNat (records.length + 1), SHA256.hex p.signed.statement.message⟩

lemma merkleLevels_singleton {l : Leaf} {levels : List (List (List UInt8))}
    (h : merkleLevels [l] = .ok levels) : levels = [[l.digest]] := by
  simp only [merkleLevels, hashLeaves, checks_ok, hashLeaf_eq_ok, Except.ok.injEq] at h
  obtain ⟨-, first, ⟨-, hash, ⟨-, rfl⟩, _, rfl, rfl⟩, rfl⟩ := h
  rfl

variable {j : Journal} {records : List AgentEvidenceRecord} {a : Attempt} {p : Prepared}

lemma Journal.prepare_ok (h : j.prepare records a = .ok p) : p.Follows j records a := by
  simp only [Journal.prepare, checks_ok, mapError_eq_ok, AgentEvent.canonicalBytes_eq_ok,
    List.all_eq_true] at h
  obtain ⟨hid, payload, ⟨hevent, rfl⟩, leaf, hleaf, proof, hproof, nonce, hnonce, statement,
    hstatement, signed, hsigned, digest, hdigest, rfl⟩ := h
  obtain ⟨-, htime⟩ := AgentEvent.validate_ok hevent
  simp only [newLeaf, checks_ok, isZero_mul_second htime, Bool.false_eq_true, if_false,
    unix_mul_second] at hleaf
  obtain ⟨_, hleafValid, rfl⟩ := hleaf
  simp only [buildMerkleProof, checks_ok] at hproof
  obtain ⟨-, levels, hlevels, rfl⟩ := hproof
  simp only [newStatement, buildMerkleRoot, checks_ok, isZero_mul_second htime, Bool.false_eq_true,
    if_false, unix_mul_second] at hstatement
  obtain ⟨root, ⟨levels', hlevels', rfl⟩, _, hvalid, rfl⟩ := hstatement
  simp only [Signer.signStatement, checks_ok] at hsigned
  obtain ⟨hkey, _, -, rfl⟩ := hsigned
  obtain ⟨-, rfl⟩ := sha256_eq_ok.mp hdigest
  obtain rfl := merkleLevels_singleton hlevels
  obtain rfl := merkleLevels_singleton hlevels'
  have hkeyID : trimSpace j.keyID = j.keyID := hkey
  obtain ⟨nonce, rfl⟩ : ∃ bytes, nonce = encode bytes := by
    cases hentropy : a.nonce with
    | none =>
      rw [hentropy] at hnonce
      cases hnonce
    | some bytes =>
      rw [hentropy] at hnonce
      exact ⟨bytes, (Except.ok.inj hnonce).symm⟩
  exact {
    event := hevent
    id := hid
    leaf := rfl
    leafValid := hleafValid
    proof := rfl
    statement := ⟨nonce, by
      conv_rhs => rw [← hkeyID]
      rfl⟩
    statementValid := hvalid
    signed := rfl
    head := rfl }

lemma Prepared.Follows.sequence_ne_zero (h : p.Follows j records a) :
    UInt64.ofNat (records.length + 1) ≠ 0 := by
  obtain ⟨_, hstatement⟩ := h.statement
  have hvalid := h.statementValid
  simp only [validate, checks_ok] at hvalid
  have hsequence : p.signed.statement.sequence = UInt64.ofNat (records.length + 1) := by
    rw [hstatement]
  rw [← hsequence]
  exact hvalid.1.1.1.1.1.2

lemma Prepared.Follows.length_lt (h : p.Follows j records a) (hlength : records.length < 2 ^ 64) :
    records.length + 1 < 2 ^ 64 := by
  have hsequence := h.sequence_ne_zero
  by_contra hwrapped
  have hlast : records.length + 1 = 2 ^ 64 := by omega
  rw [hlast] at hsequence
  exact hsequence rfl

/-! ## Records that are verified -/

lemma verifyMerkleProof_singleton {l : Leaf} (hvalid : l.validate = .ok ())
    (hroot : isSHA256 (toHex l.digest) = true) :
    verifyMerkleProof l (toHex l.digest) ⟨0, 1, []⟩ = .ok () := by
  simp only [verifyMerkleProof, checks_ok, hashLeaf_eq_ok]
  refine ⟨⟨by decide, hroot⟩, l.digest, ⟨hvalid, rfl⟩, (l.digest, 0, 1), rfl, ⟨rfl, rfl⟩, ?_⟩
  exact hexEqualFold_refl _

/-- The texts that are bound have no blanks around them. -/
structure AgentEvent.Trimmed (e : AgentEvent) : Prop where
  id : trimSpace e.id = e.id
  subject : trimSpace e.subject = e.subject
  kind : trimSpace e.kind = e.kind

variable [Ed25519]

def Signer.Signs (signer : Signer) : Prop :=
  ∀ m, (signer.sign m).length = signatureSize ∧
    Ed25519.verify signer.publicKey m (signer.sign m) = true

lemma Journal.verify_signed (hsigns : j.signer.Signs) {s : Statement}
    (hkey : s.signerKeyID = j.keyID) (hvalid : s.validate = .ok ()) :
    j.trust.verify ⟨s, algorithmEd25519, encode j.signer.publicKey,
      encode (j.signer.sign s.message)⟩ = .ok () := by
  have htrusted : j.trust.keys s.signerKeyID = some j.signer.publicKey := if_pos hkey
  have hplain (b : List UInt8) : decode (trimSpace (encode b)) = some b := by
    rw [trimSpace_of_forall (isSpace_encode b), decode_encode]
  simp only [TrustPolicy.verify, checks_ok, elim_eq_ok, htrusted, hplain]
  exact ⟨trivial, _, rfl, _, rfl, ⟨j.signer.length_publicKey, rfl⟩, _, rfl, (hsigns _).1,
    (), hvalid, (hsigns _).2⟩

/-- What `verifyRecord` checks of a record. -/
structure Journal.Verified (j : Journal) (r : AgentEvidenceRecord) : Prop where
  version : r.version = agentJournalVersion
  event : r.event.validate = .ok ()
  leafValid : r.leaf.validate = .ok ()
  id : r.leaf.id = r.event.id
  kind : r.leaf.kind = r.event.kind
  subject : r.leaf.subject = r.event.subject
  payload : r.leaf.verifyPayload (Json.marshal r.event.json) = true
  streamID : r.statement.statement.streamID = j.streamID
  signerKeyID : r.statement.statement.signerKeyID = j.keyID
  leafCount : r.statement.statement.leafCount = 1
  root : r.statement.statement.merkleRootSHA256 ≠ []
  proof : verifyMerkleProof r.leaf r.statement.statement.merkleRootSHA256 r.proof = .ok ()
  signed : j.trust.verify r.statement = .ok ()
  statement : r.statement.statement.validate = .ok ()
  head : r.head = ⟨j.streamID, r.statement.statement.sequence,
    SHA256.hex r.statement.statement.message⟩
  accepted : j.accepts r.head r.receipt = true

lemma Journal.verifyRecord_eq_ok {r : AgentEvidenceRecord} :
    j.verifyRecord r = .ok () ↔ j.Verified r := by
  simp only [Journal.verifyRecord, checks_ok, mapError_eq_ok, AgentEvent.canonicalBytes_eq_ok,
    sha256_eq_ok]
  constructor
  · rintro ⟨⟨hversion, -⟩, _, ⟨hevent, rfl⟩, _, hleaf, ⟨⟨⟨hid, hkind⟩, hsubject⟩, hpayload⟩,
      ⟨⟨⟨hstream, hkey⟩, hcount⟩, hroot⟩, _, hproof, _, hsigned, _, ⟨hstatement, rfl⟩, hhead,
      haccepted⟩
    exact ⟨hversion, hevent, hleaf, hid, hkind, hsubject, hpayload, hstream, hkey, hcount,
      hroot, hproof, hsigned, hstatement, hhead, haccepted⟩
  · intro h
    exact ⟨⟨h.version, (AgentEvent.validate_ok h.event).1⟩, _, ⟨h.event, rfl⟩, (), h.leafValid,
      ⟨⟨⟨h.id, h.kind⟩, h.subject⟩, h.payload⟩,
      ⟨⟨⟨h.streamID, h.signerKeyID⟩, h.leafCount⟩, h.root⟩,
      (), h.proof, (), h.signed, _, ⟨h.statement, rfl⟩, h.head, h.accepted⟩

/-- **The record of what was prepared is verified**, if the provider accepts its receipt. -/
lemma Prepared.Follows.verified (h : p.Follows j records a) (hsigns : j.signer.Signs)
    (hstream : trimSpace j.streamID = j.streamID) (htrim : a.event.Trimmed)
    {receipt : AnchorReceipt}
    (haccepts : j.accepts p.head receipt = true) : j.Verified (p.record a.event receipt) := by
  obtain ⟨nonce, hstatement⟩ := h.statement
  have hvalid := h.statementValid
  have hroot : isSHA256 p.signed.statement.merkleRootSHA256 = true := by
    simp only [validate, checks_ok] at hvalid
    exact hvalid.2.1
  have hdigest : p.signed.statement.merkleRootSHA256 = toHex p.leaf.digest := by rw [hstatement]
  have hkey : p.signed.statement.signerKeyID = j.keyID := by rw [hstatement]
  exact {
    version := rfl
    event := h.event
    leafValid := h.leafValid
    id := (congrArg Leaf.id h.leaf).trans htrim.id
    kind := (congrArg Leaf.kind h.leaf).trans htrim.kind
    subject := (congrArg Leaf.subject h.leaf).trans htrim.subject
    payload := by
      show hexEqualFold p.leaf.payloadSHA256 (SHA256.hex (Json.marshal a.event.json)) = true
      rw [h.leaf]
      exact hexEqualFold_refl _
    streamID := (congrArg streamID hstatement).trans hstream
    signerKeyID := hkey
    leafCount := congrArg leafCount hstatement
    root := by
      intro hnil
      rw [show p.signed.statement.merkleRootSHA256 = [] from hnil] at hroot
      cases hroot
    proof := by
      show verifyMerkleProof p.leaf p.signed.statement.merkleRootSHA256 p.proof = .ok ()
      rw [hdigest] at hroot
      rw [hdigest, h.proof]
      exact verifyMerkleProof_singleton h.leafValid hroot
    signed := by
      show j.trust.verify p.signed = .ok ()
      rw [h.signed]
      exact Journal.verify_signed hsigns hkey hvalid
    statement := hvalid
    head := by
      show p.head = ⟨j.streamID, p.signed.statement.sequence, SHA256.hex p.signed.statement.message⟩
      rw [h.head, congrArg sequence hstatement]
    accepted := haccepts }

/-! ## Appends and loads -/

/-- An append is refused and changes nothing, or its head is given to the provider. -/
lemma Store.append_cases (j : Journal) (s : Store) (a : Attempt) :
    (∃ err, s.append j a = (.error err, s)) ∨ ∃ records p, s.records = some records ∧
      j.prepare records a = .ok p ∧
      s.append j a = Store.commit j { s with handed := s.handed ++ [p] } records p a := by
  unfold Store.append
  cases a.event.validate with
  | error e => exact .inl ⟨.evidence e, rfl⟩
  | ok _ =>
    cases hrecords : s.records with
    | none => exact .inl ⟨.closed, rfl⟩
    | some records =>
      cases hprepare : j.prepare records a with
      | error e => exact .inl ⟨e, by simp only [hprepare]⟩
      | ok p => exact .inr ⟨records, p, rfl, hprepare, by simp only [hprepare]⟩

lemma Journal.length_loadLines {ls : List (List UInt8)} :
    ∀ {n : ℕ} {before records : List AgentEvidenceRecord},
      j.loadLines n before ls = .ok records → records.length = before.length + ls.length := by
  induction ls with
  | nil =>
    intro n before records h
    obtain rfl := Except.ok.inj h
    rfl
  | cons line rest ih =>
    intro n before records h
    simp only [Journal.loadLines, checks_ok] at h
    obtain ⟨-, -, record, -, -, _, -, hrest⟩ := h
    rw [ih hrest, List.length_append, List.length_singleton, List.length_cons]
    omega

lemma Journal.load_ok {file : List UInt8}
    (h : j.load file = .ok records) : j.loadLines 0 [] (lines file) = .ok records := by
  unfold Journal.load at h
  obtain ⟨loaded, hloaded, h⟩ := bind_eq_ok.mp h
  by_cases hnil : loaded = []
  · rw [if_pos hnil, pure_eq_ok] at h
    rw [hloaded, ← h, hnil]
  · rw [if_neg hnil, bind_eq_ok] at h
    obtain ⟨_, -, h⟩ := h
    rw [hloaded, pure_eq_ok.mp h]

end

/-! ## A journal with a provider -/

section Sample

attribute [local instance] asciiCase sha256 checksumScheme

/-- A journal with a provider that accepts the receipts that are for the head. -/
def sampleJournal : Journal where
  streamID := "agent/p"
  signer := ⟨List.replicate 32 7, rfl, checksum (List.replicate 32 7)⟩
  accepts head receipt := receipt.validateFor "p" head = .ok ()

def eventOf (id : Text) : AgentEvent :=
  ⟨agentEventVersion, id, "k", "s", 1, OrderedMap.empty⟩

/-- An attempt that the provider does not answer. -/
def unanswered (id : Text) (nonce : UInt8) : Attempt :=
  ⟨eventOf id, zeroTime, some [nonce], none, none, true⟩

def firstReceipt : AnchorReceipt :=
  let digest := text "2f4b993f8836066b76b8987ff68d6252c177739f3e502e3cf2eaa968a787609b"
  ⟨anchorVersion, text "p", ⟨anchorVersion, text "agent/p", 1, digest⟩, text "x", digest, true, 1⟩

def answered : Attempt := { unanswered (text "e") 0 with receipt := some firstReceipt }

lemma sampleJournal_signs : sampleJournal.signer.Signs := fun _ =>
  ⟨List.length_replicate, decide_eq_true rfl⟩

end Sample

end WeaverSSH.Evidence
