import WeaverSSH.Guarantees.Lifetime
import WeaverSSH.HopProof.Wire

/-!
# Honest hop chains

The nodes of a path hand a chain on: the first appends to the empty chain, and every other one
decodes what arrives, verifies it, appends its own record and encodes the chain again (`travel`).
`HonestRun` is what is assumed of a run.

A lifetime with a fraction of a second may come out above the limit, and a chain identifier or a
session binding that is not UTF-8 is signed as it is and arrives scrubbed.
-/

namespace WeaverSSH.HopProof

open AuthProof List Json SHA256

/-- One node's part in a run: how it verifies the chain that arrives, and what it appends. -/
structure Station where
  nodeContext : NodeContext
  options : VerifyOptions
  verifyClock : Time
  parentBinding : Text
  ttl : Duration
  now : Time
  appendClock : Time
  entropy : List UInt8

def Station.arrival (s : Station) : Time := nowOr s.options.now s.verifyClock

def Station.departure (s : Station) : Time := nowOr s.now s.appendClock

/-- What the contexts of a path share. -/
structure Path where
  nodes : List Text
  chainID : Text
  chainSHA256 : Text

section

variable [Unicode]

/-- The station is the one with the number `index` of the path. -/
@[mk_iff]
structure Placed (path : Path) (index : ℕ) (s : Station) : Prop where
  validated : s.nodeContext.validate = .ok ()
  nodes : s.nodeContext.normalized.nodes = path.nodes
  current : path.nodes[index]? = some s.nodeContext.normalized.currentNode
  chainID : s.nodeContext.normalized.chainID = path.chainID
  chainSHA256 : s.nodeContext.normalized.chainSHA256 = path.chainSHA256

@[mk_iff]
structure HonestRun (path : Path) (stations : List Station) : Prop where
  length : stations.length = path.nodes.length
  atMost : path.nodes.length ≤ 17
  utf8 : ∀ node ∈ path.nodes, validUTF8 node = true
  placed : ∀ p ∈ stations.zipIdx, Placed path p.2 p.1
  /-- Lifetimes are of one second at least, and no longer than any verifier's limit. -/
  ttl : ∀ s ∈ stations.dropLast, second ≤ s.ttl
  limit : stations.Pairwise fun s s' => s.ttl ≤ s'.options.limit
  /-- The clock does not go back, and no record has expired where it is verified. -/
  ordered : stations.Pairwise fun s s' => s.departure ≤ s'.arrival
  live : stations.Pairwise fun s s' => unix s'.arrival < unix (s.departure + s.ttl)
  bound : ∀ s ∈ stations.dropLast.tail, trimSpace s.parentBinding ≠ []
  entropy : ∀ s ∈ stations.dropLast, s.entropy.length = 32
  fresh : (stations.dropLast.map Station.entropy).Nodup
  /-- The instants are those a `time.Time` has. -/
  sized : ∀ s ∈ stations.dropLast, IsInt64 (unix s.departure) ∧ IsInt64 (unix (s.departure + s.ttl))

/-- Signatures verify what was signed, and nothing else. -/
structure Signs (sign : Text → List UInt8 → List UInt8)
    (verifier : Text → List UInt8 → List UInt8 → Bool) : Prop where
  nonempty : ∀ node message, sign node message ≠ []
  verifies : ∀ node message message',
    verifier node message' (sign node message) = true ↔ message' = message

/-- A chain at the first of some nodes is brought to the last. -/
def travel [SHA256] (sign : Text → List UInt8 → List UInt8)
    (verifier : Text → List UInt8 → List UInt8 → Bool) :
    Chain → List Station → Except HopErr Chain
  | chain, [] => .ok chain
  | chain, [_] => .ok chain
  | chain, s :: s' :: rest => do
    let appended ← append s.nodeContext chain s.parentBinding s.ttl s.now s.appendClock
      (some s.entropy) fun node message => some (sign node message)
    let encoded ← encode appended
    let arrived ← decode encoded
    (verify (some .empty) s'.nodeContext arrived verifier s'.options s'.verifyClock).2
    travel sign verifier arrived (s' :: rest)

/-! ## The records of a run -/

/-- The hop a station appends after a record with the digest given. -/
def Station.hop (s : Station) (index : ℕ) (parentDigest : Text) : Hop where
  version := hopVersion
  chainID := s.nodeContext.normalized.chainID
  chainSHA256 := s.nodeContext.normalized.chainSHA256
  rootNode := s.nodeContext.normalized.nodes.getD 0 []
  fromNode := s.nodeContext.normalized.currentNode
  toNode := s.nodeContext.normalized.nodes.getD (index + 1) []
  hopIndex := index + 1
  parentHopSHA256 := parentDigest
  parentSessionBinding := if index = 0 then [] else trimSpace s.parentBinding
  nonce := Base64.encode s.entropy
  issuedAtUnix := unix s.departure
  expiresAtUnix := unix (s.departure + s.ttl)

def Station.record (sign : Text → List UInt8 → List UInt8) (s : Station) (index : ℕ)
    (parentDigest : Text) : SignedHop :=
  let hop := s.hop index parentDigest
  ⟨hop.fromNode, hop, Base64.encode (sign hop.fromNode (marshal hop.json))⟩

/-- What is known of a station from which a hop is sent. -/
structure Departs (path : Path) (index : ℕ) (s : Station) : Prop extends Placed path index s where
  next : index + 1 < path.nodes.length
  ttl : second ≤ s.ttl
  entropy : s.entropy.length = 32
  bound : index = 0 ∨ trimSpace s.parentBinding ≠ []
  issued : IsInt64 (unix s.departure)
  expires : IsInt64 (unix (s.departure + s.ttl))

def IsDigest [SHA256] (digest : Text) : Prop := digest = [] ∨ ∃ m, hex m = digest

variable {path : Path} {index : ℕ} {s s' : Station} {digest : Text}
  {sign : Text → List UInt8 → List UInt8} {verifier : Text → List UInt8 → List UInt8 → Bool}

section

variable (h : Placed path index s)
include h

lemma Placed.mem_nodes {node : Text} (hnode : node ∈ path.nodes) :
    trimSpace node = node ∧ node ≠ [] :=
  NodeContext.mem_nodes (h.nodes ▸ hnode)

lemma Placed.trimSpace_getD (i : ℕ) : trimSpace (path.nodes.getD i []) = path.nodes.getD i [] := by
  rw [getD_eq_getElem?_getD]
  cases hi : path.nodes[i]? with
  | none => rfl
  | some node => exact (h.mem_nodes (mem_of_getElem? hi)).1

lemma Placed.getD_ne_nil {i : ℕ} (hi : i < path.nodes.length) : path.nodes.getD i [] ≠ [] := by
  rw [getD_eq_getElem?_getD, List.getElem?_eq_getElem hi]
  exact (h.mem_nodes (getElem_mem hi)).2

lemma Placed.getD_current : path.nodes.getD index [] = s.nodeContext.normalized.currentNode := by
  rw [getD_eq_getElem?_getD, h.current]
  rfl

lemma Placed.lowerHex :
    len path.chainSHA256 = 64 ∧ ∀ r ∈ path.chainSHA256, r.isLowerHex = true := by
  obtain ⟨-, -, hhex, -⟩ := NodeContext.normalized_of_validate h.validated
  rw [h.chainSHA256] at hhex
  simpa [isLowerHexSHA256] using hhex

lemma Placed.currentIndex : currentIndex s.nodeContext.normalized = .ok index := by
  obtain ⟨hsame, hvalid, -, -⟩ := NodeContext.normalized_of_validate h.validated
  have hnodup : path.nodes.Nodup := h.nodes ▸ nodup_distinctTrimmed
  have hfound : path.nodes.idxOf? s.nodeContext.normalized.currentNode = some index := by
    obtain ⟨hlt, hget⟩ := List.getElem?_eq_some_iff.mp h.current
    rw [← hget, List.idxOf?_eq_some_iff]
    refine ⟨hlt, by simp, fun j hj heq => ?_⟩
    exact absurd (hnodup.getElem_inj_iff.mp (by simpa using heq)) (by omega)
  unfold HopProof.currentIndex
  dsimp only
  rw [hsame, hvalid, h.nodes, hfound]

end

section Records

variable [SHA256]

omit [Unicode] in
lemma IsDigest.len (h : IsDigest digest) : digest = [] ∨ WeaverSSH.len digest = 64 := by
  rcases h with rfl | ⟨m, rfl⟩
  · exact .inl rfl
  · right
    rw [len_of_lowerHex (lowerHex_hex m), length_hex]

lemma IsDigest.normal (h : IsDigest digest) : toLower (trimSpace digest) = digest := by
  rcases h with rfl | ⟨m, rfl⟩
  · rfl
  · exact normal_hex m

lemma Departs.normalizeHop_hop (h : Departs path index s) (hdigest : IsDigest digest) :
    normalizeHop (s.hop index digest) = s.hop index digest := by
  have hnonce := trimSpace_of_forall (Base64.isSpace_encode s.entropy)
  have hbinding : trimSpace (if index = 0 then [] else trimSpace s.parentBinding) =
      if index = 0 then [] else trimSpace s.parentBinding := by
    split_ifs
    · rfl
    · exact trimSpace_trimSpace _
  have hid : trimSpace s.nodeContext.normalized.chainID = s.nodeContext.normalized.chainID :=
    trimSpace_trimSpace _
  have hsha : toLower (trimSpace s.nodeContext.normalized.chainSHA256) =
      s.nodeContext.normalized.chainSHA256 := by
    simp [NodeContext.normalized, trimSpace_toLower]
  have hcurrent : trimSpace s.nodeContext.normalized.currentNode =
      s.nodeContext.normalized.currentNode := trimSpace_trimSpace _
  have hversion : orElse hopVersion hopVersion = hopVersion := rfl
  simp only [normalizeHop, Station.hop, hversion, hid, hsha, h.nodes, h.trimSpace_getD, hcurrent,
    hdigest.normal, hbinding, hnonce]

lemma Departs.validateHop_hop (h : Departs path index s) (hdigest : IsDigest digest) :
    validateHop (s.hop index digest) = true := by
  obtain ⟨-, -, -, hid⟩ := NodeContext.normalized_of_validate h.validated
  have hnext := h.next
  have hcurrent : s.nodeContext.normalized.currentNode ≠ [] := by
    rw [← h.getD_current]
    exact h.getD_ne_nil (by omega)
  have hnonce : Base64.encode s.entropy ≠ [] := fun hnil => by
    have hlength := h.entropy
    rw [Base64.encode_eq_nil hnil] at hlength
    cases hlength
  have hparent : digest = [] ∨ len digest = 64 := hdigest.len
  simp only [validateHop, Station.hop, checks_ok, Bool.or_eq_true, beq_iff_eq, h.nodes]
  refine ⟨⟨⟨⟨⟨⟨⟨⟨⟨trivial, hid⟩, ?_⟩, hcurrent⟩, ?_⟩, hnonce⟩, by omega⟩, ?_⟩, hparent⟩,
    unix_lt_add h.ttl⟩
  · exact h.getD_ne_nil (by omega)
  · exact h.getD_ne_nil hnext
  · rw [h.chainSHA256]
    exact h.lowerHex.1

variable {chain : Chain} {stations : List Station}

lemma Departs.append_eq (h : Departs path index s) (hne : ∀ node message, sign node message ≠ [])
    (hlength : chain.hops.length = index) (hmax : index + 1 ≤ maxHops) (hdigest : IsDigest digest)
    (hlast : chain.lastDigest = .ok digest) :
    append s.nodeContext chain s.parentBinding s.ttl s.now s.appendClock (some s.entropy)
        (fun node message => some (sign node message)) =
      .ok ⟨chainVersion, chain.hops ++ [s.record sign index digest]⟩ := by
  have hnext := h.next
  have hcanonical : canonicalHopBytes (s.hop index digest) =
      .ok (marshal (s.hop index digest).json) := by
    rw [canonicalHopBytes_eq_ok, h.normalizeHop_hop hdigest]
    exact ⟨h.validateHop_hop hdigest, rfl⟩
  have httl : ¬ s.ttl ≤ 0 := not_le.mpr (lt_of_lt_of_le (by decide) h.ttl)
  have hkept : (if index = 0 then (⟨chainVersion, []⟩ : Chain) else chain).hops = chain.hops := by
    split_ifs with hzero
    · exact (length_eq_zero_iff.mp (hlength.trans hzero)).symm
    · rfl
  have hdigest' : (if index = 0 then (⟨chainVersion, []⟩ : Chain) else chain).lastDigest =
      .ok digest := by
    rw [← hlast]
    unfold Chain.lastDigest
    rw [hkept]
  have hbinding : trimSpace (if index = 0 then [] else s.parentBinding) =
      if index = 0 then [] else trimSpace s.parentBinding := by
    split_ifs <;> rfl
  simp only [append, checks_ok, if_neg httl, Bool.or_eq_true]
  refine ⟨index, h.currentIndex, h.nodes ▸ hnext, hlength, h.bound, digest, hdigest', _, rfl,
    marshal (s.hop index digest).json, ?_, _, rfl, hne _ _, ?_, ?_⟩
  · rw [← hcanonical, hbinding]
    rfl
  · rw [hkept, hlength]
    exact hmax
  · rw [hkept, hbinding]
    rfl

/-- A hop sent from `s` passes at `s'`: its lifetime in whole seconds is within the limit there. -/
def Passes (s s' : Station) : Prop :=
  0 < unix s.departure ∧ seconds ((s.departure % second + s.ttl) / second) ≤ s'.options.limit

lemma Departs.admitted_iff {index' : ℕ} (h : Departs path index s) (h' : Placed path index' s')
    (hsign : Signs sign verifier) (hdigest : IsDigest digest) (hordered : s.departure ≤ s'.arrival)
    (hlive : unix s'.arrival < unix (s.departure + s.ttl)) :
    Admitted s'.nodeContext.normalized verifier s'.options s'.arrival index digest
      (s.record sign index digest) ↔ Passes s s' := by
  have hnormal := h.normalizeHop_hop hdigest
  have hskew : 0 ≤ s'.options.skew := by
    unfold VerifyOptions.skew
    split_ifs with hneg
    · exact le_rfl
    · exact not_lt.mp hneg
  have hlife : 0 < unix s.departure → int64 (unix (s.departure + s.ttl) - unix s.departure) =
      (s.departure % second + s.ttl) / second := fun hpos => by
    rw [int64_window hpos (unix_lt_add h.ttl) h.expires, unix_add_sub]
  constructor
  · intro hadmitted
    refine ⟨hadmitted.positive, ?_⟩
    rw [← hlife hadmitted.positive]
    exact hadmitted.lifetime
  · rintro ⟨hpos, hlimit⟩
    have hroot : s.nodeContext.normalized.nodes.getD 0 [] =
        s'.nodeContext.normalized.nodes.getD 0 [] := by rw [h.nodes, h'.nodes]
    refine ⟨?_, ?_, ?_, ?_, ?_, ?_, ?_, ?_, ?_, hpos, unix_lt_add h.ttl, ?_, ?_, ?_, ?_, ?_⟩
    all_goals simp only [Station.record, hnormal]
    · rw [h'.nodes, h.getD_current]
      rfl
    · rw [h'.nodes, h.getD_current]
      rfl
    · rw [h'.nodes, ← h.nodes]
      rfl
    · rfl
    · exact hroot
    · rw [h'.chainID, ← h.chainID]
      rfl
    · rw [h'.chainSHA256, ← h.chainSHA256]
      rfl
    · rfl
    · rcases h.bound with rfl | hbound
      · simp [Station.hop]
      · by_cases hzero : index = 0
        · simp [Station.hop, hzero]
        · simp [Station.hop, hzero, hbound]
    · rw [← hlife hpos] at hlimit
      exact hlimit
    · exact unix_mono (hordered.trans (le_add_of_nonneg_right hskew))
    · exact (unix_mono (sub_le_self _ hskew)).trans_lt hlive
    · exact h.validateHop_hop hdigest
    · exact ⟨_, Base64.decode_encode _, hsign.nonempty _ _, (hsign.verifies _ _ _).mpr rfl⟩

/-- The texts of a station's record that may not be UTF-8. -/
def Readable (index : ℕ) (s : Station) : Prop :=
  validUTF8 s.nodeContext.normalized.chainID = true ∧
    (index = 0 ∨ validUTF8 (trimSpace s.parentBinding) = true)

omit [SHA256] [Unicode] in
lemma valid_getD {nodes : List Text} (hutf8 : ∀ node ∈ nodes, validUTF8 node = true) (i : ℕ) :
    validUTF8 (nodes.getD i []) = true := by
  rw [getD_eq_getElem?_getD]
  cases hi : nodes[i]? with
  | none => rfl
  | some node => exact hutf8 node (mem_of_getElem? hi)

section

variable (h : Departs path index s) (hutf8 : ∀ node ∈ path.nodes, validUTF8 node = true)
include h hutf8

omit [SHA256] in
lemma Departs.valid_currentNode : validUTF8 s.nodeContext.normalized.currentNode = true :=
  h.getD_current ▸ valid_getD hutf8 index

omit hutf8 [SHA256] in
lemma Departs.valid_chainSHA256 : validUTF8 s.nodeContext.normalized.chainSHA256 = true :=
  h.chainSHA256 ▸ validUTF8_of_lowerHex h.lowerHex.2

omit hutf8 h [Unicode] in
lemma IsDigest.valid (h : IsDigest digest) : validUTF8 digest = true := by
  rcases h with rfl | ⟨m, rfl⟩
  · rfl
  · exact valid_hex m

lemma Departs.scrub_hop (hdigest : IsDigest digest) :
    (s.hop index digest).scrub = s.hop index digest ↔ Readable index s := by
  have hnode := valid_getD hutf8
  have hversion : validUTF8 hopVersion = true := by decide
  have hnonce : validUTF8 (Base64.encode s.entropy) = true :=
    Base64.valid_of_decode (Base64.decode_encode s.entropy)
  have hbinding : validUTF8 (if index = 0 then [] else trimSpace s.parentBinding) = true ↔
      index = 0 ∨ validUTF8 (trimSpace s.parentBinding) = true := by
    by_cases hzero : index = 0
    · simp [hzero, validUTF8]
    · simp [hzero]
  simp only [Hop.scrub, Station.hop, Hop.mk.injEq, scrub_eq_self_iff, h.nodes, hnode, hversion,
    h.valid_currentNode hutf8, h.valid_chainSHA256, hnonce, hdigest.valid, hbinding, true_and,
    and_true]
  rfl

lemma Departs.readable_of_admitted {index' : ℕ} (hsign : Signs sign verifier)
    (hdigest : IsDigest digest) {digest' : Text}
    (hadmitted : Admitted s'.nodeContext.normalized verifier s'.options s'.arrival index' digest'
      (s.record sign index digest).scrub) : Readable index s := by
  have hnormal := h.normalizeHop_hop hdigest
  set hop := s.hop index digest with hhop
  have hscrubbed : normalizeHop hop.scrub = hop.scrub :=
    normalizeHop_scrub hnormal h.valid_chainSHA256 hdigest.valid
  obtain ⟨sig, hdecode, -, hverified⟩ := hadmitted.signature
  have hsig : Base64.decode (WeaverSSH.scrub (Base64.encode
      (sign hop.fromNode (marshal hop.json)))) = some sig := hdecode
  rw [scrub_of_valid (Base64.valid_of_decode (Base64.decode_encode _)),
    Base64.decode_encode] at hsig
  obtain rfl := Option.some.inj hsig
  have hprincipal : WeaverSSH.scrub hop.fromNode = hop.fromNode :=
    scrub_of_valid (h.valid_currentNode hutf8)
  have hmessage : marshal hop.scrub.json = marshal hop.json := by
    change verifier (WeaverSSH.scrub hop.fromNode) (marshal (normalizeHop hop.scrub).json) _ =
      true at hverified
    rw [hprincipal, hscrubbed] at hverified
    exact (hsign.verifies _ _ _).mp hverified
  have hjson : hop.json.scrub = hop.json := by
    refine scrub_eq_self_of_marshal_eq (hop.fits 0) ?_ ?_
    · rw [Hop.scrub_json]
      exact hop.scrub.fits 0
    · rw [Hop.scrub_json, hmessage]
  rw [← h.scrub_hop hutf8 hdigest]
  rw [Hop.scrub_json] at hjson
  exact Hop.json_injective hjson

end

omit [Unicode] [SHA256] in
lemma forall_numbered_cons {P : ℕ → Station → Prop} {rest : List Station} :
    (∀ i p, (s :: rest)[i]? = some p → P (index + i) p) ↔
      P index s ∧ ∀ i p, rest[i]? = some p → P (index + 1 + i) p := by
  constructor
  · intro h
    refine ⟨h 0 s rfl, fun i p hp => ?_⟩
    have hp' := h (i + 1) p hp
    rwa [Nat.add_comm i 1, ← Nat.add_assoc] at hp'
  · rintro ⟨hs, hrest⟩ (_ | i) p hp
    · exact Option.some.inj hp ▸ hs
    · rw [Nat.add_comm i 1, ← Nat.add_assoc]
      exact hrest i p hp

/-- The records of some stations, one after the other. -/
def records (sign : Text → List UInt8 → List UInt8) : ℕ → Text → List Station → List SignedHop
  | _, _, [] => []
  | index, digest, s :: rest =>
    s.record sign index digest ::
      records sign (index + 1) (hex (s.record sign index digest).digested) rest

def digestAfter (sign : Text → List UInt8 → List UInt8) : ℕ → Text → List Station → Text
  | _, digest, [] => digest
  | index, digest, s :: rest =>
    digestAfter sign (index + 1) (hex (s.record sign index digest).digested) rest

lemma length_records {sent : List Station} : ∀ {index : ℕ} {digest : Text},
    (records sign index digest sent).length = sent.length := by
  induction sent with
  | nil => exact rfl
  | cons s rest ih => simp [records, ih]

lemma records_concat {sent : List Station} : ∀ {index : ℕ} {digest : Text},
    records sign index digest (sent ++ [s]) = records sign index digest sent ++
      [s.record sign (index + sent.length) (digestAfter sign index digest sent)] := by
  induction sent with
  | nil => exact rfl
  | cons t rest ih =>
    intro index digest
    rw [cons_append, records, records, ih, cons_append, digestAfter, length_cons,
      Nat.add_right_comm, Nat.add_assoc]

lemma isDigest_digestAfter {sent : List Station} : ∀ {index : ℕ} {digest : Text},
    IsDigest digest → IsDigest (digestAfter sign index digest sent) := by
  induction sent with
  | nil => exact fun h => h
  | cons s rest ih => exact fun _ => ih (.inr ⟨_, rfl⟩)

lemma Departs.signedHopDigest_record (h : Departs path index s)
    (hne : ∀ node message, sign node message ≠ []) : signedHopDigest (s.record sign index digest) =
      .ok (hex (s.record sign index digest).digested) := by
  refine signedHopDigest_eq_ok.mpr ⟨?_, fun hnil => hne _ _ (Base64.encode_eq_nil hnil), rfl⟩
  have hcurrent := mem_of_getElem? h.current
  change trimSpace s.nodeContext.normalized.currentNode ≠ []
  rw [(h.mem_nodes hcurrent).1]
  exact (h.mem_nodes hcurrent).2

lemma digestAfter_concat {sent : List Station} : ∀ {index : ℕ} {digest : Text},
    digestAfter sign index digest (sent ++ [s]) = hex (s.record sign (index + sent.length)
        (digestAfter sign index digest sent)).digested := by
  induction sent with
  | nil => exact rfl
  | cons t rest ih =>
    intro index digest
    rw [cons_append, digestAfter, ih, digestAfter, length_cons, Nat.add_right_comm, Nat.add_assoc]

lemma lastDigest_records {sent : List Station} (hne : ∀ node message, sign node message ≠ [])
    (h : ∀ i p, sent[i]? = some p → Departs path i p)
    (hchain : chain.hops = records sign 0 [] sent) :
    chain.lastDigest = .ok (digestAfter sign 0 [] sent) := by
  rw [Chain.lastDigest, hchain]
  rcases eq_nil_or_concat sent with rfl | ⟨rest, p, rfl⟩
  · rfl
  · rw [concat_eq_append] at h ⊢
    have hp : Departs path (0 + rest.length) p := by
      rw [Nat.zero_add]
      exact h rest.length p (by simp)
    rw [records_concat, List.getLast?_append_cons, List.getLast?_singleton, digestAfter_concat]
    exact hp.signedHopDigest_record hne

lemma linked_records {index' : ℕ} (h' : Placed path index' s') (hsign : Signs sign verifier)
    {sent : List Station} : ∀ {index : ℕ} {digest : Text}, IsDigest digest →
    (∀ i p, sent[i]? = some p → Departs path (index + i) p) →
    (∀ p ∈ sent, p.departure ≤ s'.arrival ∧ unix s'.arrival < unix (p.departure + p.ttl)) →
    ∀ tail : List SignedHop,
    (Linked s'.nodeContext.normalized verifier s'.options s'.arrival index digest
      (records sign index digest sent ++ tail) ↔ (∀ p ∈ sent, Passes p s') ∧
        Linked s'.nodeContext.normalized verifier s'.options s'.arrival (index + sent.length)
          (digestAfter sign index digest sent) tail) := by
  induction sent with
  | nil => exact fun _ _ _ => by simp [records, digestAfter]
  | cons p rest ih =>
    intro index digest hdigest hdeparts hclock tail
    obtain ⟨hp, hdeparts⟩ := forall_numbered_cons.mp hdeparts
    obtain ⟨hordered, hlive⟩ := hclock p mem_cons_self
    have hrest := @ih (index + 1) (hex (p.record sign index digest).digested) (.inr ⟨_, rfl⟩)
      hdeparts (fun q hq => hclock q (mem_cons_of_mem p hq)) tail
    rw [records, cons_append, Linked, hp.admitted_iff h' hsign hdigest hordered hlive,
      hp.signedHopDigest_record hsign.nonempty]
    simp only [Except.ok.injEq, exists_eq_left', hrest, forall_mem_cons, digestAfter,
      length_cons, and_assoc, Nat.add_right_comm index 1, ← Nat.add_assoc]

lemma nonces_records {sent : List Station} : ∀ {index : ℕ} {digest : Text},
    (records sign index digest sent).map SignedHop.nonce =
      sent.map fun p => Base64.encode p.entropy := by
  induction sent with
  | nil => exact rfl
  | cons p rest ih =>
    intro index digest
    have hnonce : (p.record sign index digest).nonce = Base64.encode p.entropy :=
      trimSpace_of_forall (Base64.isSpace_encode p.entropy)
    rw [records, map_cons, map_cons, ih, hnonce]

lemma scrub_record_of (h : Departs path index s)
    (hutf8 : ∀ node ∈ path.nodes, validUTF8 node = true) (hdigest : IsDigest digest)
    (hread : Readable index s) :
    (s.record sign index digest).scrub = s.record sign index digest := by
  have hhop := (h.scrub_hop hutf8 hdigest).mpr hread
  have hprincipal : WeaverSSH.scrub (s.hop index digest).fromNode = (s.hop index digest).fromNode :=
    scrub_of_valid (h.valid_currentNode hutf8)
  have hsignature := fun m => scrub_of_valid (Base64.valid_of_decode (Base64.decode_encode m))
  simp only [SignedHop.scrub, Station.record, hhop, hprincipal, hsignature]

lemma scrub_records (hutf8 : ∀ node ∈ path.nodes, validUTF8 node = true) {sent : List Station} :
    ∀ {index : ℕ} {digest : Text}, IsDigest digest →
    (∀ i p, sent[i]? = some p → Departs path (index + i) p ∧ Readable (index + i) p) →
    (records sign index digest sent).map SignedHop.scrub = records sign index digest sent := by
  induction sent with
  | nil => exact fun _ _ => rfl
  | cons p rest ih =>
    intro index digest hdigest h
    obtain ⟨⟨hp, hread⟩, hrest⟩ :=
      (forall_numbered_cons (P := fun i p => Departs path i p ∧ Readable i p)).mp h
    rw [records, map_cons, scrub_record_of hp hutf8 hdigest hread, ih (.inr ⟨_, rfl⟩) hrest]

lemma sized_records {sent : List Station} : ∀ {index : ℕ} {digest : Text},
    (∀ i p, sent[i]? = some p → Departs path (index + i) p ∧ index + i < 17) →
    ∀ r ∈ records sign index digest sent, r.hop.Sized := by
  induction sent with
  | nil => exact fun _ r hr => by cases hr
  | cons p rest ih =>
    intro index digest h r hr
    obtain ⟨⟨hp, hindex⟩, hrest⟩ :=
      (forall_numbered_cons (P := fun i p => Departs path i p ∧ i < 17)).mp h
    rcases mem_cons.mp hr with rfl | hr
    · refine ⟨?_, hp.issued, hp.expires⟩
      change IsInt64 ((index : ℤ) + 1)
      unfold IsInt64
      omega
    · exact ih hrest r hr

/-! ## A leg of the run -/

/-- What is known where the records of the stations `sent` arrive at `s'`. -/
structure Leg (path : Path) (sent : List Station) (s' : Station) : Prop where
  departs : ∀ i p, sent[i]? = some p → Departs path i p
  arrives : Placed path sent.length s'
  utf8 : ∀ node ∈ path.nodes, validUTF8 node = true
  clock : ∀ p ∈ sent, p.departure ≤ s'.arrival ∧ unix s'.arrival < unix (p.departure + p.ttl)
  fresh : (sent.map Station.entropy).Nodup
  atMost : sent.length ≤ maxHops

omit [SHA256] in
lemma HonestRun.leg {sent rest : List Station} (h : HonestRun path stations)
    (heq : stations = sent ++ s' :: rest) : Leg path sent s' := by
  have hdrop : stations.dropLast = sent ++ (s' :: rest).dropLast := by
    rw [heq, dropLast_append_of_ne_nil (by simp)]
  have hmem : ∀ p ∈ sent, p ∈ stations.dropLast := fun p hp => by
    rw [hdrop]
    exact mem_append_left _ hp
  have hplaced : ∀ i p, stations[i]? = some p → Placed path i p := fun i p hp =>
    h.placed (p, i) (mk_mem_zipIdx_iff_getElem?.mpr hp)
  have hlength := h.length
  have hmax := h.atMost
  rw [heq, length_append, length_cons] at hlength
  refine ⟨fun i p hp => ?_, ?_, h.utf8, fun p hp => ?_, ?_, by unfold maxHops; omega⟩
  · have hi : i < sent.length := (List.getElem?_eq_some_iff.mp hp).1
    have hin := hmem p (mem_of_getElem? hp)
    have hat : stations[i]? = some p := by rw [heq, List.getElem?_append_left hi, hp]
    obtain ⟨hissued, hexpires⟩ := h.sized p hin
    refine ⟨hplaced i p hat, by omega, h.ttl p hin, h.entropy p hin, ?_, hissued, hexpires⟩
    cases i with
    | zero => exact .inl rfl
    | succ i =>
      refine .inr (h.bound p (mem_of_getElem? (i := i) ?_))
      rw [List.getElem?_tail, hdrop, List.getElem?_append_left hi, hp]
  · refine hplaced _ _ ?_
    rw [heq, List.getElem?_append_right le_rfl, Nat.sub_self]
    rfl
  · have hordered := h.ordered
    have hlive := h.live
    rw [heq, pairwise_append] at hordered hlive
    exact ⟨hordered.2.2 p hp s' mem_cons_self, hlive.2.2 p hp s' mem_cons_self⟩
  · have hfresh := h.fresh
    rw [hdrop, map_append] at hfresh
    exact hfresh.of_append_left

variable {sent : List Station}

def sentChain (sign : Text → List UInt8 → List UInt8) (sent : List Station) : Chain :=
  ⟨chainVersion, records sign 0 [] sent⟩

/-- Where nothing had to be scrubbed, what is left to check is that every hop passes. -/
lemma Leg.verify_iff (h : Leg path sent s') (hsign : Signs sign verifier) (hsent : sent ≠ []) :
    (verify (some .empty) s'.nodeContext (sentChain sign sent) verifier s'.options
      s'.verifyClock).2 = .ok () ↔ ∀ p ∈ sent, Passes p s' := by
  have hlinked : Linked s'.nodeContext.normalized verifier s'.options s'.arrival 0 []
      (records sign 0 [] sent) ↔ ∀ p ∈ sent, Passes p s' := by
    have hrecords := linked_records h.arrives hsign (.inl rfl)
      (fun i p hp => (Nat.zero_add i).symm ▸ h.departs i p hp) h.clock []
    simpa [Linked] using hrecords
  rw [verify_snd_eq_ok]
  simp only [verify_eq_ok]
  constructor
  · rintro ⟨cache', index, -, -, -, -, -, hhops, -⟩
    exact hlinked.mp (verifyHops_ok hhops)
  · intro hpass
    have hnonces : ((records sign 0 [] sent).map SignedHop.nonce).Nodup := by
      rw [nonces_records]
      have hinj : Function.Injective Base64.encode := fun a b hab =>
        Option.some.inj (by rw [← Base64.decode_encode a, hab, Base64.decode_encode])
      have hfresh := h.fresh.map hinj
      rwa [map_map] at hfresh
    obtain ⟨c', hhops⟩ := verifyHops_of_linked (c := .empty) (hlinked.mpr hpass)
      (fun _ _ => rfl) hnonces
    refine ⟨some c', sent.length, h.arrives.currentIndex, by simpa using hsent, rfl,
      length_records, h.atMost, hhops, ?_⟩
    obtain ⟨rest, p, rfl⟩ : ∃ rest p, sent = rest ++ [p] := by
      rcases eq_nil_or_concat sent with hnil | ⟨rest, p, hconcat⟩
      · exact absurd hnil hsent
      · exact ⟨rest, p, by rw [hconcat, concat_eq_append]⟩
    have hp : Departs path rest.length p := h.departs rest.length p (by simp)
    have hcurrent := h.arrives.getD_current
    rw [length_append] at hcurrent
    rw [sentChain, records_concat, List.getLast?_append_cons, List.getLast?_singleton,
      Option.map_some, Nat.zero_add, ← hcurrent, ← hp.nodes]
    rfl

lemma Leg.readable (h : Leg path (sent ++ [s]) s') (hsign : Signs sign verifier)
    (hread : ∀ i p, sent[i]? = some p → Readable i p)
    (hok : (verify (some .empty) s'.nodeContext (sentChain sign (sent ++ [s])).scrub verifier
      s'.options s'.verifyClock).2 = .ok ()) : Readable sent.length s := by
  have hs : Departs path sent.length s := h.departs sent.length s (by simp)
  have hsent : ∀ i p, sent[i]? = some p → Departs path (0 + i) p ∧ Readable (0 + i) p := by
    intro i p hp
    rw [Nat.zero_add]
    refine ⟨h.departs i p ?_, hread i p hp⟩
    rw [List.getElem?_append_left (List.getElem?_eq_some_iff.mp hp).1, hp]
  have hhops : (sentChain sign (sent ++ [s])).scrub.hops = records sign 0 [] sent ++
      [(s.record sign sent.length (digestAfter sign 0 [] sent)).scrub] := by
    rw [sentChain, Chain.scrub, records_concat, map_append,
      scrub_records h.utf8 (.inl rfl) hsent, Nat.zero_add]
    rfl
  obtain ⟨cache', hverify⟩ := verify_snd_eq_ok.mp hok
  obtain ⟨index, -, -, -, -, -, hrun, -⟩ := verify_eq_ok.mp hverify
  have hlinked := verifyHops_ok hrun
  rw [hhops] at hlinked
  obtain ⟨-, hadmitted, -⟩ := (linked_records h.arrives hsign (.inl rfl)
    (fun i p hp => (hsent i p hp).1)
    (fun p hp => h.clock p (mem_append_left _ hp)) _).mp hlinked
  exact hs.readable_of_admitted h.utf8 hsign (isDigest_digestAfter (.inl rfl)) hadmitted

/-- Every leg of what is left of a run goes well. -/
def Carries : List Station → List Station → Prop
  | _, [] => True
  | _, [_] => True
  | sent, s :: s' :: rest =>
    Readable sent.length s ∧ (∀ p ∈ sent ++ [s], Passes p s') ∧ Carries (sent ++ [s]) (s' :: rest)

omit [Unicode] [SHA256] in
lemma encode_eq (hversion : chain.version = chainVersion)
    (hne : chain.hops ≠ []) (hmax : chain.hops.length ≤ maxHops) : encode chain = (do
      require (len (Base64.encode (marshal chain.json)) ≤ maxEncodedBytes) .encodedTooLong
      Except.ok (Base64.encode (marshal chain.json))) := by
  unfold encode
  rw [require_of_true (by simp [hversion, hne, hmax]), ok_bind]
  rfl

/-- One leg: the station appends its record, and the next one verifies what is left of the chain
after it was written and read. -/
lemma Leg.travel_eq (h : Leg path (sent ++ [s]) s')
    (verifier : Text → List UInt8 → List UInt8 → Bool)
    (hne : ∀ node message, sign node message ≠ [])
    (hchain : chain.hops = records sign 0 [] sent) (rest : List Station) :
    travel sign verifier chain (s :: s' :: rest) = (do
      require (len (Base64.encode (marshal (sentChain sign (sent ++ [s])).json)) ≤
        maxEncodedBytes) .encodedTooLong
      (verify (some .empty) s'.nodeContext (sentChain sign (sent ++ [s])).scrub verifier s'.options
        s'.verifyClock).2
      travel sign verifier (sentChain sign (sent ++ [s])).scrub (s' :: rest)) := by
  have hs : Departs path sent.length s := h.departs sent.length s (by simp)
  have hmax := h.atMost
  rw [length_append, length_singleton] at hmax
  have hsent : ∀ i p, sent[i]? = some p → Departs path i p := fun i p hp => h.departs i p (by
    rw [List.getElem?_append_left (List.getElem?_eq_some_iff.mp hp).1, hp])
  have happend := hs.append_eq hne (by rw [hchain, length_records]) hmax
    (isDigest_digestAfter (.inl rfl)) (lastDigest_records hne hsent hchain)
  have hchain' : (⟨chainVersion, chain.hops ++ [s.record sign sent.length
      (digestAfter sign 0 [] sent)]⟩ : Chain) = sentChain sign (sent ++ [s]) := by
    rw [sentChain, records_concat, Nat.zero_add, hchain]
  have hlength : (sentChain sign (sent ++ [s])).hops.length = (sent ++ [s]).length := length_records
  have hrecords : (sentChain sign (sent ++ [s])).hops ≠ [] := fun hnil => by
    rw [hnil] at hlength
    simp at hlength
  have hsized : ∀ r ∈ (sentChain sign (sent ++ [s])).hops, r.hop.Sized :=
    sized_records fun i p hp => by
      have hi := (List.getElem?_eq_some_iff.mp hp).1
      have hbound := h.atMost
      unfold maxHops at hbound
      rw [Nat.zero_add]
      exact ⟨h.departs i p hp, by omega⟩
  have hencode := encode_eq rfl hrecords (hlength.trans_le h.atMost)
  rw [travel, happend, hchain', ok_bind]
  by_cases hfits : len (Base64.encode (marshal (sentChain sign (sent ++ [s])).json)) ≤
      maxEncodedBytes
  · rw [require_of_true (decide_eq_true hfits), ok_bind] at hencode ⊢
    rw [hencode, ok_bind, decode_encode hsized hencode, ok_bind]
  · rw [require_of_false (decide_eq_false hfits), error_bind] at hencode ⊢
    rw [hencode, error_bind]

lemma Leg.travel_eq_verify (h : Leg path (sent ++ [s]) s')
    (verifier : Text → List UInt8 → List UInt8 → Bool)
    (hne : ∀ node message, sign node message ≠ [])
    (hchain : chain.hops = records sign 0 [] sent) (rest : List Station)
    (hfits : len (Base64.encode (marshal (sentChain sign (sent ++ [s])).json)) ≤ maxEncodedBytes) :
    travel sign verifier chain (s :: s' :: rest) = (do
      (verify (some .empty) s'.nodeContext (sentChain sign (sent ++ [s])).scrub verifier s'.options
        s'.verifyClock).2
      travel sign verifier (sentChain sign (sent ++ [s])).scrub (s' :: rest)) := by
  rw [h.travel_eq verifier hne hchain rest, require_of_true (decide_eq_true hfits), ok_bind]

/-- A run that is not stopped by the size of its chain reaches its end exactly where every leg goes
well. -/
lemma HonestRun.travel_iff (h : HonestRun path stations)
    (hsign : Signs sign verifier) {left : List Station} : ∀ {sent : List Station} {chain : Chain},
    stations = sent ++ left → chain.hops = records sign 0 [] sent →
    (∀ i p, sent[i]? = some p → Readable i p) →
    travel sign verifier chain left ≠ .error .encodedTooLong →
    ((∃ arrived, travel sign verifier chain left = .ok arrived) ↔ Carries sent left) := by
  -- along what is left of the run, with the stations that have sent their records
  induction left with
  | nil => exact fun _ _ _ _ => by simp [travel, Carries]
  | cons s left ih =>
    cases left with
    | nil => exact fun _ _ _ _ => by simp [travel, Carries]
    | cons s' rest =>
      intro sent chain heq hchain hread hsize
      have heq' : stations = (sent ++ [s]) ++ s' :: rest := by simpa using heq
      have hleg := h.leg heq'
      have htravel := hleg.travel_eq verifier hsign.nonempty hchain rest
      have hfits : len (Base64.encode (marshal (sentChain sign (sent ++ [s])).json)) ≤
          maxEncodedBytes := by
        by_contra hlong
        rw [htravel, require_of_false (decide_eq_false hlong)] at hsize
        exact hsize rfl
      rw [hleg.travel_eq_verify verifier hsign.nonempty hchain rest hfits] at hsize ⊢
      rw [Carries]
      by_cases hs : Readable sent.length s
      · have hread' : ∀ i p, (sent ++ [s])[i]? = some p → Readable i p := by
          intro i p hp
          rcases lt_or_ge i sent.length with hi | hi
          · rw [List.getElem?_append_left hi] at hp
            exact hread i p hp
          · obtain rfl : i = sent.length := by
              have := (List.getElem?_eq_some_iff.mp hp).1
              rw [length_append, length_singleton] at this
              omega
            obtain rfl : s = p := by simpa using hp
            exact hs
        have hscrub : (sentChain sign (sent ++ [s])).scrub = sentChain sign (sent ++ [s]) := by
          have hrecords : (records sign 0 [] (sent ++ [s])).map SignedHop.scrub =
              records sign 0 [] (sent ++ [s]) :=
            scrub_records hleg.utf8 (.inl rfl) fun i p hp => by
              rw [Nat.zero_add]
              exact ⟨hleg.departs i p hp, hread' i p hp⟩
          rw [sentChain, Chain.scrub, hrecords]
          exact congrArg (Chain.mk · _) (scrub_text _)
        rw [hscrub] at hsize ⊢
        have hverify := hleg.verify_iff hsign (by simp)
        by_cases hpass : ∀ p ∈ sent ++ [s], Passes p s'
        · rw [hverify.mpr hpass, ok_bind] at hsize ⊢
          rw [ih heq' rfl hread' hsize]
          exact ⟨fun hrest => ⟨hs, hpass, hrest⟩, fun hrest => hrest.2.2⟩
        · refine ⟨?_, fun hrest => absurd hrest.2.1 hpass⟩
          rintro ⟨arrived, hok⟩
          obtain ⟨⟨⟩, hok, -⟩ := bind_eq_ok.mp hok
          exact absurd (hverify.mp hok) hpass
      · refine ⟨?_, fun hrest => absurd hrest.1 hs⟩
        rintro ⟨arrived, hok⟩
        obtain ⟨⟨⟩, hok, -⟩ := bind_eq_ok.mp hok
        exact absurd (hleg.readable hsign hread hok) hs

omit [SHA256] in
lemma carries_iff {left : List Station} : ∀ {sent : List Station}, Carries sent left ↔
      (∀ i p, left.dropLast[i]? = some p → Readable (sent.length + i) p) ∧
        left.Pairwise Passes ∧ ∀ p ∈ sent, ∀ q ∈ left.tail, Passes p q := by
  induction left with
  | nil => simp [Carries]
  | cons s left ih =>
    cases left with
    | nil => simp [Carries]
    | cons s' rest =>
      intro sent
      rw [Carries, ih, dropLast_cons_cons, forall_numbered_cons, pairwise_cons (l := s' :: rest)]
      simp only [length_append, length_singleton, tail_cons, mem_append,
        mem_singleton, forall_mem_cons, or_imp, forall_and, forall_eq]
      tauto

omit [SHA256] in
lemma HonestRun.readable_iff (h : HonestRun path stations) (hhops : 2 ≤ path.nodes.length) :
    (∀ i p, stations.dropLast[i]? = some p → Readable i p) ↔ validUTF8 path.chainID = true ∧
        ∀ s ∈ stations.dropLast.tail, validUTF8 (trimSpace s.parentBinding) = true := by
  have hlength := h.length
  have hplaced : ∀ i p, stations.dropLast[i]? = some p → Placed path i p := fun i p hp =>
    h.placed (p, i) (mk_mem_zipIdx_iff_getElem?.mpr (by
      rw [List.getElem?_dropLast] at hp
      split_ifs at hp
      exact hp))
  obtain ⟨s, rest, hdrop⟩ : ∃ s rest, stations.dropLast = s :: rest := by
    refine exists_cons_of_length_pos ?_
    rw [length_dropLast]
    omega
  constructor
  · intro hread
    have hs : stations.dropLast[0]? = some s := by rw [hdrop]; rfl
    refine ⟨(hplaced 0 s hs).chainID ▸ (hread 0 s hs).1, fun p hp => ?_⟩
    obtain ⟨i, hi⟩ := mem_iff_getElem?.mp hp
    rw [List.getElem?_tail] at hi
    exact (hread (i + 1) p hi).2.resolve_left (Nat.succ_ne_zero i)
  · rintro ⟨hid, hbinding⟩ i p hp
    refine ⟨(hplaced i p hp).chainID ▸ hid, ?_⟩
    cases i with
    | zero => exact .inl rfl
    | succ i =>
      refine .inr (hbinding p (mem_of_getElem? (i := i) ?_))
      rwa [List.getElem?_tail]

/-- **Honest chains are accepted.** A run along a path, from any chain without records, reaches its
end exactly where the identifier of the chain and the session bindings are UTF-8 and every hop,
with its lifetime in whole seconds, is within the limit of every verifier after it. -/
theorem honest_chains_accepted {stations : List Station} (h : HonestRun path stations)
    (hsign : Signs sign verifier) (hhops : 2 ≤ path.nodes.length) (version : Text)
    (hsize : travel sign verifier ⟨version, []⟩ stations ≠ .error .encodedTooLong) :
    (∃ arrived, travel sign verifier ⟨version, []⟩ stations = .ok arrived) ↔
      validUTF8 path.chainID = true ∧
      (∀ s ∈ stations.dropLast.tail, validUTF8 (trimSpace s.parentBinding) = true) ∧
      stations.Pairwise Passes := by
  rw [h.travel_iff hsign (List.nil_append _).symm rfl (by simp) hsize, carries_iff]
  simp only [List.length_nil, Nat.zero_add, List.not_mem_nil, false_implies, implies_true, and_true,
    h.readable_iff hhops, and_assoc]

end Records

instance (path : Path) (index : ℕ) (s : Station) : Decidable (Placed path index s) :=
  decidable_of_iff' _ (placed_iff path index s)

instance (path : Path) (stations : List Station) : Decidable (HonestRun path stations) :=
  decidable_of_iff' _ (honestRun_iff path stations)

end

/-! ### Runs of three nodes -/

attribute [local instance] asciiCase sha256

def threeNodes : List Text := ["a", "b", "c"]

/-- A node of the path whose hops live for `ttl`, where no hop may live longer. -/
def stationAt (chainID binding : Text) (ttl : Duration) (clock : Time) (node : Text)
    (seed : UInt8) :
    Station where
  nodeContext :=
    { contextFor 60 with
      chainID := chainID, nodes := threeNodes, currentNode := node, endpointNode := "c" }
  options := { now := clock, maxTTL := ttl }
  verifyClock := 0
  parentBinding := binding
  ttl := ttl
  now := clock
  appendClock := 0
  entropy := List.replicate 32 seed

def stationsOf (chainID binding : Text) (ttl : Duration) (clock : Time) : List Station :=
  [stationAt chainID binding ttl clock "a" 1, stationAt chainID binding ttl clock "b" 2,
    stationAt chainID binding ttl clock "c" 3]

def pathOf (chainID : Text) : Path := ⟨threeNodes, chainID, noDigest⟩

def plainSign (_node : Text) (message : List UInt8) : List UInt8 := 0 :: message

def plainVerifier (node : Text) (message signature : List UInt8) : Bool :=
  signature = plainSign node message

lemma plain_signs : Signs plainSign plainVerifier where
  nonempty _ _ := cons_ne_nil _ _
  verifies _ message message' := by
    simp [plainVerifier, plainSign, eq_comm]

lemma nodeChecksum_ne_nil (node : Text) (message : List UInt8) :
    nodeChecksum node message ≠ [] := by
  simp [nodeChecksum, checksum, signatureSize]

section

variable (sign : Text → List UInt8 → List UInt8) (verifier : Text → List UInt8 → List UInt8 → Bool)
  (chainID binding : Text) (ttl : Duration) (clock : Time)

/-- The chain the second node is sent in such a run, and its verdict. -/
def firstChain : Chain := sentChain sign [stationAt chainID binding ttl clock "a" 1]

def firstVerdict : Except HopErr Unit :=
  (verify (some .empty) (stationAt chainID binding ttl clock "b" 2).nodeContext
    (firstChain sign chainID binding ttl clock).scrub verifier { now := clock, maxTTL := ttl } 0).2

/-- The chain the third node is sent, and its verdict. -/
def secondChain : Chain :=
  sentChain sign [stationAt chainID binding ttl clock "a" 1,
    stationAt chainID binding ttl clock "b" 2]

def secondVerdict : Except HopErr Unit :=
  (verify (some .empty) (stationAt chainID binding ttl clock "c" 3).nodeContext
    (secondChain sign chainID binding ttl clock).scrub verifier { now := clock, maxTTL := ttl } 0).2

def Encodes (chain : Chain) : Prop :=
  len (Base64.encode (marshal chain.json)) ≤ maxEncodedBytes

instance (chain : Chain) : Decidable (Encodes chain) := inferInstanceAs (Decidable (_ ≤ _))

variable {sign verifier chainID binding ttl clock}

section

variable (h : HonestRun (pathOf chainID) (stationsOf chainID binding ttl clock))
include h

lemma travel_first (hne : ∀ node message, sign node message ≠ [])
    (hfits : Encodes (firstChain sign chainID binding ttl clock)) :
    travel sign verifier ⟨[], []⟩ (stationsOf chainID binding ttl clock) = (do
      firstVerdict sign verifier chainID binding ttl clock
      travel sign verifier (firstChain sign chainID binding ttl clock).scrub
        [stationAt chainID binding ttl clock "b" 2,
          stationAt chainID binding ttl clock "c" 3]) := by
  have hleg : Leg (pathOf chainID) ([] ++ [stationAt chainID binding ttl clock "a" 1])
      (stationAt chainID binding ttl clock "b" 2) := h.leg rfl
  exact hleg.travel_eq_verify verifier hne rfl _ hfits

lemma travel_second (hne : ∀ node message, sign node message ≠ [])
    (hfirst : (firstChain sign chainID binding ttl clock).scrub =
      firstChain sign chainID binding ttl clock)
    (hfits : Encodes (secondChain sign chainID binding ttl clock)) :
    travel sign verifier (firstChain sign chainID binding ttl clock).scrub
        [stationAt chainID binding ttl clock "b" 2,
          stationAt chainID binding ttl clock "c" 3] = (do
      secondVerdict sign verifier chainID binding ttl clock
      .ok (secondChain sign chainID binding ttl clock).scrub) := by
  have hleg : Leg (pathOf chainID) ([stationAt chainID binding ttl clock "a" 1] ++
      [stationAt chainID binding ttl clock "b" 2])
      (stationAt chainID binding ttl clock "c" 3) := h.leg rfl
  exact hleg.travel_eq_verify verifier hne (congrArg Chain.hops hfirst) [] hfits

end

section

variable {e : HopErr} (hne : ∀ node message, sign node message ≠ [])
include hne

lemma refused_first (h : HonestRun (pathOf chainID) (stationsOf chainID binding ttl clock) ∧
      Encodes (firstChain sign chainID binding ttl clock) ∧
      firstVerdict sign verifier chainID binding ttl clock = .error e) :
    HonestRun (pathOf chainID) (stationsOf chainID binding ttl clock) ∧
      travel sign verifier ⟨[], []⟩ (stationsOf chainID binding ttl clock) = .error e := by
  obtain ⟨hrun, hfits, hverdict⟩ := h
  exact ⟨hrun, by rw [travel_first hrun hne hfits, hverdict, error_bind]⟩

lemma refused_second (h : HonestRun (pathOf chainID) (stationsOf chainID binding ttl clock) ∧
      Encodes (firstChain sign chainID binding ttl clock) ∧
      firstVerdict sign verifier chainID binding ttl clock = .ok () ∧
      (firstChain sign chainID binding ttl clock).scrub =
        firstChain sign chainID binding ttl clock ∧
      Encodes (secondChain sign chainID binding ttl clock) ∧
      secondVerdict sign verifier chainID binding ttl clock = .error e) :
    HonestRun (pathOf chainID) (stationsOf chainID binding ttl clock) ∧
      travel sign verifier ⟨[], []⟩ (stationsOf chainID binding ttl clock) = .error e := by
  obtain ⟨hrun, hfits, hverdict, hscrub, hfits', hverdict'⟩ := h
  refine ⟨hrun, ?_⟩
  rw [travel_first hrun hne hfits, hverdict, ok_bind, travel_second hrun hne hscrub hfits',
    hverdict', error_bind]

end

end

/-- Hops of a minute, appended at a whole second, are accepted. -/
theorem honest_chains_accepted_minute :
    ∃ arrived, travel plainSign plainVerifier ⟨[], []⟩
      (stationsOf "chain" "session" (60 * second) early) = .ok arrived := by
  have hrun : HonestRun (pathOf "chain")
      (stationsOf "chain" "session" (60 * second) early) := by decide +kernel
  have hpasses : (stationsOf "chain" "session" (60 * second) early).Pairwise
      Passes := by
    unfold Passes
    decide +kernel
  refine (honest_chains_accepted hrun plain_signs (by decide) [] ?_).mpr
    ⟨by decide +kernel, by decide +kernel, hpasses⟩
  obtain ⟨hfirst, hverdict, hscrub, hsecond, hverdict'⟩ :
      Encodes (firstChain plainSign "chain" "session" (60 * second) early) ∧
      firstVerdict plainSign plainVerifier "chain" "session" (60 * second) early =
        .ok () ∧
      (firstChain plainSign "chain" "session" (60 * second) early).scrub =
        firstChain plainSign "chain" "session" (60 * second) early ∧
      Encodes (secondChain plainSign "chain" "session" (60 * second) early) ∧
      secondVerdict plainSign plainVerifier "chain" "session" (60 * second) early =
        .ok () := by
    decide +kernel
  rw [travel_first hrun plain_signs.nonempty hfirst, hverdict, ok_bind,
    travel_second hrun plain_signs.nonempty hscrub hsecond, hverdict', ok_bind]
  rintro ⟨⟩

/-- Three honest runs that are refused: hops of a second and a half, appended at half a second,
where that is the limit; a chain identifier, and a session binding, that is a stray byte. -/
theorem honest_runs_refused : (HonestRun (pathOf "chain")
        (stationsOf "chain" "session" 1500000000 (early + 500000000)) ∧
      travel nodeChecksum nodeVerifier ⟨[], []⟩
        (stationsOf "chain" "session" 1500000000 (early + 500000000)) =
        .error (.invalidValidity 0)) ∧
    (HonestRun (pathOf [.raw 0xff]) (stationsOf [.raw 0xff] "session" (60 * second) early) ∧
      travel nodeChecksum nodeVerifier ⟨[], []⟩
        (stationsOf [.raw 0xff] "session" (60 * second) early) = .error (.wrongHop 0)) ∧
    HonestRun (pathOf "chain")
        (stationsOf "chain" [.raw 0xff] (60 * second) early) ∧
      travel nodeChecksum nodeVerifier ⟨[], []⟩
        (stationsOf "chain" [.raw 0xff] (60 * second) early) = .error (.signature 1) := by
  refine ⟨refused_first nodeChecksum_ne_nil ?_, refused_first nodeChecksum_ne_nil ?_,
    refused_second nodeChecksum_ne_nil ?_⟩ <;> decide +kernel

end WeaverSSH.HopProof
