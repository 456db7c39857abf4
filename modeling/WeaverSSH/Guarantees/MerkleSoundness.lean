import WeaverSSH.Evidence.Wire
import WeaverSSH.Framework.Sha256

/-!
# What a proof of membership says

A proof that `verifyMerkleProof` accepts against the root of a list does not tell how long the list
is: the verifier follows the claimed number of leaves only until it is one (`counts_not_bound`). And
JSON writes all stray bytes of a leaf alike. The digest is assumed to tell apart the messages hashed
for the tree and the proof.
-/

namespace WeaverSSH.Evidence

open MerkleTree List Leaf SHA256

section

variable [Unicode] [SHA256]

def treeMessages (leaves : List Leaf) : List (List UInt8) :=
  let first := leaves.map digest
  leaves.map message ++ (levels hashNode first.length first).dropLast.flatMap fun level =>
    (pairs level).map fun p => nodeMessage p.1 p.2

def MerkleProof.digests (proof : MerkleProof) : List (List UInt8) :=
  proof.siblings.map fun step => unhex step.sha256

def proofMessages (leaf : Leaf) (proof : MerkleProof) : List (List UInt8) :=
  leaf.message :: (climbed hashNode leaf.digest proof.index.toNat proof.digests).map fun p =>
    nodeMessage p.1 p.2

/-! ## The tree that is built -/

variable {leaves : List Leaf} {p : List UInt8 × List UInt8}

lemma hashLeaves_ok {seen : List Text} {hashes : List (List UInt8)}
    (h : hashLeaves seen leaves = .ok hashes) : hashes = leaves.map digest := by
  induction leaves generalizing seen hashes with
  | nil => exact (Except.ok.inj h).symm
  | cons leaf rest ih =>
    simp only [hashLeaves, checks_ok] at h
    obtain ⟨-, hash, hhash, others, hothers, rfl⟩ := h
    rw [ih hothers, ← (hashLeaf_eq_ok.mp hhash).2, map_cons]

variable {root : Text}

lemma buildMerkleRoot_ok (h : buildMerkleRoot leaves = .ok root) :
    ∃ depth top, (above hashNode)^[depth] (leaves.map digest) = [top] ∧ root = toHex top ∧
      levels hashNode leaves.length (leaves.map digest) =
        (range (depth + 1)).map fun i => (above hashNode)^[i] (leaves.map digest) := by
  simp only [buildMerkleRoot, merkleLevels, checks_ok] at h
  obtain ⟨_, ⟨hne, hashes, hhashes, rfl⟩, rfl⟩ := h
  rw [hashLeaves_ok hhashes, length_map]
  have hne' : leaves.map digest ≠ [] := by simpa using hne
  obtain ⟨depth, top, htop, hlevels⟩ := @exists_depth _ hashNode leaves.length _ hne'
    (by rw [length_map]; omega)
  refine ⟨depth, top, htop, ?_, hlevels⟩
  rw [hlevels, range_succ, map_append, map_singleton, getLast?_concat, Option.getD_some, htop]
  rfl

/-! ## The path that is verified -/

omit [Unicode] [SHA256] in
lemma expectedLeft_eq (position : ℕ) (width : ℤ) :
    (if (position : ℤ) = width - 1 ∧ width.tmod 2 = 1 then false else decide (position % 2 = 1)) =
      decide (position % 2 = 1) := by
  by_cases hlast : (position : ℤ) = width - 1 ∧ width.tmod 2 = 1
  · rw [if_pos hlast, eq_comm, decide_eq_false_iff_not]
    have hwidth := Int.mul_tdiv_add_tmod width 2
    omega
  · rw [if_neg hlast]

omit [Unicode] in
lemma climbProof_ok {current current' : List UInt8} {position position' : ℕ} {width width' : ℤ}
    {steps : List ProofStep}
    (h : climbProof current position width steps = .ok (current', position', width')) :
    current' = climb hashNode current position (steps.map fun step => unhex step.sha256) ∧
      position' = position / 2 ^ steps.length ∧
      ∀ step ∈ steps, (unhex step.sha256).length = 32 := by
  induction steps generalizing current position width with
  | nil =>
    obtain ⟨rfl, rfl, rfl⟩ : current = current' ∧ position = position' ∧ width = width' := by
      simpa [climbProof] using h
    exact ⟨rfl, by simp, by simp⟩
  | cons step rest ih =>
    simp only [climbProof, checks_ok, elim_eq_ok, hexDecode_eq_some, expectedLeft_eq] at h
    obtain ⟨_, ⟨-, rfl⟩, hlen, hleft, hrest⟩ := h
    obtain ⟨hcurrent, hposition, hsteps⟩ := ih hrest
    refine ⟨?_, ?_, forall_mem_cons.mpr ⟨hlen, hsteps⟩⟩
    · rw [hcurrent, map_cons, climb, hleft]
      unfold beside
      by_cases hodd : position % 2 = 1 <;> simp [hodd]
    · rw [hposition, Nat.div_div_eq_div_mul, length_cons, pow_succ']

omit [Unicode] in
/-- The width comes to 1 from what is no more than the number of places that the steps tell
apart. -/
lemma climbProof_width {current top : List UInt8} {position last : ℕ} {width : ℤ}
    {steps : List ProofStep}
    (h : climbProof current position width steps = .ok (top, last, 1)) (hint : IsInt64 width) :
    0 < width ∧ width ≤ 2 ^ steps.length := by
  induction steps generalizing current position width with
  | nil =>
    obtain ⟨-, -, rfl⟩ : current = top ∧ position = last ∧ width = 1 := by
      simpa [climbProof] using h
    decide
  | cons step rest ih =>
    simp only [climbProof, checks_ok] at h
    obtain ⟨_, -, -, -, hrest⟩ := h
    obtain ⟨hlo, hhi⟩ := isInt64_int64 (width + 1)
    have hhalf := Int.mul_tdiv_add_tmod (int64 (width + 1)) 2
    have hbelow := Int.tmod_lt_of_pos (int64 (width + 1)) two_pos
    have habove := Int.lt_tmod_of_pos (int64 (width + 1)) two_pos
    obtain ⟨hpos, hle⟩ := ih hrest ⟨by omega, by omega⟩
    have hsame : int64 (width + 1) = width + 1 := by
      by_contra hwrapped
      have hlast : width + 1 = 2 ^ 63 := by
        by_contra hne
        exact hwrapped (int64_of_bounds (by have := hint.1; omega) (by have := hint.2; omega))
      rw [hlast] at hpos
      exact absurd hpos (by decide)
    have hsign := Int.tmod_nonneg 2 (show 0 ≤ int64 (width + 1) by omega)
    rw [hsame] at hhalf hbelow hsign hpos hle
    rw [length_cons, pow_succ]
    omega

variable {leaf : Leaf} {proof : MerkleProof}

lemma verifyMerkleProof_ok (h : verifyMerkleProof leaf root proof = .ok ()) :
    0 ≤ proof.index ∧ proof.index < proof.leafCount ∧
      (IsInt64 proof.leafCount → proof.leafCount ≤ 2 ^ proof.siblings.length) ∧
      proof.index.toNat / 2 ^ proof.digests.length = 0 ∧ (∀ d ∈ proof.digests, d.length = 32) ∧
      hexEqualFold root
        (toHex (climb hashNode leaf.digest proof.index.toNat proof.digests)) = true := by
  simp only [verifyMerkleProof, checks_ok] at h
  obtain ⟨⟨⟨⟨-, hindex⟩, hbelow⟩, -⟩, hash, hhash, ⟨current, position, width⟩, hclimb,
    ⟨hposition, rfl⟩, hfold⟩ := h
  have hwidth (hint : IsInt64 proof.leafCount) := (climbProof_width hclimb hint).2
  obtain ⟨rfl, rfl, hlengths⟩ := climbProof_ok hclimb
  rw [← (hashLeaf_eq_ok.mp hhash).2] at hfold
  refine ⟨hindex, hbelow, hwidth, ?_, ?_, hfold⟩
  · rwa [MerkleProof.digests, length_map]
  · intro d hd
    obtain ⟨step, hstep, rfl⟩ := mem_map.mp hd
    exact hlengths step hstep

/-! ## What the digests tell apart -/

/-- The pairs of digests whose node has its message among some. -/
def nodePairs (messages : Set (List UInt8)) : Set (List UInt8 × List UInt8) :=
  {p | nodeMessage p.1 p.2 ∈ messages ∧ p.1.length = 32}

variable {messages : Set (List UInt8)}

omit [Unicode] in
lemma injOn_hashNode (hfree : CollisionFree messages) :
    Set.InjOn (fun p : List UInt8 × List UInt8 => hashNode p.1 p.2) (nodePairs messages) := by
  rintro p ⟨hp, hplen⟩ q ⟨hq, hqlen⟩ heq
  have hmessage := hfree hp hq (hex_eq_of_sum_eq heq)
  unfold nodeMessage at hmessage
  rw [cons.injEq, append_cancel_left_eq] at hmessage
  obtain ⟨hleft, hright⟩ := append_inj hmessage.2 (hplen.trans hqlen.symm)
  exact Prod.ext hleft hright

omit [Unicode] in
lemma digest_ne_hashNode (hfree : CollisionFree messages) (hleaf : leaf.message ∈ messages)
    (hp : nodeMessage p.1 p.2 ∈ messages) : leaf.digest ≠ hashNode p.1 p.2 := by
  intro heq
  have hmessage := hfree hleaf hp (hex_eq_of_sum_eq heq)
  cases (cons.inj hmessage).1

def Leaf.strays (l : Leaf) : List (List (ℕ × UInt8)) :=
  [WeaverSSH.strays l.id, WeaverSSH.strays l.subject, WeaverSSH.strays l.kind,
    WeaverSSH.strays l.payloadSHA256]

omit [Unicode] [SHA256] in
lemma Leaf.eq_of_message_eq {l l' : Leaf} (hmessage : l.message = l'.message)
    (hstrays : l.strays = l'.strays) : l = l' := by
  unfold message at hmessage
  rw [List.cons.injEq, append_cancel_left_eq] at hmessage
  have hscrub := Json.scrub_eq_of_marshal_eq (l.fits _) (l'.fits _) hmessage.2
  simp only [json, Json.scrub, Json.scrubMembers, Json.scrub_int, scrub_text, Json.obj.injEq,
    List.cons.injEq, Prod.mk.injEq, Json.str.injEq, Json.int_inj, true_and, and_true] at hscrub
  simp only [strays, List.cons.injEq, and_true] at hstrays
  obtain ⟨hid, hsubject, hkind, hpayload, hobserved⟩ := hscrub
  cases l
  cases l'
  simp only [mk.injEq]
  exact ⟨eq_of_scrub_eq hid hstrays.1, eq_of_scrub_eq hsubject hstrays.2.1,
    eq_of_scrub_eq hkind hstrays.2.2.1, eq_of_scrub_eq hpayload hstrays.2.2.2, hobserved⟩

/-! ## Soundness -/

variable {level : List (List UInt8)}

omit [Unicode] in
lemma length_of_mem_above (h : ∀ d ∈ level, d.length = 32) (i : ℕ) :
    ∀ d ∈ (above hashNode)^[i] level, d.length = 32 := by
  induction i generalizing level with
  | zero => exact h
  | succ i ih =>
    refine ih fun d hd => ?_
    obtain ⟨p, -, rfl⟩ := mem_map.mp hd
    exact length_sum _

omit [Unicode] [SHA256] in
lemma fst_mem_of_mem_pairs (h : p ∈ pairs level) : p.1 ∈ level := by
  induction level using pairs.induct with
  | case1 => cases h
  | case2 a => rw [mem_singleton.mp h]; exact mem_cons_self
  | case3 a b rest ih =>
    rcases mem_cons.mp h with rfl | h
    · exact mem_cons_self
    · exact mem_cons_of_mem _ (mem_cons_of_mem _ (ih h))

omit [Unicode] in
lemma length_fst_of_mem_climbed {current : List UInt8} {position : ℕ} {siblings : List (List UInt8)}
    (hcurrent : current.length = 32) (hsiblings : ∀ d ∈ siblings, d.length = 32)
    (hp : p ∈ climbed hashNode current position siblings) : p.1.length = 32 := by
  induction siblings generalizing current position with
  | nil => cases hp
  | cons sibling rest ih =>
    rw [forall_mem_cons] at hsiblings
    rcases mem_cons.mp hp with rfl | hp
    · unfold beside
      split_ifs
      · exact hsiblings.1
      · exact hcurrent
    · exact ih (length_sum _) hsiblings.2 hp

/-- A leaf with an accepted proof has the message of a leaf of the list: of the one at the proof's
index, unless the list is shorter. -/
lemma message_of_verified
    (hfree : CollisionFree {m | m ∈ treeMessages leaves ∨ m ∈ proofMessages leaf proof})
    (hbuilt : buildMerkleRoot leaves = .ok root)
    (hverified : verifyMerkleProof leaf root proof = .ok ()) :
    ∃ p listed, leaves[p]? = some listed ∧ listed.message = leaf.message ∧
      (p = proof.index.toNat ∨ leaves.length ≤ proof.index.toNat) := by
  obtain ⟨depth, top, htop, rfl, hlevels⟩ := buildMerkleRoot_ok hbuilt
  obtain ⟨-, -, -, hposition, hdigests, hfold⟩ := verifyMerkleProof_ok hverified
  set first := leaves.map digest with hfirst
  set messages := {m | m ∈ treeMessages leaves ∨ m ∈ proofMessages leaf proof} with hmessages
  have hlength : ∀ d ∈ first, d.length = 32 := by
    intro d hd
    obtain ⟨l, -, rfl⟩ := mem_map.mp hd
    exact length_sum _
  have hclimb : climb hashNode leaf.digest proof.index.toNat proof.digests = top := by
    have hhex := eq_of_hexEqualFold (lowerHex_toHex _) (lowerHex_toHex _) hfold
    exact (toHex_injective hhex).symm
  have hleaf : leaf.message ∈ messages := .inr mem_cons_self
  have hlisted : ∀ l ∈ leaves, l.message ∈ messages := fun l hl =>
    .inl (mem_append_left _ (mem_map_of_mem hl))
  -- The pairs of the levels below the last one, and those of the path, are hashed.
  have htree : ∀ i < depth, ∀ p ∈ pairs ((above hashNode)^[i] first),
      p ∈ nodePairs messages := by
    intro i hi p hp
    refine ⟨.inl (mem_append_right _ (mem_flatMap.mpr ⟨_, ?_, mem_map_of_mem hp⟩)), ?_⟩
    · rw [← hfirst, show first.length = leaves.length from length_map _, hlevels,
        range_succ, map_append, map_singleton, dropLast_concat]
      exact mem_map_of_mem (mem_range.mpr hi)
    · exact length_of_mem_above hlength i _ (fst_mem_of_mem_pairs hp)
  have hpath : ∀ p ∈ climbed hashNode leaf.digest proof.index.toNat proof.digests,
      p ∈ nodePairs messages := by
    intro p hp
    refine ⟨.inr (mem_cons_of_mem _ (mem_map_of_mem hp)), ?_⟩
    exact length_fst_of_mem_climbed (length_sum _) hdigests hp
  have hbottom : ∀ d ∈ first, ∀ p ∈ nodePairs messages, d ≠ hashNode p.1 p.2 := by
    intro d hd p hp
    obtain ⟨l, hl, rfl⟩ := mem_map.mp hd
    exact digest_ne_hashNode hfree (hlisted l hl) hp.1
  obtain ⟨-, p, hp, hbeyond⟩ := climb_bottom (injOn_hashNode hfree) htree hpath hbottom
    (fun p hp => digest_ne_hashNode hfree hleaf hp.1) htop hclimb hposition
  rw [hfirst, getElem?_map] at hp
  obtain ⟨listed, hget, hdigest⟩ := Option.map_eq_some_iff.mp hp
  refine ⟨p, listed, hget, ?_, ?_⟩
  · exact hfree (hlisted listed (mem_of_getElem? hget)) hleaf (hex_eq_of_sum_eq hdigest)
  · rwa [hfirst, length_map] at hbeyond

/-- **A proof of membership**: a leaf whose proof is accepted against the root of a list has the
message of a leaf of that list, and it is the leaf at the proof's index, in a list of the proof's
length, exactly where the proof has the length of the list and the leaf the stray bytes of the leaf
that stands there. The lengths that are accepted are those above the index, up to the number of
places that the proof's steps tell apart. -/
theorem merkle_proof_sound {leaves : List Leaf} {root : Text} {leaf : Leaf} {proof : MerkleProof}
    (hfree : CollisionFree {m | m ∈ treeMessages leaves ∨ m ∈ proofMessages leaf proof})
    (hbuilt : buildMerkleRoot leaves = .ok root)
    (hverified : verifyMerkleProof leaf root proof = .ok ()) :
    (∃ listed ∈ leaves, listed.message = leaf.message) ∧
    ((proof.leafCount = leaves.length ∧ proof.index < leaves.length ∧
        leaves[proof.index.toNat]? = some leaf) ↔ proof.leafCount = leaves.length ∧
        ∀ listed ∈ leaves[proof.index.toNat]?, leaf.strays = listed.strays) ∧
    0 ≤ proof.index ∧ proof.index < proof.leafCount ∧
      (IsInt64 proof.leafCount → proof.leafCount ≤ 2 ^ proof.siblings.length) := by
  obtain ⟨p, listed, hget, hmessage, hbeyond⟩ := message_of_verified hfree hbuilt hverified
  obtain ⟨hindex, hbelow, hwidth, -⟩ := verifyMerkleProof_ok hverified
  refine ⟨⟨listed, mem_of_getElem? hget, hmessage⟩, ⟨?_, ?_⟩, hindex, hbelow, hwidth⟩
  · rintro ⟨hcount, -, hleaf⟩
    refine ⟨hcount, fun other hother => ?_⟩
    rw [hleaf] at hother
    rw [Option.some.inj hother]
  · rintro ⟨hcount, hstrays⟩
    rw [hcount] at hbelow
    obtain rfl : p = proof.index.toNat := by
      rcases hbeyond with heq | hlong
      · exact heq
      · omega
    refine ⟨hcount, hbelow, ?_⟩
    rw [hget, eq_of_message_eq hmessage (hstrays listed hget).symm]

/-! ## Completeness -/

omit [Unicode] in
lemma hexDecodes_hex (m : List UInt8) : hexDecodes (hex m) = true := by
  simp only [hexDecodes, Bool.and_eq_true, all_eq_true, beq_iff_eq, length_hex, and_true]
  exact fun r hr => Rune.isHex_of_isLowerHex (lowerHex_hex m r hr)

omit [Unicode] in
lemma climbProof_proofSteps {depth position : ℕ} {current top : List UInt8}
    (hint : level.length + 1 < 2 ^ 63) (hsum : ∀ d ∈ level, ∃ m, sum m = d)
    (htop : (above hashNode)^[depth] level = [top]) (hget : level[position]? = some current) :
    climbProof current position level.length
        (proofSteps position ((range (depth + 1)).map fun i => (above hashNode)^[i] level)) =
      .ok (top, 0, 1) ∧ ∃ m, sum m = top := by
  induction depth generalizing level position current with
  | zero =>
    obtain rfl : level = [top] := htop
    obtain ⟨rfl, rfl⟩ : position = 0 ∧ top = current := by cases position <;> simp_all
    exact ⟨rfl, hsum top mem_cons_self⟩
  | succ depth ih =>
    obtain ⟨_, hsibling, hleft, hnext⟩ := @getElem?_above _ hashNode _ _ _ _ hget rfl
    obtain ⟨m, rfl⟩ := hsum _ (mem_of_getElem? hsibling)
    have hsum' : ∀ d ∈ above hashNode level, ∃ m, sum m = d := by
      intro d hd
      obtain ⟨p, -, rfl⟩ := mem_map.mp hd
      exact ⟨_, rfl⟩
    have hlen := @length_above _ hashNode level
    obtain ⟨hclimb, htop⟩ := ih (by omega) hsum' htop hnext
    rw [range_succ_eq_map, map_cons] at hclimb ⊢
    rw [map_map, range_succ_eq_map, map_cons, Function.iterate_zero_apply, proofSteps]
    simp only [climbProof, checks_ok, elim_eq_ok, expectedLeft_eq]
    refine ⟨⟨sum m, ?_, length_sum m, decide_eq_decide.mpr hleft, ?_⟩, htop⟩
    · rw [getD_eq_getElem?_getD, hsibling, Option.getD_some, toHex_sum, hexDecode_eq_some]
      exact ⟨hexDecodes_hex m, rfl⟩
    · rw [int64_of_bounds (by omega) (by omega), Int.tdiv_eq_ediv_of_nonneg (by omega),
        show ((level.length : ℤ) + 1) / 2 = (above hashNode level).length by omega,
        if_congr hleft rfl rfl]
      exact hclimb

lemma hashLeaves_of_valid {seen : List Text} (hvalid : ∀ l ∈ leaves, l.validate = .ok ())
    (hids : (leaves.map Leaf.id).Nodup) (hseen : ∀ l ∈ leaves, l.id ∉ seen) :
    hashLeaves seen leaves = .ok (leaves.map digest) := by
  induction leaves generalizing seen with
  | nil => rfl
  | cons l rest ih =>
    rw [forall_mem_cons] at hvalid hseen
    obtain ⟨hnew, hids⟩ := nodup_cons.mp hids
    simp only [hashLeaves, checks_ok]
    refine ⟨hseen.1, _, hashLeaf_eq_ok.mpr ⟨hvalid.1, rfl⟩, _, ih hvalid.2 hids ?_, rfl⟩
    intro l' hl' hmem
    rcases mem_cons.mp hmem with heq | hmem
    · exact hnew (heq ▸ mem_map_of_mem hl')
    · exact hseen.2 l' hl' hmem

/-- **Every leaf has a proof**: of valid leaves with distinct identifiers, as many as a slice may
have, the root is built, and so is a proof for each of them that is accepted against it. -/
theorem merkle_proof_complete {leaves : List Leaf} {index : ℕ} {leaf : Leaf}
    (hint : leaves.length + 1 < 2 ^ 63) (hvalid : ∀ l ∈ leaves, l.validate = .ok ())
    (hids : (leaves.map Leaf.id).Nodup) (hleaf : leaves[index]? = some leaf) :
    ∃ root proof, buildMerkleRoot leaves = .ok root ∧ buildMerkleProof leaves index = .ok proof ∧
      verifyMerkleProof leaf root proof = .ok () := by
  have hmem := mem_of_getElem? hleaf
  have hindex := (List.getElem?_eq_some_iff.mp hleaf).1
  have hbuilt : merkleLevels leaves = .ok (levels hashNode leaves.length (leaves.map digest)) := by
    simp [merkleLevels, hashLeaves_of_valid hvalid hids, ne_nil_of_mem hmem]
  obtain ⟨root, hroot⟩ : ∃ root, buildMerkleRoot leaves = .ok root :=
    ⟨_, by rw [buildMerkleRoot, hbuilt]; rfl⟩
  obtain ⟨depth, top, htop, rfl, hlevels⟩ := buildMerkleRoot_ok hroot
  obtain ⟨hclimb, m, rfl⟩ := climbProof_proofSteps (by rwa [length_map])
    (by simp [digest]) htop (show _ = some leaf.digest by rw [getElem?_map, hleaf]; rfl)
  rw [← hlevels, length_map] at hclimb
  generalize levels hashNode leaves.length (leaves.map digest) = built at hbuilt hclimb
  refine ⟨_, ⟨index, leaves.length, proofSteps index built⟩, hroot, ?_, ?_⟩
  · rw [buildMerkleProof, require_of_true (by simpa using hindex), hbuilt]
    rfl
  · have hhex := lowerHex_hex m
    have hsha : isSHA256 (toHex (sum m)) = true := by
      simp [isSHA256, toHex_sum, hexDecodes_hex, len_of_lowerHex hhex, length_hex,
        toLower_of_lowerHex hhex]
    simp only [verifyMerkleProof, checks_ok, hashLeaf_eq_ok]
    refine ⟨?_, _, ⟨hvalid leaf hmem, rfl⟩, _, hclimb, ?_⟩
    · simp [hsha, hindex, length_pos_of_mem hmem]
    · simp [hexEqualFold_refl]

end

/-! ## Lists of two and of three leaves -/

section Sample

attribute [local instance] asciiCase sha256

def leafOf (id : Text) : Leaf :=
  ⟨id, "host", "event", replicate 64 (.char '0'), 1⟩

/-- A proof for a leaf of a pair, with a number of leaves. -/
def pairProof (leafCount : ℤ) : MerkleProof :=
  ⟨0, leafCount, [⟨toHex (leafOf "b").digest, false⟩]⟩

/-- The first of two leaves has a proof. -/
theorem merkle_proof_sound_pair :
    ∃ root, buildMerkleRoot [leafOf "a", leafOf "b"] = .ok root ∧
      verifyMerkleProof (leafOf "a") root (pairProof 2) = .ok () ∧
      [leafOf "a", leafOf "b"][(pairProof 2).index.toNat]? =
        some (leafOf "a") := by
  have hnodup : ((treeMessages [leafOf "a", leafOf "b"] ++
      proofMessages (leafOf "a") (pairProof 2)).dedup.map SHA256.hex).Nodup := by
    decide +kernel
  have hfree : CollisionFree {m | m ∈ treeMessages [leafOf "a", leafOf "b"] ∨
      m ∈ proofMessages (leafOf "a") (pairProof 2)} := by
    intro m hm m' hm'
    rw [Set.mem_ofPred_eq, ← mem_append, ← mem_dedup] at hm hm'
    exact inj_on_of_nodup_map hnodup hm hm'
  have haccepted : ∃ root, buildMerkleRoot [leafOf "a", leafOf "b"] = .ok root ∧
      verifyMerkleProof (leafOf "a") root (pairProof 2) = .ok () :=
    ⟨_, rfl, by decide +kernel⟩
  obtain ⟨root, hbuilt, hverified⟩ := haccepted
  refine ⟨root, hbuilt, hverified, ?_⟩
  exact ((merkle_proof_sound hfree hbuilt hverified).2.1.mpr ⟨rfl, by decide⟩).2.2

/-- The second of two leaves has one. -/
theorem merkle_proof_complete_pair :
    ∃ root proof, buildMerkleRoot [leafOf "a", leafOf "b"] = .ok root ∧
      buildMerkleProof [leafOf "a", leafOf "b"] (1 : ℕ) = .ok proof ∧
      verifyMerkleProof (leafOf "b") root proof = .ok () :=
  merkle_proof_complete (by decide) (by decide) (by decide) rfl

/-- **The number of leaves is not bound**: a leaf of a pair has a proof for a list of one, and the
last of three leaves one for the fourth place of a list of four. And a leaf whose identifier is the
byte `fe` has the proof of the leaf whose identifier is the byte `ff`. -/
theorem counts_not_bound :
    (∃ root, buildMerkleRoot [leafOf "a", leafOf "b"] = .ok root ∧
      verifyMerkleProof (leafOf "a") root (pairProof 1) = .ok ()) ∧
    (let ab := hashNode (leafOf "a").digest (leafOf "b").digest
      let steps : List ProofStep := [⟨toHex (leafOf "c").digest, true⟩, ⟨toHex ab, true⟩]
      ∃ root, buildMerkleRoot [leafOf "a", leafOf "b", leafOf "c"] = .ok root ∧
        verifyMerkleProof (leafOf "c") root ⟨3, 4, steps⟩ = .ok ()) ∧
    ∃ root, buildMerkleRoot [leafOf [.raw 0xff]] = .ok root ∧
      verifyMerkleProof (leafOf [.raw 0xfe]) root ⟨0, 1, []⟩ = .ok () ∧
      leafOf [.raw 0xfe] ≠ leafOf [.raw 0xff] := by
  refine ⟨⟨_, rfl, by decide +kernel⟩, ⟨_, rfl, by decide +kernel⟩, _, rfl, by decide +kernel,
    by decide⟩

end Sample

end WeaverSSH.Evidence
