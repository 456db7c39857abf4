import WeaverSSH.SessionLink.Fencing

/-!
# What an identifier of a link names

`deriveID` hashes the chain and the two nodes in the order of the topology, each followed by a zero
byte. No text that is hashed has one of its own, so an identifier names the chain with the two ends
of the link (`link_ids_name_links`).
-/

namespace WeaverSSH.SessionLink

open List

/-! ## Texts without a zero byte -/

lemma zero_notMem_utf8EncodeChar {c : Char} (h : c ≠ '\x00') : 0 ∉ String.utf8EncodeChar c := by
  have hpos : c.val.toNat ≠ 0 := fun hzero => h (Char.toNat_inj.mp hzero)
  have hne {n : ℕ} : (0 : UInt8) = UInt8.ofNat n ↔ n % 256 = 0 := by
    rw [eq_comm, ← UInt8.toNat_inj]
    simp
  unfold String.utf8EncodeChar
  dsimp only
  split_ifs <;> simp only [mem_cons, not_mem_nil, or_false, hne] <;> omega

lemma zero_notMem_bytes {t : Text} (h : .char '\x00' ∉ t) (hraw : .raw 0 ∉ t) : 0 ∉ bytes t := by
  intro hmem
  obtain ⟨r, hr, hzero⟩ := mem_flatMap.mp hmem
  cases r with
  | raw b =>
    obtain rfl : 0 = b := mem_singleton.mp hzero
    exact hraw hr
  | char c =>
    by_cases hc : c = '\x00'
    · exact h (hc ▸ hr)
    · exact zero_notMem_utf8EncodeChar hc hzero

lemma splitOn_terminated {a : List (List UInt8)} (h : ∀ x ∈ a, 0 ∉ x) :
    (a.flatMap (· ++ [0])).splitOn 0 = a ++ [[]] := by
  induction a with
  | nil => rfl
  | cons x a ih =>
    have hx : ∀ c ∈ x, (c == 0) = false := fun c hc => by
      simpa using ne_of_mem_of_not_mem hc (h x mem_cons_self)
    rw [List.splitOn] at ih ⊢
    rw [flatMap_cons, append_assoc, singleton_append, splitOnP_append_cons _ _ rfl,
      splitOnP_eq_singleton hx, ih fun y hy => h y (mem_cons_of_mem _ hy)]
    rfl

/-! ## The message of an identifier -/

/-- A zero byte in a node is a character, as in every text that bytes are read as. -/
def Descriptor.IsRead (d : Descriptor) : Prop := .raw 0 ∉ d.localNode ++ d.peerNode

section

variable [Unicode]

/-- The two nodes, trimmed, with the one that is earlier in the topology first. -/
def Descriptor.ends (d : Descriptor) : Text × Text :=
  let nodes := d.topology.map trimSpace
  let localNode := trimSpace d.localNode
  let peerNode := trimSpace d.peerNode
  if nodes.idxOf localNode < nodes.idxOf peerNode then (localNode, peerNode)
    else (peerNode, localNode)

/-- The chain, trimmed and in lower case, with the two nodes. -/
def Descriptor.named (d : Descriptor) : List Text :=
  [toLower (trimSpace d.chainSHA256), d.ends.1, d.ends.2]

def Descriptor.message (d : Descriptor) : List UInt8 :=
  (idVersion :: d.named).flatMap fun value => bytes value ++ [0]

omit [Unicode] in
lemma normalizeTopology_eq {topology : List Text} : ∀ {seen nodes : List Text},
    normalizeTopology seen topology = some nodes → nodes = topology.map trimSpace := by
  induction topology with
  | nil => exact fun h => (Option.some.inj h).symm
  | cons raw rest ih =>
    intro seen nodes h
    simp only [normalizeTopology] at h
    split_ifs at h
    obtain ⟨tail, htail, rfl⟩ := Option.map_eq_some_iff.mp h
    rw [ih htail, map_cons]

lemma normalizeDescriptor_eq_ok {d out : Descriptor} {lower upper : Text}
    (h : normalizeDescriptor d = .ok (out, lower, upper)) :
    out.chainSHA256 = toLower (trimSpace d.chainSHA256) ∧ (lower, upper) = d.ends ∧
      hexDecodes (toLower (trimSpace d.chainSHA256)) = true ∧
      validNode (trimSpace d.localNode) = true ∧ validNode (trimSpace d.peerNode) = true := by
  unfold normalizeDescriptor at h
  dsimp only at h
  split_ifs at h with hchain hnodes hlength
  simp only [Bool.or_eq_true, Bool.not_eq_true', decide_eq_true_eq, not_or, Bool.not_eq_false]
    at hchain hnodes
  split at h
  · cases h
  · rename_i nodes htopology
    obtain rfl := normalizeTopology_eq htopology
    split at h
    · rename_i i j hi hj
      have hlocal := idxOf_eq_getD_idxOf? (trimSpace d.localNode) (d.topology.map trimSpace)
      have hpeer := idxOf_eq_getD_idxOf? (trimSpace d.peerNode) (d.topology.map trimSpace)
      rw [hi, Option.getD_some] at hlocal
      rw [hj, Option.getD_some] at hpeer
      split_ifs at h with hup hdown
      · cases h
        refine ⟨rfl, ?_, hchain.2, hnodes.1⟩
        rw [Descriptor.ends, hlocal, hpeer, if_pos (by omega)]
      · cases h
        refine ⟨rfl, ?_, hchain.2, hnodes.1⟩
        rw [Descriptor.ends, hlocal, hpeer, if_neg (by omega)]
    · cases h

lemma zero_notMem_named {d out : Descriptor} {lower upper : Text} (hread : d.IsRead)
    (h : normalizeDescriptor d = .ok (out, lower, upper)) : ∀ x ∈ d.named.map bytes, 0 ∉ x := by
  obtain ⟨-, -, hchain, hlocal, hpeer⟩ := normalizeDescriptor_eq_ok h
  have hnode {t : Text} (ht : .raw 0 ∉ t) (hvalid : validNode (trimSpace t) = true) :
      0 ∉ bytes (trimSpace t) := by
    simp only [validNode, Bool.and_eq_true, all_eq_true] at hvalid
    refine zero_notMem_bytes (fun hmem => ?_) fun hmem => ?_
    · exact absurd (hvalid.2 _ hmem) (by decide)
    · exact ht ((trimSpace_sublist _).subset hmem)
  have hlocal := hnode (fun hmem => hread (mem_append_left _ hmem)) hlocal
  have hpeer := hnode (fun hmem => hread (mem_append_right _ hmem)) hpeer
  have hhex : 0 ∉ bytes (toLower (trimSpace d.chainSHA256)) := by
    simp only [hexDecodes, Bool.and_eq_true, all_eq_true] at hchain
    refine zero_notMem_bytes (fun hmem => ?_) fun hmem => ?_
    · exact absurd (hchain.1 _ hmem) (by decide)
    · exact absurd (hchain.1 _ hmem) (by decide)
  unfold Descriptor.named Descriptor.ends
  dsimp only
  split_ifs <;> simp [hhex, hlocal, hpeer]

variable [SHA256]

lemma deriveID_eq_ok {d : Descriptor} {id : ID} (hread : d.IsRead) (h : deriveID d = .ok id) :
    SHA256.hex d.message = id ∧ ∀ x ∈ d.named.map bytes, 0 ∉ x := by
  unfold deriveID at h
  split at h
  · cases h
  · rename_i hnorm
    obtain ⟨hchain, hends, -⟩ := normalizeDescriptor_eq_ok hnorm
    refine ⟨?_, zero_notMem_named hread hnorm⟩
    rw [Descriptor.message, Descriptor.named, ← hends, ← hchain]
    exact Except.ok.inj h

lemma deriveID_swap (d : Descriptor) :
    deriveID { d with localNode := d.peerNode, peerNode := d.localNode } = deriveID d := by
  unfold deriveID normalizeDescriptor
  dsimp only
  rw [Bool.or_comm (!validNode (trimSpace d.peerNode))]
  simp only [eq_comm (a := trimSpace d.peerNode)]
  split_ifs
  iterate 3 rfl
  cases normalizeTopology [] d.topology with
  | none => rfl
  | some nodes =>
    dsimp only
    generalize nodes.idxOf? (trimSpace d.peerNode) = peer
    generalize nodes.idxOf? (trimSpace d.localNode) = here
    cases peer with
    | none => cases here <;> rfl
    | some j =>
      cases here with
      | none => rfl
      | some i =>
        dsimp only
        split_ifs <;> first | rfl | omega

/-- **An identifier names a link.** Swapping the two nodes gives the same identifier, and where the
two messages do not collide, two identifiers are the same exactly if the chains are, trimmed and in
lower case, and the two nodes in the order of the topology. -/
theorem link_ids_name_links {a b : Descriptor} {i j : ID} (ha : a.IsRead) (hb : b.IsRead)
    (hi : deriveID a = .ok i) (hj : deriveID b = .ok j)
    (hfree : CollisionFree {a.message, b.message}) :
    deriveID { a with localNode := a.peerNode, peerNode := a.localNode } = .ok i ∧
      (i = j ↔ a.named.map bytes = b.named.map bytes) := by
  obtain ⟨rfl, hzero⟩ := deriveID_eq_ok ha hi
  obtain ⟨rfl, hzero'⟩ := deriveID_eq_ok hb hj
  have hmessage (d : Descriptor) :
      d.message = (bytes idVersion :: d.named.map bytes).flatMap (· ++ [0]) := by
    rw [← map_cons, flatMap_map]
    rfl
  refine ⟨(deriveID_swap a).trans hi, fun hsame => ?_, fun hsame => ?_⟩
  · have heq := hfree (by simp) (by simp) hsame
    rw [hmessage, hmessage, flatMap_cons, flatMap_cons] at heq
    have hsplit := congrArg (List.splitOn 0) (append_cancel_left heq)
    rw [splitOn_terminated hzero, splitOn_terminated hzero'] at hsplit
    exact append_cancel_right hsplit
  · rw [hmessage a, hmessage b, hsame]

end

attribute [local instance] asciiCase sha256

/-- A link between the same nodes in another chain. -/
def otherDescriptor : Descriptor := { smallDescriptor with chainSHA256 := replicate 64 (.char '1') }

/-- The other end of a link between two nodes derives the same identifier, and the link between them
in another chain has another one. -/
theorem link_ids_name_links_small :
    ∃ other, deriveID otherDescriptor = .ok other ∧
      deriveID { smallDescriptor with localNode := "b", peerNode := "a" } = .ok smallID ∧
      smallID ≠ other := by
  have hread : smallDescriptor.IsRead := by unfold Descriptor.IsRead; decide
  have hread' : otherDescriptor.IsRead := by unfold Descriptor.IsRead; decide
  have hother : ∃ other, deriveID otherDescriptor = .ok other := by
    have hnorm : normalizeDescriptor otherDescriptor = .ok (otherDescriptor, "a", "b") := by
      decide +kernel
    simp only [deriveID, hnorm]
    exact ⟨_, rfl⟩
  obtain ⟨other, hother⟩ := hother
  have hdiffer : SHA256.hex smallDescriptor.message ≠ SHA256.hex otherDescriptor.message := by
    decide +kernel
  have hfree : CollisionFree {smallDescriptor.message, otherDescriptor.message} := by
    simp [CollisionFree, Set.injOn_pair, hdiffer]
  have hlinks := link_ids_name_links hread hread' deriveID_small hother hfree
  exact ⟨other, hother, hlinks.1, fun hsame => absurd (hlinks.2.mp hsame) (by decide)⟩

end WeaverSSH.SessionLink
