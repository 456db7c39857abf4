import WeaverSSH.Connections.Groups

/-!
# Paths within a signed set

What a selector is resolved to is in the signed set (`resolveStep_ok`). A node that is written out
in a path is not looked up, and a set without a node in it is no set at all: these are the two ways
out of a set that was supplied (`path_within_signed_set`).
-/

namespace WeaverSSH.Connections

section

variable [CaseFolding] [Unicode]

lemma resolveStep_ok {run : List Text → ConnGroup → Option Text} {store : ConnStore}
    {selects resolvers : Text → Text} {signed : Option (List Text)} {node out : Text}
    (h : resolveStep run store selects resolvers signed node = .ok out) :
    selectorGroup node = none ∧ out = node ∨
      (selectorGroup node).isSome ∧ ∀ set, signed = some set → out ∈ set := by
  unfold resolveStep at h
  cases hgroup : selectorGroup node with
  | none =>
    rw [hgroup] at h
    cases h
    exact .inl ⟨rfl, rfl⟩
  | some group =>
    rw [hgroup] at h
    refine .inr ⟨rfl, ?_⟩
    rintro set rfl
    simp only [checks_ok, requireNone_eq_ok, elim_eq_ok] at h
    obtain ⟨g, -, -, -, chosen, -, -, hin, rfl⟩ := h
    exact hin

/-- **Paths within a signed set.** A path that is resolved with a supplied set lies within it
exactly where its written nodes do and the set is not empty. -/
theorem path_within_signed_set (run : List Text → ConnGroup → Option Text) (store : ConnStore)
    (chain : ConnChain) (selects resolvers : Text → Text) (read : Text → Option NodeContextFile)
    (list contextFile : Text) {supplied : List Text} {signed : Option (List Text)}
    {path : List Text} (hsupplied : suppliedNodes read list contextFile = .ok supplied)
    (hsigned : loadSignedNodeSet read list contextFile = .ok signed)
    (hpath : resolvePath run store chain selects resolvers signed = .ok path) :
    (∀ node ∈ path, node ∈ supplied) ↔
      (∀ node ∈ chain.nodes, selectorGroup node = none → node ∈ supplied) ∧
        (supplied ≠ [] ∨ chain.nodes = []) := by
  rw [loadSignedNodeSet, hsupplied, ok_bind, pure_eq_ok] at hsigned
  have hsteps := mapM_eq_ok.mp hpath
  constructor
  · intro hwithin
    refine ⟨fun node hnode hwritten => ?_, ?_⟩
    · obtain ⟨out, hout, hstep⟩ := exists_of_mem_left hsteps hnode
      rcases resolveStep_ok hstep with ⟨-, rfl⟩ | ⟨hselector, -⟩
      · exact hwithin out hout
      · rw [hwritten] at hselector
        cases hselector
    · by_cases hempty : supplied = []
      · have hnone : path = [] := List.eq_nil_iff_forall_not_mem.mpr fun node hnode => by
          have hin := hwithin node hnode
          rw [hempty] at hin
          cases hin
        rw [hnone, List.forall₂_nil_right_iff] at hsteps
        exact .inr hsteps
      · exact .inl hempty
  · rintro ⟨hwritten, hset⟩ out hout
    obtain ⟨node, hnode, hstep⟩ := exists_of_mem_right hsteps hout
    have hne : supplied ≠ [] := by
      rcases hset with hne | hnil
      · exact hne
      · rw [hnil] at hnode
        cases hnode
    rw [if_neg hne] at hsigned
    rcases resolveStep_ok hstep with ⟨hliteral, rfl⟩ | ⟨-, hin⟩
    · exact hwritten out hnode hliteral
    · exact hin supplied hsigned.symm

end

section Sample

attribute [local instance] asciiCase

@[reducible] def lowerFolding : CaseFolding := ⟨Char.toLower⟩

attribute [local instance] lowerFolding

def pairStore : ConnStore := ⟨[⟨"edge", ["b", "c"]⟩]⟩

/-- A path through a node of the group, pinned by the operator, lies within the three nodes. -/
theorem path_within_signed_set_pinned :
    resolvePath (fun _ _ => none) pairStore ⟨[text "a", text "group:edge"]⟩ (fun _ => text "c")
        (fun _ => []) (some [text "a", text "b", text "c"]) = .ok [text "a", text "c"] ∧
      ∀ node ∈ [text "a", text "c"], node ∈ [text "a", text "b", text "c"] := by
  have hsupplied : suppliedNodes (fun _ => none) (text "a,b->c") [] =
      .ok [text "a", text "b", text "c"] := by decide +kernel
  have hsigned : loadSignedNodeSet (fun _ => none) (text "a,b->c") [] =
      .ok (some [text "a", text "b", text "c"]) := by decide +kernel
  have hpath : resolvePath (fun _ _ => none) pairStore ⟨[text "a", text "group:edge"]⟩
      (fun _ => text "c") (fun _ => []) (some [text "a", text "b", text "c"]) =
        .ok [text "a", text "c"] := by decide +kernel
  refine ⟨hpath, ?_⟩
  exact (path_within_signed_set _ _ _ _ _ _ _ _ hsupplied hsigned hpath).mpr
    ⟨by decide +kernel, .inl (by decide)⟩

/-- **Two ways out of a signed set**: a node that is written in the path, and a set that is supplied
with no node in it, as an argument or in the file of a context. -/
theorem unsigned_node_in_path :
    let chain : ConnChain := ⟨[text "a", text "group:edge"]⟩
    let selects := fun _ => text "c"
    let emptyFile := fun _ => some (⟨some [], []⟩ : NodeContextFile)
    (loadSignedNodeSet (fun _ => none) (text "b,c") [] = .ok (some [text "b", text "c"]) ∧
        resolvePath (fun _ _ => none) pairStore chain selects (fun _ => [])
          (some [text "b", text "c"]) = .ok [text "a", text "c"]) ∧
      (suppliedNodes (fun _ => none) (text ",") [] = .ok [] ∧
        loadSignedNodeSet (fun _ => none) (text ",") [] = .ok none ∧
        suppliedNodes emptyFile [] (text "context.json") = .ok [] ∧
        loadSignedNodeSet emptyFile [] (text "context.json") = .ok none ∧
        resolvePath (fun _ _ => none) pairStore chain selects (fun _ => []) none =
          .ok [text "a", text "c"]) := by
  decide +kernel

end Sample

end WeaverSSH.Connections
