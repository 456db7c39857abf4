import WeaverSSH.Guarantees.SessionRegistry
import WeaverSSH.SessionRoute.Resolve

/-!
# Three readings of a reference

A reference to a node is read by the router (`resolveNode`), by the session's registry
(`Registry.resolve`) and by a node that asks whether it is meant itself
(`referenceResolvesToLocal`).

Their tables of words are one but for `target`, which the router does not know, and the last of the
three does not normalise the context it is given. `resolvers_agree` says what they agree on,
exactly.
-/

namespace WeaverSSH.SessionRoute

open AuthProof SessionControl SessionMux Option NodeContext Except List

section

variable [Unicode]

/-- The three readings of a reference agree: the router and the registry find the same node or none,
and the node itself is meant where they find it. -/
structure Agree (r : Registry) (ctx : NodeContext) (ref : Text) : Prop where
  same : ∀ name, (∃ index, resolveNode ctx ref = .ok (name, index)) ↔
    ∃ node, r.resolve ref ctx.currentNode = .ok node ∧ node.id = name
  meant : referenceResolvesToLocal ref ctx = true ↔
    ∃ index, resolveNode ctx ref = .ok (ctx.normalized.currentNode, index)

/-- What the agreement asks of a reference and a context: the word `target` is the name of the last
node, and the node and the endpoint are written as they are normalised, where they are compared. -/
structure Settled (ctx : NodeContext) (ref : Text) : Prop where
  target : toLower (trimSpace ref) = "target" → trimSpace ref = ctx.normalized.endpointNode
  endpoint : localAliases.lookup (toLower (trimSpace ref)) = some .endpoint →
    (ctx.currentNode = ctx.endpointNode ↔ ctx.normalized.currentNode = ctx.normalized.endpointNode)
  current : localAliases.lookup (toLower (trimSpace ref)) = none →
    trimSpace ref = trimSpace ctx.currentNode → trimSpace ctx.currentNode = ctx.currentNode

/-! ## The tables -/

variable {word : Text}

omit [Unicode] in
lemma lookup_eq_none_of_keys {l : List (Text × Alias)}
    (h : word ∉ l.map Prod.fst) : l.lookup word = none := by
  rw [lookup_eq_none_iff]
  intro p hp
  simpa using fun hword => h (mem_map.mpr ⟨p, hp, hword.symm⟩)

omit [Unicode] in
lemma lookup_congr {l l' : List (Text × Alias)} {p : Text → Prop}
    (hkeys : ∀ word ∈ (l ++ l').map Prod.fst, p word → l.lookup word = l'.lookup word)
    (hword : p word) : l.lookup word = l'.lookup word := by
  by_cases hmem : word ∈ (l ++ l').map Prod.fst
  · exact hkeys word hmem hword
  · rw [map_append, mem_append, not_or] at hmem
    rw [lookup_eq_none_of_keys hmem.1, lookup_eq_none_of_keys hmem.2]

omit [Unicode] in
lemma localAliases_lookup (word : Text) : localAliases.lookup word = registryAliases.lookup word :=
  lookup_congr (p := fun _ => True) (by decide) trivial

omit [Unicode] in
lemma registryAliases_lookup (h : word ≠ "target") :
    registryAliases.lookup word = nodeAliases.lookup word :=
  lookup_congr (p := (· ≠ "target")) (by decide) h

/-! ## What each of them finds -/

variable {ctx : NodeContext} {ref : Text} {name : Text}

lemma exists_resolveNode_iff : (∃ index, resolveNode ctx ref = .ok (name, index)) ↔
      nameIn ctx.normalized (trimSpace ref) = .ok name ∧ name ∈ ctx.normalized.nodes := by
  simp only [resolveNode_eq_ok, exists_and_left, ← isSome_iff_exists, isSome_idxOf?]

variable {r : Registry}

lemma exists_resolve_iff (h : r.Invariant)
    (hall : ∀ name ∈ r.order, (r.nodes name).isSome) (hblank : [] ∉ r.order) {current name : Text} :
    (∃ node, r.resolve ref current = .ok node ∧ node.id = name) ↔
      r.nameOf (trimSpace ref) (trimSpace current) = .ok name ∧ name ∈ r.order := by
  simp only [Registry.resolve, checks_ok, elim_eq_ok]
  constructor
  · rintro ⟨node, ⟨m, hm, -, stored, hstored, rfl⟩, rfl⟩
    obtain ⟨hid, -, hindex⟩ := h.placed m stored hstored
    have hmem : m ∈ r.order := by
      rw [← isSome_idxOf?, hindex]
      rfl
    change r.nameOf _ _ = .ok stored.id ∧ stored.id ∈ r.order
    rw [hid]
    exact ⟨hm, hmem⟩
  · rintro ⟨hname, hmem⟩
    obtain ⟨stored, hstored⟩ := isSome_iff_exists.mp (hall name hmem)
    refine ⟨stored.clone, ⟨name, hname, ?_, stored, hstored, rfl⟩, (h.placed name stored hstored).1⟩
    rintro rfl
    exact hblank hmem

lemma nameOf_eq_ok_iff (horder : r.order = ctx.nodes)
    (hne : ctx.nodes ≠ []) (htarget : toLower ref ≠ "target") :
    r.nameOf ref ctx.currentNode = .ok name ↔ nameIn ctx ref = .ok name := by
  unfold Registry.nameOf nameIn
  rw [registryAliases_lookup htarget, horder]
  cases nodeAliases.lookup (toLower ref) with
  | none => simp
  | some word =>
    cases word with
    | self => simp
    | previous =>
      dsimp only
      rcases ctx.nodes.idxOf? ctx.currentNode with _ | _ | index <;> simp
    | next =>
      dsimp only
      cases ctx.nodes.idxOf? ctx.currentNode with
      | none => simp
      | some index => simp only [elim_eq_ok]
    | endpoint =>
      simp only [elim_eq_ok, getLastD_eq_getLast?, getLast?_eq_some_getLast hne,
        getD_some, ok.injEq, some.injEq]

lemma nameIn_ne_currentNode (hnodup : ctx.nodes.Nodup) (hmem : ctx.currentNode ∈ ctx.nodes)
    (hword : nodeAliases.lookup (toLower ref) = some .previous ∨
      nodeAliases.lookup (toLower ref) = some .next) : nameIn ctx ref ≠ .ok ctx.currentNode := by
  obtain ⟨i, hi⟩ : ∃ i, ctx.nodes.idxOf? ctx.currentNode = some i := by
    rw [← isSome_iff_exists, isSome_idxOf?]
    exact hmem
  obtain ⟨hlt, hget, -⟩ := idxOf?_eq_some_iff.mp hi
  unfold nameIn
  rcases hword with hword | hword
  · rw [hword]
    dsimp only
    rw [hi]
    rcases i with _ | i
    · simp
    · dsimp only
      rw [getD_eq_getElem?_getD, getElem?_eq_getElem (Nat.lt_of_succ_lt hlt),
        getD_some, ne_eq, ok.injEq, ← hget, hnodup.getElem_inj_iff]
      omega
  · rw [hword]
    dsimp only
    rw [hi]
    dsimp only
    rw [ne_eq, elim_eq_ok, getElem?_eq_some_iff]
    rintro ⟨hlt', hnext⟩
    rw [← hget, hnodup.getElem_inj_iff] at hnext
    omega

lemma meant_iff (hvalid : ctx.validate = .ok ())
    (htarget : toLower (trimSpace ref) ≠ "target") : (referenceResolvesToLocal ref ctx = true ↔
      ∃ index, resolveNode ctx ref = .ok (ctx.normalized.currentNode, index)) ↔
    (localAliases.lookup (toLower (trimSpace ref)) = some .endpoint →
      (ctx.currentNode = ctx.endpointNode ↔
        ctx.normalized.currentNode = ctx.normalized.endpointNode)) ∧
    (localAliases.lookup (toLower (trimSpace ref)) = none →
      trimSpace ref = trimSpace ctx.currentNode → trimSpace ctx.currentNode = ctx.currentNode) := by
  obtain ⟨hmem, hlast⟩ := nodes_of_validate hvalid
  have hneighbour := @nameIn_ne_currentNode _ ctx.normalized (trimSpace ref)
    (nodup_nodes ctx) hmem
  rw [exists_resolveNode_iff, and_iff_left hmem]
  have htable : localAliases.lookup (toLower (trimSpace ref)) =
      nodeAliases.lookup (toLower (trimSpace ref)) := by
    rw [localAliases_lookup, registryAliases_lookup htarget]
  unfold referenceResolvesToLocal
  dsimp only
  rw [htable]
  cases hword : nodeAliases.lookup (toLower (trimSpace ref)) with
  | none =>
    have hname : nameIn ctx.normalized (trimSpace ref) = .ok (trimSpace ref) := by
      simp only [nameIn, hword]
    have hcurrent : ctx.normalized.currentNode = trimSpace ctx.currentNode := rfl
    rw [hname, ok.injEq, hcurrent]
    simp only [decide_eq_true_eq, reduceCtorEq, false_implies, true_and, true_implies]
    constructor
    · intro hiff href
      exact href.symm.trans (hiff.mpr href)
    · intro htrim
      constructor
      · intro href
        rw [← href, trimSpace_trimSpace]
      · intro href
        exact href.trans (htrim href)
  | some word =>
    cases word with
    | self =>
      have hname : nameIn ctx.normalized (trimSpace ref) = .ok ctx.normalized.currentNode := by
        simp only [nameIn, hword]
      simp [hname]
    | previous =>
      have hname := hneighbour (.inl hword)
      simp [hname]
    | next =>
      have hname := hneighbour (.inr hword)
      simp [hname]
    | endpoint =>
      have hname : nameIn ctx.normalized (trimSpace ref) = .ok ctx.normalized.endpointNode := by
        simp only [nameIn, hword, hlast, elim_some]
      simp [hname, eq_comm]

/-- The word `target` is the last node's place to the registry and the node itself, and a name like
any other to the router. -/
lemma agree_target_iff (h : r.Invariant)
    (hvalid : ctx.validate = .ok ()) (horder : r.order = ctx.normalized.nodes)
    (hall : ∀ name ∈ r.order, (r.nodes name).isSome)
    (htarget : toLower (trimSpace ref) = "target") :
    Agree r ctx ref ↔ trimSpace ref = ctx.normalized.endpointNode ∧
      (ctx.currentNode = ctx.endpointNode ↔
        ctx.normalized.currentNode = ctx.normalized.endpointNode) := by
  obtain ⟨hmem, hlast⟩ := nodes_of_validate hvalid
  have hblank : [] ∉ r.order := by
    rw [horder]
    exact fun hnil => (mem_nodes hnil).2 rfl
  have hroute : nameIn ctx.normalized (trimSpace ref) = .ok (trimSpace ref) := by
    have hword : nodeAliases.lookup (text "target") = none := by decide
    simp only [nameIn, htarget, hword]
  have hregistry : r.nameOf (trimSpace ref) (trimSpace ctx.currentNode) =
      .ok ctx.normalized.endpointNode := by
    have hword : registryAliases.lookup (text "target") = some .endpoint := by decide
    simp only [Registry.nameOf, htarget, hword, horder, getLastD_eq_getLast?, hlast, getD_some]
  have hself : referenceResolvesToLocal ref ctx = true ↔ ctx.currentNode = ctx.endpointNode := by
    have hword : localAliases.lookup (text "target") = some .endpoint := by decide
    simp [referenceResolvesToLocal, htarget, hword]
  have hendpoint : ctx.normalized.endpointNode ∈ ctx.normalized.nodes := mem_of_getLast? hlast
  have hiff : Agree r ctx ref ↔ (∀ name, (trimSpace ref = name ∧ name ∈ ctx.normalized.nodes ↔
        ctx.normalized.endpointNode = name ∧ name ∈ ctx.normalized.nodes)) ∧
      (ctx.currentNode = ctx.endpointNode ↔ trimSpace ref = ctx.normalized.currentNode) := by
    constructor
    · rintro ⟨hsame, hmeant⟩
      simp only [exists_resolveNode_iff, exists_resolve_iff h hall hblank, hroute, hregistry,
        horder, ok.injEq] at hsame hmeant
      rw [and_iff_left hmem, hself] at hmeant
      exact ⟨hsame, hmeant⟩
    · rintro ⟨hsame, hmeant⟩
      constructor
      · simpa only [exists_resolveNode_iff, exists_resolve_iff h hall hblank, hroute, hregistry,
          horder, ok.injEq] using hsame
      · rw [exists_resolveNode_iff, hroute, and_iff_left hmem, hself, ok.injEq]
        exact hmeant
  rw [hiff]
  constructor
  · rintro ⟨hsame, hmeant⟩
    have hname := ((hsame ctx.normalized.endpointNode).mpr ⟨rfl, hendpoint⟩).1
    exact ⟨hname, by rw [hmeant, hname, eq_comm]⟩
  · rintro ⟨hname, hmeant⟩
    exact ⟨fun name => by rw [hname], by rw [hmeant, hname, eq_comm]⟩

/-- **The three readings of a reference.** In a registry that all nodes of a valid context's chain
have registered with, they agree on a reference exactly where it is settled. -/
theorem resolvers_agree (calls : List Registration) (ctx : NodeContext)
    (hvalid : ctx.validate = .ok ())
    (horder : (newRegistry.after calls).order = ctx.normalized.nodes)
    (hall : ∀ name ∈ ctx.normalized.nodes, ((newRegistry.after calls).nodes name).isSome)
    (ref : Text) :
    Agree (newRegistry.after calls) ctx ref ↔ Settled ctx ref := by
  have hinv : (newRegistry.after calls).Invariant := newRegistry_invariant.after calls
  rw [← horder] at hall
  have hblank : [] ∉ (newRegistry.after calls).order := by
    rw [horder]
    exact fun hnil => (NodeContext.mem_nodes hnil).2 rfl
  by_cases htarget : toLower (trimSpace ref) = text "target"
  · have hword : localAliases.lookup (text "target") = some .endpoint := by decide
    rw [agree_target_iff hinv hvalid horder hall htarget]
    constructor
    · rintro ⟨hname, hwritten⟩
      exact ⟨fun _ => hname, fun _ =>
        hwritten, fun hnone => by rw [htarget, hword] at hnone; cases hnone⟩
    · rintro ⟨hname, hwritten, -⟩
      exact ⟨hname htarget, hwritten (by rw [htarget, hword])⟩
  · have hne : ctx.normalized.nodes ≠ [] := ne_nil_of_mem (NodeContext.nodes_of_validate hvalid).1
    have hsame : ∀ name, (∃ index, resolveNode ctx ref = .ok (name, index)) ↔
        ∃ node, (newRegistry.after calls).resolve ref ctx.currentNode = .ok node ∧
          node.id = name := by
      intro name
      rw [exists_resolveNode_iff, exists_resolve_iff hinv hall hblank, horder]
      exact and_congr_left' (nameOf_eq_ok_iff horder hne htarget).symm
    constructor
    · rintro ⟨-, hmeant⟩
      obtain ⟨hwritten, hcurrent⟩ := (meant_iff hvalid htarget).mp hmeant
      exact ⟨fun h => absurd h htarget, hwritten, hcurrent⟩
    · rintro ⟨-, hwritten, hcurrent⟩
      exact ⟨hsame, (meant_iff hvalid htarget).mpr ⟨hwritten, hcurrent⟩⟩

end

section Sample

/-- Every node of a chain registers at the tenth second. -/
def chainRegistrations (nodes : List Text) : List Registration :=
  nodes.map fun node => ⟨minuteContext nodes node, [], 10 * second⟩

attribute [local instance] asciiCase

/-- On a chain of two nodes the reference `last` is settled. -/
theorem resolvers_agree_last :
    Agree (newRegistry.after (chainRegistrations ["a", "b"]))
      (minuteContext ["a", "b"] "a") "last" := by
  obtain ⟨hvalid, horder, hall⟩ :
      (minuteContext ["a", "b"] "a").validate = .ok () ∧
      (newRegistry.after (chainRegistrations ["a", "b"])).order =
        (minuteContext ["a", "b"] "a").normalized.nodes ∧
      ∀ name ∈ (minuteContext ["a", "b"] "a").normalized.nodes,
        ((newRegistry.after (chainRegistrations ["a", "b"])).nodes name).isSome := by
    decide +kernel
  refine (resolvers_agree _ _ hvalid horder hall _).mpr ⟨?_, ?_, ?_⟩ <;> decide

/-- **One reference, two nodes**: on a chain whose second node is called `target`, the router sends
the reference `target` to that node and the registry to the last. -/
theorem target_read_differently :
    let ctx := minuteContext ["a", "target", "b"] "a"
    let r := newRegistry.after (chainRegistrations ["a", "target", "b"])
    ctx.validate = .ok () ∧ r.order = ctx.normalized.nodes ∧
      (∀ name ∈ ctx.normalized.nodes, (r.nodes name).isSome) ∧
      resolveNode ctx "target" = .ok ("target", 1) ∧
      (r.resolve "target" ctx.currentNode).map Node.id = .ok "b" ∧
      -- and where no node is called so, only the router finds none
      resolveNode (minuteContext ["a", "b"] "b") "target" =
        .error (.targetUnknown (some "target")) ∧
      referenceResolvesToLocal "target" (minuteContext ["a", "b"] "b") =
        true := by
  decide +kernel

end Sample

end WeaverSSH.SessionRoute
