import WeaverSSH.Vfs.Reference

/-!
# References stay in their node

A node may be written in many ways: an alias, a kind before a slash, a user, an address in brackets.
What is left of it is one plain name, behind the names of the node namespace.
-/

namespace WeaverSSH.Vfs

open FilePath List Except

/-! ## Paths -/

/-- A name of a path that is accepted: a plain one, without blanks around it. -/
structure Segment (seg : Text) : Prop where
  plain : Plain seg
  trimmed : trimSpace seg = seg

lemma cleanSegments_segment {ref : Text} {parts segs : List Text}
    (hparts : ∀ part ∈ parts, slash ∉ part)
    (h : cleanSegments ref parts = .ok segs) : ∀ seg ∈ segs, Segment seg := by
  induction parts generalizing segs with
  | nil =>
    obtain rfl := ok.inj h
    exact nofun
  | cons part parts ih =>
    obtain ⟨hpart, hrest⟩ := forall_mem_cons.mp hparts
    unfold cleanSegments at h
    dsimp only at h
    by_cases hskip : trimSpace part = [] ∨ trimSpace part = dot
    · rw [if_pos hskip] at h
      exact ih hrest h
    rw [if_neg hskip] at h
    by_cases hup : trimSpace part = dotDot
    · rw [if_pos hup] at h
      cases h
    rw [if_neg hup] at h
    obtain ⟨hempty, hdot⟩ := not_or.mp hskip
    have hslash : slash ∉ trimSpace part := fun hmem => hpart ((trimSpace_sublist part).subset hmem)
    cases hsegs : cleanSegments ref parts with
    | error err =>
      rw [hsegs] at h
      cases h
    | ok rest =>
      rw [hsegs] at h
      obtain rfl := ok.inj h
      exact forall_mem_cons.mpr
        ⟨⟨⟨hempty, hdot, hup, hslash⟩, trimSpace_trimSpace part⟩, ih hrest hsegs⟩

lemma cleanNamespacePath_segments {ref rest path : Text}
    (h : cleanNamespacePath ref rest = .ok path) :
    ∃ segs, path = slashed segs ∧ ∀ seg ∈ segs, Segment seg := by
  unfold cleanNamespacePath at h
  dsimp only at h
  split_ifs at h
  · exact ⟨[], (ok.inj h).symm, nofun⟩
  · cases hsegs : cleanSegments ref (split (trimSlashes (trimPrefix rest [slash])) '/') with
    | error err =>
      rw [hsegs] at h
      cases h
    | ok segs =>
      rw [hsegs] at h
      exact ⟨segs, (ok.inj h).symm,
        cleanSegments_segment (fun _ => slash_notMem_of_mem_split) hsegs⟩

lemma nodeNamespace_segments (env : Env) :
    ∃ segs, nodeNamespace env = slashed segs ∧ segs ≠ [] ∧ ∀ seg ∈ segs, Segment seg := by
  have hdefault : ∃ segs, defaultNodeNamespace = slashed segs ∧ segs ≠ [] ∧
      ∀ seg ∈ segs, Segment seg := by
    refine ⟨[text ".wv", text "nodes"], by decide, cons_ne_nil _ _, fun seg hseg => ⟨?_, ?_⟩⟩
    · exact (show ∀ seg ∈ [text ".wv", text "nodes"], Plain seg by decide) seg hseg
    · exact (show ∀ seg ∈ [text ".wv", text "nodes"], trimSpace seg = seg by decide) seg hseg
  unfold nodeNamespace
  cases hpath : cleanNamespacePath "WEAVERSSH_VFS_NODE_NAMESPACE"
      (firstEnv env ["WEAVERSSH_VFS_NODE_NAMESPACE"]) with
  | error err => exact hdefault
  | ok path =>
    dsimp only
    by_cases hempty : path = []
    · rw [if_pos hempty]
      exact hdefault
    · rw [if_neg hempty]
      obtain ⟨segs, rfl, hsegs⟩ := cleanNamespacePath_segments hpath
      refine ⟨segs, rfl, ?_, hsegs⟩
      rintro rfl
      exact hempty rfl

lemma joinNamespace_slashed {a b : List Text} {name : Text} (ha : ∀ seg ∈ a, Plain seg)
    (hne : a ≠ []) (hname : Plain name) (hb : ∀ seg ∈ b, Plain seg) :
    joinNamespace [slashed a, name, slashed b] = slashed (a ++ name :: b) := by
  have hone : ∀ seg ∈ [name], Plain seg := fun seg hseg => mem_singleton.mp hseg ▸ hname
  have hname' : trimSlashes name = name := by
    have htrim := trimSlashes_slashed hone
    rwa [slashed_singleton] at htrim
  have ha' : slashed a ≠ [] :=
    fun hnil => hne ((slashed_eq_nil fun seg hseg => (ha seg hseg).1).mp hnil)
  unfold joinNamespace
  simp only [map_cons, map_nil, trimSlashes_slashed ha, trimSlashes_slashed hb, hname']
  rw [slashed_append hne (cons_ne_nil _ _)]
  by_cases hb' : b = []
  · have hfilter : ([slashed a, name, slashed b] : List Text).filter (· ≠ []) =
        [slashed a, name] := by
      have hnil : slashed b = [] := by rw [hb']; rfl
      simp [ha', hname.1, hnil]
    rw [hfilter, slashed_cons _ (cons_ne_nil _ _), hb']
  · have hb'' : slashed b ≠ [] :=
      fun hnil => hb' ((slashed_eq_nil fun seg hseg => (hb seg hseg).1).mp hnil)
    have hfilter : ([slashed a, name, slashed b] : List Text).filter (· ≠ []) =
        [slashed a, name, slashed b] := by
      simp [ha', hname.1, hb'']
    rw [hfilter, slashed_cons _ (cons_ne_nil _ _), slashed_cons _ (cons_ne_nil _ _),
      slashed_singleton, slashed_cons _ hb']

/-! ## Nodes -/

lemma mem_userPart_or {ref : Text} {r : Rune} (h : r ∈ ref) (hr : r ≠ .char '@') :
    r ∈ userPart ref ∨ r ∈ hostPart ref := by
  have hwhole : ref.rdropWhile (· ≠ .char '@') ++ hostPart ref = ref := rdropWhile_append_rtakeWhile
  have hends (hne : ref.rdropWhile (· ≠ .char '@') ≠ []) :
      ¬ decide ((ref.rdropWhile (· ≠ .char '@')).getLast hne ≠ .char '@') = true :=
    rdropWhile_last_not _ _ hne
  rw [← hwhole] at h
  unfold userPart
  generalize ref.rdropWhile (· ≠ .char '@') = front at hwhole hends h
  rcases mem_append.mp h with hfront | hhost
  · left
    have hne : front ≠ [] := ne_nil_of_mem hfront
    have hlast : front.getLast hne = .char '@' := by simpa using hends hne
    have hmem : Rune.char '@' ∈ ref := by
      rw [← hwhole, ← hlast]
      exact mem_append_left _ (getLast_mem hne)
    rw [if_pos hmem]
    rw [← dropLast_append_getLast hne] at hfront
    rcases mem_append.mp hfront with hinit | hlast'
    · exact hinit
    · exact absurd ((mem_singleton.mp hlast').trans hlast) hr
  · exact .inr hhost

section

variable [CharClasses] [Addresses] [Unicode]

omit [CharClasses] [Addresses] in
lemma trimSpace_stripNodePrefix (ref : Text) :
    trimSpace (stripNodePrefix (trimSpace ref)) = stripNodePrefix (trimSpace ref) := by
  unfold stripNodePrefix
  split
  · exact trimSpace_trimSpace _
  · exact trimSpace_trimSpace ref

variable {ref : Text} {env : Env}

lemma cleanNodeName_segment {node : Text} (h : cleanNodeName ref = .ok node) : Segment node := by
  have htrimmed := trimSpace_stripNodePrefix ref
  unfold cleanNodeName at h
  dsimp only at h
  generalize stripNodePrefix (trimSpace ref) = name at h htrimmed
  by_cases hspecial : name = [] ∨ name = dot ∨ name = dotDot
  · rw [if_pos hspecial] at h
    cases h
  rw [if_neg hspecial] at h
  simp only [not_or] at hspecial
  obtain ⟨hempty, hdot, hup⟩ := hspecial
  suffices hname : name = node ∧ slash ∉ name by
    obtain ⟨rfl, hslash⟩ := hname
    exact ⟨⟨hempty, hdot, hup, hslash⟩, htrimmed⟩
  split_ifs at h with hip huser hnode
  · refine ⟨ok.inj h, fun hmem => ?_⟩
    rcases mem_userPart_or hmem (by decide) with huserMem | hhost
    · have hrune := all_eq_true.mp huser slash huserMem
      have hslash : userRune slash = false := by
        simp [userRune, slash, CharClasses.slash_notLetter, CharClasses.slash_notDigit]
      exact Bool.false_ne_true (hslash.symm.trans hrune)
    · exact Addresses.slash_notMem _ hip hhost
  · refine ⟨ok.inj h, fun hmem => ?_⟩
    have hrune := all_eq_true.mp hnode slash hmem
    cases hrune

lemma resolveNodeRef_segment {node : Text} (h : resolveNodeRef env ref = .ok node) :
    Segment node := by
  unfold resolveNodeRef at h
  dsimp only at h
  split_ifs at h
  all_goals exact cleanNodeName_segment h

/-- What a reference to a node stands for. -/
structure NodePath.Within (env : Env) (np : NodePath) : Prop where
  node : Plain np.node
  path : ∃ space rel, nodeNamespace env = slashed space ∧ (∀ seg ∈ space, Plain seg) ∧
    (∀ seg ∈ rel, Plain seg) ∧ np.namespacePath = slashed (space ++ np.node :: rel)

lemma buildNodePath_segments {raw nodeRef pathPart : Text} {np : NodePath}
    (h : buildNodePath env raw nodeRef pathPart = .ok np) : Segment np.node ∧ ∃ space rel,
      nodeNamespace env = slashed space ∧ (∀ seg ∈ space, Segment seg) ∧
        (∀ seg ∈ rel, Segment seg) ∧ np.namespacePath = slashed (space ++ np.node :: rel) := by
  unfold buildNodePath at h
  simp only [checks_ok] at h
  obtain ⟨node, hnode, rel, hrel, rfl⟩ := h
  have hsegment := resolveNodeRef_segment hnode
  obtain ⟨segs, rfl, hsegs⟩ := cleanNamespacePath_segments hrel
  obtain ⟨space, hspace, hne, hspaceSegs⟩ := nodeNamespace_segments env
  refine ⟨hsegment, space, segs, hspace, hspaceSegs, hsegs, ?_⟩
  dsimp only
  rw [hspace, joinNamespace_slashed (fun seg hseg => (hspaceSegs seg hseg).plain) hne hsegment.plain
    fun seg hseg => (hsegs seg hseg).plain]

/-- A reference that names a node, and what is made of it. -/
def NodeQualified (env : Env) (ref : Text) (np : NodePath) : Prop :=
  parseNodePath env ref = .ok np ∨ parseSCPStyleNodePath env ref = some (.ok np)

lemma NodeQualified.segments {np : NodePath} (h : NodeQualified env ref np) :
    Segment np.node ∧ ∃ space rel, nodeNamespace env = slashed space ∧
      (∀ seg ∈ space, Segment seg) ∧
      (∀ seg ∈ rel, Segment seg) ∧ np.namespacePath = slashed (space ++ np.node :: rel) := by
  rcases h with h | h
  · unfold parseNodePath at h
    split_ifs at h
    cases hsplit : splitNodeColonPath (trimPrefix ref nodeScheme) with
    | none =>
      rw [hsplit] at h
      cases h
    | some parts =>
      rw [hsplit] at h
      exact buildNodePath_segments h
  · obtain ⟨parts, -, hbuild⟩ := Option.map_eq_some_iff.mp h
    exact buildNodePath_segments hbuild

lemma NodeQualified.within {np : NodePath} (h : NodeQualified env ref np) : np.Within env := by
  obtain ⟨hnode, space, rel, hspace, hspaceSegs, hrel, hpath⟩ := h.segments
  exact ⟨hnode.plain, space, rel, hspace, fun seg hseg => (hspaceSegs seg hseg).plain,
    fun seg hseg => (hrel seg hseg).plain, hpath⟩

lemma nodeQualified_of_parsePath {path : Text} (h : parsePath env ref = .ok path)
    (hscheme : hasPrefix ref scheme = false) :
    ∃ np, NodeQualified env ref np ∧ path = np.namespacePath := by
  unfold parsePath at h
  by_cases hnode : hasPrefix ref nodeScheme = true
  · rw [if_pos hnode] at h
    cases hparse : parseNodePath env ref with
    | error err =>
      rw [hparse] at h
      cases h
    | ok np =>
      rw [hparse] at h
      exact ⟨np, .inl hparse, (ok.inj h).symm⟩
  · rw [if_neg hnode, hscheme, if_neg Bool.false_ne_true] at h
    cases hparse : parseSCPStyleNodePath env ref with
    | none =>
      rw [hparse] at h
      cases h
    | some result =>
      rw [hparse] at h
      cases result with
      | error err => cases h
      | ok np => exact ⟨np, .inr hparse, (ok.inj h).symm⟩

/-- Whatever it refers to, a reference is parsed as a path of plain names without blanks around
them. -/
lemma parsePath_segments {path : Text} (h : parsePath env ref = .ok path) :
    ∃ segs, path = slashed segs ∧ ∀ seg ∈ segs, Segment seg := by
  cases hscheme : hasPrefix ref scheme with
  | false =>
    obtain ⟨np, hnp, rfl⟩ := nodeQualified_of_parsePath h hscheme
    obtain ⟨hnode, space, rel, -, hspace, hrel, hpath⟩ := hnp.segments
    exact ⟨_, hpath, forall_mem_append.mpr ⟨hspace, forall_mem_cons.mpr ⟨hnode, hrel⟩⟩⟩
  | true =>
    have hother : ¬ hasPrefix ref nodeScheme = true := by
      intro hnode
      have hnode := isPrefixOf_iff_prefix.mp hnode
      have hscheme := isPrefixOf_iff_prefix.mp hscheme
      have hboth := prefix_of_prefix_length_le hnode hscheme (by decide)
      exact absurd hboth (by decide)
    unfold parsePath at h
    rw [if_neg hother, if_pos hscheme] at h
    exact cleanNamespacePath_segments h

/-- **References stay in their node.** Every path that a reference is parsed as is made of plain
names; that of a reference to a node is the node namespace, the node's name and more names; and it
is no path below the name of another node. -/
theorem references_stay_in_node (env : Env) :
    (∀ ref path, parsePath env ref = .ok path → ∃ segs, path = slashed segs ∧
      ∀ seg ∈ segs, Plain seg) ∧
    (∀ ref path, parsePath env ref = .ok path → hasPrefix ref scheme = false →
      ∃ np, NodeQualified env ref np ∧ path = np.namespacePath ∧ np.Within env) ∧
    ∀ ref np ref' np', NodeQualified env ref np → NodeQualified env ref' np' → np.node ≠ np'.node →
      ∀ space, nodeNamespace env = slashed space → (∀ seg ∈ space, Plain seg) →
        ∀ rel, (∀ seg ∈ rel, Plain seg) →
          np.namespacePath ≠ slashed (space ++ np'.node :: rel) := by
  have hqualified {ref path : Text} (hpath : parsePath env ref = .ok path)
      (hscheme : hasPrefix ref scheme = false) :
      ∃ np, NodeQualified env ref np ∧ path = np.namespacePath ∧ np.Within env := by
    obtain ⟨np, hnp, rfl⟩ := nodeQualified_of_parsePath hpath hscheme
    exact ⟨np, hnp, rfl, hnp.within⟩
  refine ⟨fun ref path hpath => ?_, fun ref path => hqualified, ?_⟩
  · obtain ⟨segs, rfl, hsegs⟩ := parsePath_segments hpath
    exact ⟨segs, rfl, fun seg hseg => (hsegs seg hseg).plain⟩
  · intro ref np ref' np' h h' hne space hspace hspacePlain rel hrel heq
    obtain ⟨hnode, space', rel', hspace', hspacePlain', hrel', hpath⟩ := h.within
    obtain rfl := slashed_inj hspacePlain' hspacePlain (hspace'.symm.trans hspace)
    have hplain : ∀ seg ∈ space' ++ np.node :: rel', Plain seg :=
      forall_mem_append.mpr ⟨hspacePlain, forall_mem_cons.mpr ⟨hnode, hrel'⟩⟩
    have hplain' : ∀ seg ∈ space' ++ np'.node :: rel, Plain seg :=
      forall_mem_append.mpr ⟨hspacePlain, forall_mem_cons.mpr ⟨h'.within.node, hrel⟩⟩
    have hsegs := append_cancel_left (slashed_inj hplain hplain' (hpath.symm.trans heq))
    exact hne (cons.inj hsegs).1

end

/-! ## References to two nodes -/

@[reducible]
def asciiClasses : CharClasses where
  isLetter := Char.isAlpha
  isDigit := Char.isDigit
  slash_notLetter := by decide
  slash_notDigit := by decide

@[reducible]
def noAddresses : Addresses := ⟨fun _ => false, nofun⟩

attribute [local instance] asciiCase asciiClasses noAddresses

def emptyEnv : Env := fun _ => []

/-- The origin, by its alias, and a node by its name after a user's. -/
theorem references_stay_in_node_origin :
    parsePath emptyEnv "vfs::Origin:/logs//app" = .ok ".wv/nodes/origin/logs/app" ∧
    (∃ segs, ".wv/nodes/origin/logs/app" = slashed segs ∧ ∀ seg ∈ segs, Plain seg) ∧
    parseSCPStyleNodePath emptyEnv "u@n1:~/app" =
      some (.ok ⟨text "u@n1:~/app", text "u@n1", text "~/app", text ".wv/nodes/u@n1/~/app"⟩) ∧
    text ".wv/nodes/u@n1/~/app" ≠
      slashed ([text ".wv", text "nodes"] ++ text "origin" :: [text "app"]) := by
  have hpath : parsePath emptyEnv (text "vfs::Origin:/logs//app") =
      .ok (text ".wv/nodes/origin/logs/app") := by
    decide +kernel
  have hnode : parseNodePath emptyEnv "vfs::Origin:/logs//app" =
      .ok ⟨"vfs::Origin:/logs//app", "origin", "logs/app", ".wv/nodes/origin/logs/app"⟩ := by
    decide +kernel
  have hscp : parseSCPStyleNodePath emptyEnv "u@n1:~/app" =
      some (.ok ⟨"u@n1:~/app", "u@n1", "~/app", ".wv/nodes/u@n1/~/app"⟩) := by
    decide +kernel
  have hstay := references_stay_in_node emptyEnv
  refine ⟨hpath, hstay.1 _ _ hpath, hscp, ?_⟩
  exact hstay.2.2 _ _ _ _ (.inr hscp) (.inl hnode) (by decide) [".wv", "nodes"] (by decide +kernel)
    (by decide) ["app"] (by decide)

end WeaverSSH.Vfs
