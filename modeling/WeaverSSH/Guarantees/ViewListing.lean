import WeaverSSH.Guarantees.ViewInverse
import WeaverSSH.Vfs.Tree

/-!
# Listings and lookups of a view

A listing of the view is made of one directory of the tree, while a rename may take an entry into
any directory: then it is in no listing. Where a rename captures a path a listing has two entries of
one name, or one that leads elsewhere.
-/

namespace WeaverSSH.Vfs

open FilePath Rename List ViewConfig

variable {ns : List Text}

section

variable [PathMatch]

/-- Listings and lookups agree: what is visible is listed in the directory of the path that it is
shown under, an entry of a listing is found as the path that it was made from, by the path that the
listing gives it, which is that of its name in the directory, and no name is listed twice. -/
structure ViewConfig.Agrees [Unicode] (view : ViewConfig) (tree : SourceTree) : Prop where
  listed : ∀ ns v, tree.Entry ns → view.visiblePath (slashed ns) = .ok (v, false) →
    ∃ es, view.listing tree (splitViewRel v).1 = .ok es ∧ ∃ e ∈ es, e.sourcePath = slashed ns ∧
      e.viewPath = v
  found : ∀ w es, view.listing tree w = .ok es → ∀ e ∈ es,
    view.sourcePath e.viewPath = .ok (e.sourcePath, false) ∧
      (Settled w → joinRel w e.entry.name = e.viewPath)
  distinct : ∀ w es, view.listing tree w = .ok es → (es.map (·.entry.name)).Nodup

def ViewConfig.Shows (view : ViewConfig) (tree : SourceTree) (ns : List Text) : Prop :=
  tree.Entry ns ∧ view.isHiddenSource (slashed ns) = false

/-- The renames take a path back, and the directory that it is shown in back to its directory. -/
structure ViewConfig.Returns (view : ViewConfig) (ns : List Text) : Prop where
  path : undoAll view.renames (applyAll view.renames ns) = ns
  settled : Settled (slashed (applyAll view.renames ns).dropLast)
  dir : undoAll view.renames (applyAll view.renames ns).dropLast = ns.dropLast

variable {view : ViewConfig} {tree : SourceTree}

/-- The directory of a path that is shown is not hidden. -/
lemma ViewConfig.Shows.dir (htidy : tree.Tidy) {d : List Text} {name : Text}
    (h : view.Shows tree (d ++ [name])) :
    ∃ es, tree.list d = some es ∧ (∃ e ∈ es, e.name = name) ∧
      view.isHiddenSource (slashed d) = false := by
  obtain ⟨d', es, e, hes, he, heq⟩ := h.1
  obtain ⟨rfl, hname⟩ := append_inj' heq rfl
  refine ⟨es, hes, ⟨e, he, (singleton_inj.mp hname).symm⟩, ?_⟩
  exact isHiddenSource_append (htidy.dir hes) (htidy _ h.1)
    (plain_of_viewName h.1.viewName) h.2

variable [Unicode] (hview : view.normalize = .ok view) (htidy : tree.Tidy)

include hview htidy

lemma ViewConfig.Shows.visiblePath (h : view.Shows tree ns) :
    view.visiblePath (slashed ns) = .ok (slashed (applyAll view.renames ns), false) := by
  rw [visiblePath_slashed hview (htidy ns h.1) h.1.viewName, h.2]
  rfl

omit [PathMatch] htidy in
/-- Nothing is trimmed of where a path is shown. -/
lemma ViewConfig.settled_applyAll (hnames : ∀ name ∈ ns, ViewName name)
    (hns : Settled (slashed ns)) :
    Settled (slashed (applyAll view.renames ns)) := by
  have hshown : ∀ name ∈ applyAll view.renames ns, ViewName name :=
    (foldl_toView (normalize_proper hview) hnames).2
  rw [settled_iff, names_slashed (plain_of_viewName hnames)] at hns
  rw [settled_iff, names_slashed (plain_of_viewName hshown)]
  exact ⟨hshown, hns.2.applyAll fun q hq =>
    ⟨(snug_renames hview q hq).2, (renames_proper hview q hq).target_ne⟩⟩

lemma ViewConfig.Shows.sourcePath_iff (h : view.Shows tree ns) :
    view.sourcePath (slashed (applyAll view.renames ns)) = .ok (slashed ns, false) ↔
      undoAll view.renames (applyAll view.renames ns) = ns := by
  have hnames : names (slashed ns) = ns := names_slashed (plain_of_viewName h.1.viewName)
  have hreturns := sourcePath_visiblePath hview (htidy ns h.1)
    (settled_applyAll hview h.1.viewName (htidy ns h.1)) (h.visiblePath hview htidy)
  rwa [hnames] at hreturns

lemma ViewConfig.mem_listing {w : Text} {out : List ViewEntry}
    (hout : view.listing tree w = .ok out) {e : ViewEntry} (he : e ∈ out) :
    ∃ c ns, cleanViewRel w = .ok c ∧ view.Shows tree ns ∧
      ns.dropLast = undoAll view.renames (names c) ∧ (applyAll view.renames ns).dropLast = names c ∧
      e.sourcePath = slashed ns ∧ e.viewPath = slashed (applyAll view.renames ns) ∧
      joinRel c e.entry.name = e.viewPath := by
  obtain ⟨c, hc, -, es, hes, rfl⟩ := (listing_eq_ok hview htidy).mp hout
  obtain ⟨source, hsource, hshown⟩ := mem_filterMap.mp he
  unfold shown at hshown
  split_ifs at hshown with hhere
  obtain rfl := Option.some.inj hshown
  have hne : applyAll view.renames (undoAll view.renames (names c) ++ [source.name]) ≠ [] :=
    applyAll_ne_nil (fun q hq => (renames_proper hview q hq).target_ne)
      (append_ne_nil_of_right_ne_nil _ (cons_ne_nil _ _))
  refine ⟨c, _, hc, ⟨⟨_, es, source, hes, hsource, rfl⟩, hhere.1⟩, dropLast_concat, hhere.2, rfl,
    rfl, ?_⟩
  dsimp only
  generalize applyAll view.renames (undoAll view.renames (names c) ++ [source.name]) =
    shown at hhere hne
  obtain ⟨parent, name, rfl⟩ := (eq_nil_or_concat' shown).resolve_left hne
  rw [dropLast_concat] at hhere
  have hjoin : joinRel (slashed (names c)) name = slashed (names c ++ [name]) :=
    joinRel_slashed fun n hn => (names_of_cleanViewRel hc n hn).plain
  rw [slashed_names] at hjoin
  rw [List.getLast?_concat, Option.getD_some, hjoin, hhere.2]

/-- A path that is shown is listed, if the directory that it is shown in is taken to its own. -/
lemma ViewConfig.Shows.listed (h : view.Shows tree ns) (hreturns : view.Returns ns) :
    ∃ es, view.listing tree (splitViewRel (slashed (applyAll view.renames ns))).1 = .ok es ∧
      ∃ e ∈ es, e.sourcePath = slashed ns ∧ e.viewPath = slashed (applyAll view.renames ns) := by
  obtain ⟨d, es₀, e₀, -, -, rfl⟩ := id h.1
  obtain ⟨-, hsettled, hback⟩ := hreturns
  rw [dropLast_concat] at hback
  obtain ⟨es, hes, ⟨e, he, hname⟩, hvisible⟩ := h.dir htidy
  have hne : applyAll view.renames (d ++ [e₀.name]) ≠ [] :=
    applyAll_ne_nil (fun q hq => (renames_proper hview q hq).target_ne)
      (append_ne_nil_of_right_ne_nil _ (cons_ne_nil _ _))
  have hplain : ∀ name ∈ applyAll view.renames (d ++ [e₀.name]), Plain name := fun name hname =>
    ((foldl_toView (normalize_proper hview) h.1.viewName).2 name hname).plain
  have hsplit : (splitViewRel (slashed (applyAll view.renames (d ++ [e₀.name])))).1 =
      slashed (applyAll view.renames (d ++ [e₀.name])).dropLast := by
    generalize applyAll view.renames (d ++ [e₀.name]) = shown at hne hplain
    obtain ⟨parent, name, rfl⟩ := (eq_nil_or_concat' shown).resolve_left hne
    rw [splitViewRel_slashed hplain, dropLast_concat]
  have hnames : names (slashed (applyAll view.renames (d ++ [e₀.name])).dropLast) =
      (applyAll view.renames (d ++ [e₀.name])).dropLast :=
    names_slashed fun name hname => hplain name (mem_of_mem_dropLast hname)
  refine ⟨es.filterMap (view.shown d (applyAll view.renames (d ++ [e₀.name])).dropLast), ?_,
    ⟨slashed (d ++ [e₀.name]), slashed (applyAll view.renames (d ++ [e₀.name])),
      { e with name := (applyAll view.renames (d ++ [e₀.name])).getLast?.getD [] }⟩,
    mem_filterMap.mpr ⟨e, he, ?_⟩, rfl, rfl⟩
  · rw [hsplit, listing_eq_ok hview htidy]
    refine ⟨_, hsettled, ?_⟩
    rw [hnames, hback]
    exact ⟨hvisible, es, hes, rfl⟩
  · unfold shown
    rw [hname, if_pos ⟨h.2, rfl⟩]

/-- Listings and lookups agree exactly where all visible paths are taken back. -/
lemma ViewConfig.agrees_iff : view.Agrees tree ↔ ∀ ns, view.Shows tree ns → view.Returns ns := by
  constructor
  · -- a visible path is listed, found by that entry, and so comes back together with its directory
    intro hagrees ns hshows
    obtain ⟨es, hes, e, he, hsource, hshown⟩ :=
      hagrees.listed ns _ hshows.1 (hshows.visiblePath hview htidy)
    have hclean := cleanViewRel_of_mem_listing hes he
    obtain ⟨c, ns', hc, hshows', hdir, hparent, hsource', hshown', -⟩ :=
      mem_listing hview htidy hes he
    obtain rfl : ns = ns' := slashed_inj (plain_of_viewName hshows.1.viewName)
      (plain_of_viewName hshows'.1.viewName) (hsource.symm.trans hsource')
    have hfound := (hagrees.found _ es hes e he).1
    rw [hshown', hsource'] at hfound
    refine ⟨(hshows.sourcePath_iff hview htidy).mp hfound, ?_, by rw [hparent, hdir]⟩
    rw [hparent, slashed_names]
    rw [hc, hshown] at hclean
    rwa [← Except.ok.inj hclean] at hc
  · intro hreturns
    have hfound : ∀ w es, view.listing tree w = .ok es → ∀ e ∈ es,
        view.sourcePath e.viewPath = .ok (e.sourcePath, false) ∧
          (Settled w → joinRel w e.entry.name = e.viewPath) := by
      intro w es hes e he
      obtain ⟨c, ns, hc, hshows, -, -, hsource, hshown, hjoin⟩ := mem_listing hview htidy hes he
      refine ⟨?_, fun hw => ?_⟩
      · rw [hshown, hsource]
        exact (hshows.sourcePath_iff hview htidy).mpr (hreturns ns hshows).path
      · rwa [← Except.ok.inj (hw.symm.trans hc)] at hjoin
    refine ⟨fun ns v hentry hvisible => ?_, hfound, fun w es hes => ?_⟩
    · obtain ⟨c, hc, hhidden, rfl⟩ := (visiblePath_eq_ok hview).mp hvisible
      obtain rfl : slashed ns = c := Except.ok.inj ((htidy ns hentry).symm.trans hc)
      rw [names_slashed (plain_of_viewName hentry.viewName)]
      exact ViewConfig.Shows.listed hview htidy ⟨hentry, hhidden⟩ (hreturns ns ⟨hentry, hhidden⟩)
    · -- two entries of one name would be found as one path
      obtain ⟨c, hc, -, entries, hentries, rfl⟩ := (listing_eq_ok hview htidy).mp hes
      have hnodup := pairwise_map.mp (tree.distinct _ _ hentries)
      refine pairwise_map.mpr (pairwise_filterMap.mpr (hnodup.imp_of_mem ?_))
      intro a b ha hb hne x hx y hy hsame
      have hx' := mem_filterMap.mpr ⟨a, ha, hx⟩
      have hy' := mem_filterMap.mpr ⟨b, hb, hy⟩
      obtain ⟨cx, -, hcx, -, -, -, -, -, hjx⟩ := mem_listing hview htidy hes hx'
      obtain ⟨cy, -, hcy, -, -, -, -, -, hjy⟩ := mem_listing hview htidy hes hy'
      obtain rfl := Except.ok.inj (hcx.symm.trans hcy)
      have hview : x.viewPath = y.viewPath := hjx.symm.trans ((congrArg _ hsame).trans hjy)
      have hlooked := (hfound w _ hes x hx').1
      rw [hview, (hfound w _ hes y hy').1] at hlooked
      have hpath : y.sourcePath = x.sourcePath := congrArg Prod.fst (Except.ok.inj hlooked)
      have hsource {e : DirEntry} {v : ViewEntry}
          (hv : view.shown (undoAll view.renames (names c)) (names c) e = some v) :
          v.sourcePath = slashed (undoAll view.renames (names c) ++ [e.name]) := by
        unfold shown at hv
        split_ifs at hv
        rw [← Option.some.inj hv]
      have hplain {e : DirEntry} (he : e ∈ entries) :
          ∀ name ∈ undoAll view.renames (names c) ++ [e.name], Plain name := fun name hname =>
        (SourceTree.Entry.viewName ⟨_, entries, e, hentries, he, rfl⟩ name hname).plain
      rw [hsource hx, hsource hy] at hpath
      have hnames := append_cancel_left (slashed_inj (hplain hb) (hplain ha) hpath)
      exact hne (singleton_inj.mp hnames).symm

/-- **Listings and lookups agree** over a tree without blanks around its paths exactly where the
renames take every visible path back, and the directory that it is shown in back to its directory;
and for renames that have nothing to do with one another exactly where no visible path lies within a
target and every rename of a visible path keeps its directory. -/
theorem listings_agree : (view.Agrees tree ↔ ∀ ns, view.Shows tree ns → view.Returns ns) ∧
    (Separate view.renames → (view.Agrees tree ↔
      (∀ ns, view.Shows tree ns → ∀ q ∈ view.renames, ¬ q.target <+: ns) ∧
        ∀ q ∈ view.renames, view.Shows tree q.source → q.source.dropLast = q.target.dropLast)) := by
  have hagrees : view.Agrees tree ↔ ∀ ns, view.Shows tree ns → view.Returns ns :=
    ViewConfig.agrees_iff hview htidy
  refine ⟨hagrees, fun hseparate =>
    hagrees.trans ⟨fun hreturns => ?_, fun ⟨hoff, hdir⟩ ns hshows => ?_⟩⟩
  · have hclear (ns : List Text) (hshows : view.Shows tree ns) : Clear view.renames ns :=
      (undoAll_applyAll_iff hseparate.sources).mp (hreturns ns hshows).path
    exact ⟨fun ns hshows => hseparate.clear_iff.mp (hclear ns hshows), fun q hq hshows =>
      (hseparate.undoAll_dropLast_iff (hclear _ hshows)).mp (hreturns _ hshows).dir q hq rfl⟩
  · have hclear := hseparate.clear_iff.mpr (hoff ns hshows)
    have hkept : ∀ q ∈ view.renames, q.source = ns → q.source.dropLast = q.target.dropLast :=
      fun q hq hsource => hdir q hq (hsource ▸ hshows)
    refine ⟨undoAll_applyAll hclear, ?_, (hseparate.undoAll_dropLast_iff hclear).mpr hkept⟩
    rw [hseparate.applyAll_dropLast_of hkept]
    obtain ⟨d, es, e, hes, -, rfl⟩ := id hshows.1
    rw [dropLast_concat]
    exact settled_applyAll hview (fun name hname =>
      hshows.1.viewName name (mem_append_left _ hname))
      (htidy.dir hes)

end

/-! ## Views whose listings are wrong -/

attribute [local instance] asciiCase noGlobs

def fileNamed (name : String) : DirEntry := ⟨text name, false, 0⟩

/-- A tree with the one file `a`. -/
def oneFile : SourceTree := .flat [fileNamed "a"] (by decide) (by decide)

lemma entry_oneFile (h : oneFile.Entry ns) : ns = [text "a"] := by
  obtain ⟨d, es, e, hes, he, rfl⟩ := h
  change (if d = [] then some [fileNamed "a"] else none) = some es at hes
  split_ifs at hes with hd
  rw [← Option.some.inj hes, mem_singleton] at he
  rw [hd, he]
  rfl

theorem listings_agree_oneFile : renamingView.Agrees oneFile := by
  have hview : renamingView.normalize = .ok renamingView := by decide +kernel
  have htidy : oneFile.Tidy := fun ns hns => entry_oneFile hns ▸ by decide +kernel
  refine (listings_agree hview htidy).1.mpr fun ns hns => ?_
  rw [entry_oneFile hns.1]
  exact ⟨by decide +kernel, by decide +kernel, by decide +kernel⟩

/-- A tree with the files `a` and `b`. -/
def twoFiles : SourceTree := .flat [fileNamed "a", fileNamed "b"] (by decide) (by decide)

/-- A view that shows `a` as `d/a`. -/
def movingView : ViewConfig where
  version := viewVersion
  rules := [⟨viewActionRename, "a", "d/a"⟩]

/-- **Listings that are wrong**: one with two entries of one name, the second of which is found as
the first, and a visible file that is in no listing, since the directory that it is shown in does
not exist. -/
theorem listings_disagree :
    renamingView.listing twoFiles [] =
      .ok [⟨"a", "b", fileNamed "b"⟩, ⟨"b", "b", fileNamed "b"⟩] ∧
    renamingView.sourcePath "b" = .ok ("a", false) ∧
    movingView.visiblePath "a" = .ok ("d/a", false) ∧
    movingView.listing oneFile "d" = .error .notFound ∧
    movingView.listing oneFile [] = .ok [] := by
  decide +kernel

end WeaverSSH.Vfs
