import Mathlib.Data.List.ReduceOption
import WeaverSSH.Vfs.ViewSpec

/-!
# Listings of a view over a tree

The published tree tells the entries of each of its directories. A listing of the view is made of
those of one directory of the tree, the one that is meant by the path (`cmdLs` of `vfscli`, and
`Readdir` of `vfsmount`): `mem_listing` says which entries it has.
-/

namespace WeaverSSH.Vfs

open FilePath Rename ViewConfig List

/-- The published tree: the entries of each directory, which are told apart by their names. -/
structure SourceTree where
  list : List Text → Option (List DirEntry)
  root : (list []).isSome = true
  named : ∀ d es, list d = some es → ∀ e ∈ es, ViewName e.name
  distinct : ∀ d es, list d = some es → (es.map DirEntry.name).Nodup
  inside : ∀ d name, (list (d ++ [name])).isSome = true →
    ∃ es, list d = some es ∧ ∃ e ∈ es, e.name = name ∧ e.isDir = true

def SourceTree.Entry (tree : SourceTree) (ns : List Text) : Prop :=
  ∃ d es e, tree.list d = some es ∧ e ∈ es ∧ ns = d ++ [e.name]

def SourceTree.flat (es : List DirEntry) (hnamed : ∀ e ∈ es, ViewName e.name)
    (hdistinct : (es.map DirEntry.name).Nodup) : SourceTree where
  list d := if d = [] then some es else none
  root := rfl
  named d es' h e he := by
    split_ifs at h
    obtain rfl := Option.some.inj h
    exact hnamed e he
  distinct d es' h := by
    split_ifs at h
    obtain rfl := Option.some.inj h
    exact hdistinct
  inside d name h := by
    rw [if_neg (append_ne_nil_of_right_ne_nil _ (cons_ne_nil _ _))] at h
    cases h

/-- `joinRel` of `vfsmount`. -/
def joinRel (parent name : Text) : Text := if parent = [] then name else parent ++ slash :: name

inductive ListErr where
  | view (err : ViewErr)
  | hidden
  | notFound
deriving DecidableEq, Repr

section

variable [Unicode] [PathMatch]

def ViewConfig.listing (view : ViewConfig) (tree : SourceTree) (viewRel : Text) :
    Except ListErr (List ViewEntry) := do
  let source ← (view.sourcePath viewRel).mapError .view
  require (!source.2) .hidden
  let entries ← (tree.list (names source.1)).elim (.error .notFound) .ok
  (view.listEntries source.1 viewRel entries).mapError .view

end

/-! ## Paths of the tree -/

variable {d : List Text}

namespace SourceTree

variable {tree : SourceTree} {es : List DirEntry}

lemma entry_of_list (h : tree.list d = some es) : d = [] ∨ tree.Entry d := by
  induction d using reverseRecOn with
  | nil => exact .inl rfl
  | append_singleton d name _ =>
    obtain ⟨es', hes', e, he, rfl, -⟩ := tree.inside d name (by rw [h]; rfl)
    exact .inr ⟨d, es', e, hes', he, rfl⟩

lemma Entry.viewName {ns : List Text} (h : tree.Entry ns) : ∀ name ∈ ns, ViewName name := by
  induction ns using reverseRecOn with
  | nil => exact nofun
  | append_singleton d name ih =>
    obtain ⟨d', es, e, hes, he, heq⟩ := h
    obtain ⟨rfl, hname⟩ := append_inj' heq rfl
    obtain rfl : name = e.name := singleton_inj.mp hname
    have hlast : ∀ n ∈ [e.name], ViewName n := by
      intro n hn
      rw [mem_singleton.mp hn]
      exact tree.named d es hes e he
    rcases entry_of_list hes with rfl | hd
    · exact hlast
    · exact forall_mem_append.mpr ⟨ih hd, hlast⟩

/-- Every path of the tree is one that `cleanViewRel` leaves as it is. -/
def Tidy (tree : SourceTree) : Prop := ∀ ns, tree.Entry ns → Settled (slashed ns)

lemma Tidy.dir (h : tree.Tidy) (hd : tree.list d = some es) : Settled (slashed d) := by
  rcases entry_of_list hd with rfl | hentry
  · exact show Settled [] by decide
  · exact h d hentry

end SourceTree

lemma joinRel_slashed {name : Text} (hd : ∀ n ∈ d, Plain n) :
    joinRel (slashed d) name = slashed (d ++ [name]) := by
  unfold joinRel
  by_cases hnil : d = []
  · rw [hnil, nil_append, slashed_singleton]
    rfl
  · rw [if_neg fun h => hnil ((slashed_eq_nil fun n hn => (hd n hn).1).mp h),
      slashed_append hnil (cons_ne_nil _ _), slashed_singleton]

/-! ## Entries of listings -/

section

variable [Unicode] [PathMatch]

/-- The entry of a listing of `w` that an entry of the directory `d` becomes: none where it is
hidden or shown elsewhere. -/
def ViewConfig.shown (view : ViewConfig) (d w : List Text) (e : DirEntry) : Option ViewEntry :=
  if view.isHiddenSource (slashed (d ++ [e.name])) = false ∧
      (applyAll view.renames (d ++ [e.name])).dropLast = w then
    some ⟨slashed (d ++ [e.name]), slashed (applyAll view.renames (d ++ [e.name])),
      { e with name := (applyAll view.renames (d ++ [e.name])).getLast?.getD [] }⟩
  else none

variable {view : ViewConfig} {w : List Text}

/-- **What becomes of an entry** of a directory. -/
lemma ViewConfig.projectEntry_slashed (hview : view.normalize = .ok view)
    {e : DirEntry} (hpath : Settled (slashed (d ++ [e.name])))
    (hnames : ∀ name ∈ d ++ [e.name], ViewName name) (hw : ∀ name ∈ w, ViewName name) :
    view.projectEntry (slashed d) (slashed w) e = .ok (view.shown d w e) := by
  have hplain := plain_of_viewName hnames
  have hchild : joinViewRel (slashed d) e.name = slashed (d ++ [e.name]) := by
    have hjoin := joinViewRel_slashed (forall_mem_append.mp hplain).1
        (forall_mem_append.mp hplain).2
    rwa [slashed_singleton] at hjoin
  unfold projectEntry shown
  rw [hchild]
  dsimp only
  rw [visiblePath_slashed hview hpath hnames]
  cases hhidden : view.isHiddenSource (slashed (d ++ [e.name])) with
  | true =>
    rw [if_pos rfl, ok_bind]
    dsimp only
    rw [if_pos (.inl rfl), if_neg fun h => Bool.noConfusion h.1]
  | false =>
    have hshown : ∀ name ∈ applyAll view.renames (d ++ [e.name]), ViewName name :=
      (foldl_toView (normalize_proper hview) hnames).2
    have hne : applyAll view.renames (d ++ [e.name]) ≠ [] :=
      applyAll_ne_nil (fun q hq => (renames_proper hview q hq).target_ne)
        (append_ne_nil_of_right_ne_nil _ (cons_ne_nil _ _))
    generalize applyAll view.renames (d ++ [e.name]) = shown at hshown hne
    obtain ⟨parent, name, rfl⟩ := (eq_nil_or_concat' shown).resolve_left hne
    have hparent : ∀ n ∈ parent, Plain n := fun n hn => (hshown n (mem_append_left _ hn)).plain
    have hsplit := splitViewRel_slashed (plain_of_viewName hshown)
    rw [ok_bind, if_neg Bool.false_ne_true, dropLast_concat, getLast?_concat]
    dsimp only
    rw [hsplit]
    dsimp only
    by_cases hsame : parent = w
    · have hhere : ¬ (false = true ∨ slashed parent ≠ slashed w) := by
        rintro (h | h)
        · cases h
        · exact h (congrArg slashed hsame)
      rw [if_neg hhere, if_pos ⟨rfl, hsame⟩]
      rfl
    · have helsewhere : slashed parent ≠ slashed w := fun h =>
        hsame (slashed_inj hparent (plain_of_viewName hw) h)
      rw [if_pos (.inr helsewhere), if_neg fun h => hsame h.2]

variable {tree : SourceTree} {out : List ViewEntry}

lemma ViewConfig.cleanViewRel_of_mem_listing {w : Text}
    (hout : view.listing tree w = .ok out) {e : ViewEntry} (he : e ∈ out) :
    cleanViewRel w = .ok (splitViewRel e.viewPath).1 := by
  unfold listing listEntries at hout
  simp only [bind_eq_ok, mapError_eq_ok, pure_eq_ok] at hout
  obtain ⟨-, -, -, -, entries, -, cfg, -, sourceParent, -, viewParent, hparent, projected,
    hprojected, rfl⟩ := hout
  obtain ⟨source, -, hentry⟩ :=
    exists_of_mem_right (mapM_eq_ok.mp hprojected) (reduceOption_mem_iff.mp he)
  unfold projectEntry at hentry
  dsimp only at hentry
  simp only [bind_eq_ok] at hentry
  obtain ⟨⟨viewChild, hidden⟩, -, hentry⟩ := hentry
  dsimp only at hentry
  split_ifs at hentry with helsewhere
  · cases hentry
  · obtain rfl := Option.some.inj (Except.ok.inj hentry)
    rw [not_or, not_not] at helsewhere
    rw [hparent]
    exact congrArg Except.ok helsewhere.2.symm

lemma ViewConfig.sourcePath_slashed (hview : view.normalize = .ok view)
    (hw : ∀ name ∈ w, ViewName name) (hsettled : Settled (slashed w)) :
    view.sourcePath (slashed w) = .ok (slashed (undoAll view.renames w),
      view.isHiddenSource (slashed (undoAll view.renames w))) ∧
    (∀ name ∈ undoAll view.renames w, ViewName name) ∧
      Settled (slashed (undoAll view.renames w)) := by
  have hnames : names (slashed w) = w := names_slashed (plain_of_viewName hw)
  have hmeant : ∀ name ∈ undoAll view.renames w, ViewName name :=
    (foldr_toSource (normalize_proper hview) hw).2
  refine ⟨(sourcePath_eq_ok hview).mpr ⟨slashed w, hsettled, by rw [hnames], rfl⟩, hmeant, ?_⟩
  have hsnug := (settled_iff.mp hsettled).2
  rw [hnames] at hsnug
  refine settled_iff.mpr ?_
  rw [names_slashed (plain_of_viewName hmeant)]
  refine ⟨hmeant, hsnug.undoAll fun q hq => ?_⟩
  exact ⟨(snug_renames hview q hq).1, (renames_proper hview q hq).source_ne⟩

/-- **A listing** of a directory of the view, over a tree without blanks around its paths. -/
theorem ViewConfig.listing_eq_ok (hview : view.normalize = .ok view) (htidy : tree.Tidy)
    {w : Text} :
    view.listing tree w = .ok out ↔ ∃ c, cleanViewRel w = .ok c ∧
      view.isHiddenSource (slashed (undoAll view.renames (names c))) = false ∧
        ∃ es, tree.list (undoAll view.renames (names c)) = some es ∧
          out = es.filterMap (view.shown (undoAll view.renames (names c)) (names c)) := by
  have hlist {c : Text} (hc : cleanViewRel w = .ok c) {d : List Text} {es : List DirEntry}
      (hes : tree.list d = some es) :
      view.listEntries (slashed d) w es = .ok (es.filterMap (view.shown d (names c))) := by
    have hentries : es.mapM (view.projectEntry (slashed d) (slashed (names c))) =
        .ok (es.map (view.shown d (names c))) := by
      refine mapM_eq_ok.mpr (forall₂_map_right_iff.mpr (forall₂_same.mpr fun e he => ?_))
      have hentry : tree.Entry (d ++ [e.name]) := ⟨d, es, e, hes, he, rfl⟩
      exact projectEntry_slashed hview (htidy _ hentry) hentry.viewName (names_of_cleanViewRel hc)
    rw [slashed_names] at hentries
    unfold listEntries
    rw [hview, htidy.dir hes, hc]
    show (es.mapM (view.projectEntry (slashed d) c) >>= fun projected =>
        .ok projected.reduceOption) = _
    rw [hentries, ok_bind, reduceOption, filterMap_map]
    rfl
  have hmeant {c : Text} (hc : cleanViewRel w = .ok c) :
      names (slashed (undoAll view.renames (names c))) = undoAll view.renames (names c) :=
    names_slashed fun name hname =>
      ((foldr_toSource (normalize_proper hview) (names_of_cleanViewRel hc)).2 name hname).plain
  unfold listing
  simp only [mapError_eq_ok, bind_eq_ok, require_eq_ok, elim_eq_ok, Bool.not_eq_true', Prod.exists,
    sourcePath_eq_ok hview]
  constructor
  · rintro ⟨_, _, ⟨c, hc, rfl, rfl⟩, -, hhidden, es, hes, hout⟩
    rw [hmeant hc] at hes
    exact ⟨c, hc, hhidden, es, hes, Except.ok.inj (hout.symm.trans (hlist hc hes))⟩
  · rintro ⟨c, hc, hhidden, es, hes, rfl⟩
    exact ⟨_, _, ⟨c, hc, rfl, rfl⟩, (), hhidden, es, (hmeant hc).symm ▸ hes, hlist hc hes⟩

end

end WeaverSSH.Vfs
