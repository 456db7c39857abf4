import WeaverSSH.Guarantees.References
import WeaverSSH.Guarantees.ViewDownload

/-!
# Copies into the VFS and the view

The destination of a copy is looked up in the view once; below it the names of the local tree are
put behind the path that is shown and behind the path of the tree alike. That is where the view
would look for them as long as no rename has its target on the way. The view that a copy has was
normalised when it was loaded, and `SourcePath` normalises it once more, which may change it.
-/

namespace WeaverSSH.Vfs

open FilePath Progress Rename WeaverSSH.Action List ViewConfig

/-- The paths of the view and of the tree are the same names below those of a destination. -/
def Parallel (viewDst sourceDst : List Text) (source view : Text) : Prop :=
  ∃ rest, (∀ name ∈ rest, ViewName name) ∧ view = slashed (viewDst ++ rest) ∧
    source = slashed (sourceDst ++ rest)

lemma Parallel.joinRel {viewDst sourceDst : List Text} {source view name : Text}
    (hview : ∀ n ∈ viewDst, Plain n) (hsource : ∀ n ∈ sourceDst, Plain n)
    (h : Parallel viewDst sourceDst source view) (hname : ViewName name) :
    Parallel viewDst sourceDst (joinRel source name) (joinRel view name) := by
  obtain ⟨rest, hrest, rfl, rfl⟩ := h
  have hplain := plain_of_viewName hrest
  refine ⟨rest ++ [name], forall_mem_append.mpr ⟨hrest, ?_⟩, ?_, ?_⟩
  · intro n hn
    rwa [mem_singleton.mp hn]
  · rw [joinRel_slashed (forall_mem_append.mpr ⟨hview, hplain⟩), append_assoc]
  · rw [joinRel_slashed (forall_mem_append.mpr ⟨hsource, hplain⟩), append_assoc]

section

variable [PathMatch]

/-- What is made is for a path that is not hidden, is that path or the directory it is in, and lies
as far below the destination in the tree as in the view, if the copy was `told` a name to begin
with. -/
structure Creation.Placed (view : ViewConfig) (told : Prop) (viewDst sourceDst : List Text)
    (c : Creation) : Prop where
  shown : view.isHiddenSource c.source = false
  path : c.path = c.source ∨ c.path = (splitRel c.source).1
  parallel : told → Parallel viewDst sourceDst c.source c.view

namespace Copier

variable {cp : Copier} {told : Prop} {viewDst sourceDst : List Text}

lemma fileToVFS_placed {localPath sourceRel viewRel : Text}
    (h : told → Parallel viewDst sourceDst sourceRel viewRel) :
    Keeps (Only (Creation.Placed cp.view told viewDst sourceDst))
      (cp.fileToVFS localPath sourceRel viewRel) := by
  refine keeps_demand_bind fun hshown => ?_
  rw [Bool.not_eq_true'] at hshown
  refine keeps_run ?_
  refine keeps_bind (keeps_ask _ _) fun data => ?_
  have hfile : Keeps (Only (Creation.Placed cp.view told viewDst sourceDst))
      (make ⟨sourceRel, sourceRel, viewRel⟩ (cp.c.writeFile · sourceRel data)
        (CopyErr.write sourceRel)) :=
    keeps_make ⟨hshown, .inl rfl, h⟩ _ _
  refine keeps_ite (fun _ => ?_) fun _ => hfile
  exact keeps_bind (keeps_make ⟨hshown, .inr rfl, h⟩ _ _) fun _ => hfile

/-- **A directory**: what is made lies below its path in the tree as below that in the view. -/
lemma dirToVFS_placed (hview : ∀ n ∈ viewDst, Plain n) (hsource : ∀ n ∈ sourceDst, Plain n)
    (depth : ℕ)
    {localDir sourceRel viewRel : Text} (h : told → Parallel viewDst sourceDst sourceRel viewRel) :
    Keeps (Only (Creation.Placed cp.view told viewDst sourceDst))
      (cp.dirToVFS depth localDir sourceRel viewRel) := by
  induction depth generalizing localDir sourceRel viewRel with
  | zero => exact keeps_fail _
  | succ depth ih =>
    refine keeps_demand_bind fun hshown => ?_
    rw [Bool.not_eq_true'] at hshown
    refine keeps_bind (keeps_make ⟨hshown, .inl rfl, h⟩ _ _) fun _ => ?_
    refine keeps_ask_bind fun n entries hentries => ?_
    refine keeps_forM fun e he => ?_
    have hchild (htold : told) : Parallel viewDst sourceDst (joinRel sourceRel e.1)
        (joinRel viewRel e.1) :=
      (h htold).joinRel hview hsource (cp.disk.named n localDir entries hentries e he)
    refine keeps_ite (fun _ => keeps_pure _) fun _ => ?_
    exact keeps_ite (fun _ => ih hchild) fun _ => fileToVFS_placed hchild

end Copier

end

/-! ## Destinations -/

lemma settled_of_segments {segs : List Text} (h : ∀ seg ∈ segs, Segment seg) {c : Text}
    (hc : cleanViewRel (slashed segs) = .ok c) :
    (∀ seg ∈ segs, ViewName seg) ∧ Settled (slashed segs) := by
  have hplain : ∀ seg ∈ segs, Plain seg := fun seg hseg => (h seg hseg).plain
  have hsnug : Snug segs := by
    constructor
    · intro seg hseg
      exact (trim_eq_self_iff.mp (h seg (mem_of_mem_head? hseg)).trimmed).1
    · intro seg hseg
      exact (trim_eq_self_iff.mp (h seg (mem_of_mem_getLast? hseg)).trimmed).2
  have hspace := (trimSpace_slashed_iff fun seg hseg => (hplain seg hseg).1).mpr hsnug
  have hnames : ∀ seg ∈ segs, ViewName seg := by
    refine fun seg hseg => ⟨hplain seg hseg, fun hnul => ?_⟩
    have hmem := mem_slashed hseg hnul
    have hempty : ¬ (slashed segs = [] ∨ slashed segs = dot) := by
      rintro (hnil | hdot)
      · rw [hnil] at hmem
        cases hmem
      · rw [hdot] at hmem
        exact absurd hmem (by decide)
    unfold cleanViewRel at hc
    dsimp only at hc
    rw [hspace, trimSlashes_slashed hplain, if_neg hempty, if_pos hmem] at hc
    cases hc
  exact ⟨hnames, cleanViewRel_slashed hnames hsnug⟩

section

variable [CharClasses] [Addresses] [Unicode] [PathMatch] {view : ViewConfig} {cp : Copier}
  {env : Env}

lemma Copier.resolveViewRef_names (hview : cp.view.normalize = .ok view)
    {ref viewRel sourceRel : Text} (h : cp.resolveViewRef env ref = .ok (viewRel, sourceRel)) :
    (∀ name ∈ names viewRel, ViewName name) ∧ Settled viewRel ∧
      sourceRel = slashed (undoAll view.renames (names viewRel)) := by
  unfold Copier.resolveViewRef at h
  simp only [bind_eq_ok, mapError_eq_ok, pure_eq_ok, Prod.mk.injEq] at h
  obtain ⟨_, hpath, ⟨source, hidden⟩, hsource, _, -, rfl, rfl⟩ := h
  obtain ⟨segs, rfl, hsegs⟩ := parsePath_segments hpath
  obtain ⟨c, hc, hmeant, -⟩ := (sourcePath_eq_ok hview).mp hsource
  obtain ⟨hnames, hsettled⟩ := settled_of_segments hsegs hc
  obtain rfl : slashed segs = c := Except.ok.inj (hsettled.symm.trans hc)
  exact ⟨(settled_iff.mp hsettled).1, hsettled, hmeant⟩

/-! ## Whole copies -/

lemma Copier.toVFS_placed (hview : cp.view.normalize = .ok view)
    (depth : ℕ) {src dst viewDst sourceDst : Text}
    (hdst : cp.resolveViewRef env dst = .ok (viewDst, sourceDst)) :
    ∀ c ∈ (cp.toVFS env depth src dst {}).2.made,
      c.Placed cp.view (ViewName (base src)) (names viewDst)
      (undoAll view.renames (names viewDst)) := by
  obtain ⟨hnames, -, rfl⟩ := Copier.resolveViewRef_names hview hdst
  have hmeant : ∀ name ∈ undoAll view.renames (names viewDst), ViewName name :=
    (foldr_toSource (normalize_proper hview) hnames).2
  have hplain := plain_of_viewName hnames
  have hplain' := plain_of_viewName hmeant
  have hhere : Parallel (names viewDst) (undoAll view.renames (names viewDst))
      (slashed (undoAll view.renames (names viewDst))) viewDst :=
    ⟨[], nofun, by rw [append_nil, slashed_names], by rw [append_nil]⟩
  refine only_of_keeps ?_ rfl
  unfold Copier.toVFS
  refine keeps_bind (keeps_ask _ _) fun isDir => ?_
  refine keeps_reads_bind fun _ resolved hresolved => ?_
  obtain rfl := Except.ok.inj (hdst.symm.trans hresolved)
  dsimp only
  refine keeps_ite (fun _ => ?_) fun _ => ?_
  · refine keeps_demand_bind fun _ => ?_
    exact Copier.dirToVFS_placed hplain hplain' depth fun hbase =>
      hhere.joinRel hplain hplain' hbase
  · refine keeps_bind (keeps_look _) fun into => ?_
    refine keeps_ite (fun _ => ?_) fun _ => ?_
    · exact Copier.fileToVFS_placed fun hbase => hhere.joinRel hplain hplain' hbase
    · exact Copier.fileToVFS_placed fun _ => hhere

lemma Copier.toVFS_unresolved {depth : ℕ} {src dst : Text} {err : CopyErr}
    (hdst : cp.resolveViewRef env dst = .error err) :
    (cp.toVFS env depth src dst {}).2.made = [] := by
  refine eq_nil_iff_forall_not_mem.mpr (only_of_keeps ?_ rfl)
  refine keeps_bind (keeps_ask _ _) fun isDir => ?_
  refine keeps_reads_bind fun _ resolved hresolved => ?_
  rw [hdst] at hresolved
  cases hresolved

omit [CharClasses] [Addresses] [Unicode] in
lemma Creation.Placed.path_eq {told : Prop} {viewDst sourceDst : List Text} {c : Creation}
    (h : c.Placed view told viewDst sourceDst) {ns : List Text} (hns : ∀ name ∈ ns, Plain name)
    (hsource : c.source = slashed ns) : ∃ a, a <+: ns ∧ c.path = slashed a := by
  rcases h.path with hsame | hparent
  · exact ⟨ns, prefix_refl _, hsame.trans hsource⟩
  · rw [hsource] at hparent
    rcases eq_nil_or_concat' ns with rfl | ⟨init, last, rfl⟩
    · exact ⟨[], prefix_refl _, hparent⟩
    · have hsplit : splitRel (slashed (init ++ [last])) = (slashed init, last) :=
        splitViewRel_slashed hns
      rw [hsplit] at hparent
      exact ⟨init, prefix_append _ _, hparent⟩

omit [CharClasses] [Addresses] in
lemma ViewConfig.sourcePath_below (hview : view.normalize = .ok view) {p rest : List Text}
    (hp : ∀ name ∈ p, ViewName name) (hrest : ∀ name ∈ rest, ViewName name)
    (hsettled : Settled (slashed (p ++ rest)))
    (hshown : view.isHiddenSource (slashed (undoAll view.renames p ++ rest)) = false) :
    view.sourcePath (slashed (p ++ rest)) = .ok (slashed (undoAll view.renames p ++ rest), false) ↔
      undoAll view.renames (p ++ rest) = undoAll view.renames p ++ rest := by
  have hnames : ∀ name ∈ p ++ rest, ViewName name := forall_mem_append.mpr ⟨hp, hrest⟩
  obtain ⟨hsource, hmeant, -⟩ := sourcePath_slashed hview hnames hsettled
  have hbelow : ∀ name ∈ undoAll view.renames p ++ rest, ViewName name :=
    forall_mem_append.mpr ⟨(foldr_toSource (normalize_proper hview) hp).2, hrest⟩
  rw [hsource]
  constructor
  · intro h
    refine slashed_inj (plain_of_viewName hmeant)
      (plain_of_viewName hbelow) ?_
    exact congrArg Prod.fst (Except.ok.inj h)
  · intro h
    rw [h, hshown]

end

/-! ## A rename below the destination -/

namespace Copier

attribute [local instance] asciiCase asciiClasses noAddresses noGlobs

/-- A view that shows `d/a` as `d/b`. -/
def nestedView : ViewConfig where
  version := viewVersion
  rules := [⟨viewActionRename, "d/a", "d/b"⟩]

def fileDisk : Disk :=
  { emptyDisk with stat := fun _ _ => some false, readFile := fun _ _ => some [1] }

/-- A copier with such a view and such a disk, to a server with directories only. -/
def fileCopier (view : ViewConfig) : Copier := ⟨listingClient [], fileDisk, true, view, {}⟩

/-- A view that hides `h `, if it is normalised, and `h`, if it is normalised again. -/
def hidingView : ViewConfig where
  version := viewVersion
  rules := [⟨viewActionHide, "h / ", []⟩]

end Copier

end WeaverSSH.Vfs
