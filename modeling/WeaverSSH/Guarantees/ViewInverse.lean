import WeaverSSH.Vfs.ViewSpec

/-!
# What a view shows and what is meant by it

`SourcePath` undoes the renames of `VisiblePath`, but it cannot tell a path that a rename has
brought to its target from one that has been there all the time.
-/

namespace WeaverSSH.Vfs

open FilePath Rename ViewConfig

section

variable [Unicode] [PathMatch]

/-- The names of where a settled path is shown. -/
lemma ViewConfig.names_visiblePath {cfg view : ViewConfig} (hview : cfg.normalize = .ok view)
    {p v : Text} (hp : Settled p) (hvisible : cfg.visiblePath p = .ok (v, false)) :
    view.isHiddenSource p = false ∧ names v = applyAll view.renames (names p) := by
  obtain ⟨c, hc, hhidden, rfl⟩ := (visiblePath_eq_ok hview).mp hvisible
  obtain rfl : p = c := Except.ok.inj (hp.symm.trans hc)
  have hshown : ∀ name ∈ applyAll view.renames (names p), ViewName name :=
    (foldl_toView (normalize_proper hview) (settled_iff.mp hp).1).2
  exact ⟨hhidden, names_slashed (plain_of_viewName hshown)⟩

/-- **A path comes back** exactly where its renames are undone, if nothing is trimmed of where it is
shown. -/
lemma ViewConfig.sourcePath_visiblePath {cfg view : ViewConfig} (hview : cfg.normalize = .ok view)
    {p v : Text} (hp : Settled p) (hv : Settled v) (hvisible : cfg.visiblePath p = .ok (v, false)) :
    cfg.sourcePath v = .ok (p, false) ↔
      undoAll view.renames (applyAll view.renames (names p)) = names p := by
  obtain ⟨hhidden, hshown⟩ := names_visiblePath hview hp hvisible
  have hback : ∀ name ∈ undoAll view.renames (names v), ViewName name :=
    (foldr_toSource (normalize_proper hview) (settled_iff.mp hv).1).2
  rw [sourcePath_eq_ok hview, ← hshown]
  constructor
  · rintro ⟨c, hc, hpath, -⟩
    obtain rfl : v = c := Except.ok.inj (hv.symm.trans hc)
    have hnames := congrArg names hpath
    rw [names_slashed (plain_of_viewName hback)] at hnames
    exact hnames.symm
  · intro hnames
    exact ⟨v, hv, by rw [hnames, slashed_names], hhidden.symm⟩

/-- **What a view shows comes back**, where nothing is trimmed of a path and of where it is shown,
exactly if its renames are undone. They are undone for a path that no rename captures on its way,
and where no rename is of a part of what another one renames for no other; and no two paths that
come back are shown under one. -/
theorem view_inverts {cfg view : ViewConfig} (hview : cfg.normalize = .ok view) {p v : Text}
    (hp : Settled p) (hv : Settled v) (hvisible : cfg.visiblePath p = .ok (v, false)) :
    (cfg.sourcePath v = .ok (p, false) ↔
      undoAll view.renames (applyAll view.renames (names p)) = names p) ∧
    (Clear view.renames (names p) → cfg.sourcePath v = .ok (p, false)) ∧
    ((view.renames.Pairwise fun q q' => Apart q.source q'.source) →
      (cfg.sourcePath v = .ok (p, false) ↔ Clear view.renames (names p))) ∧
    ∀ p', Settled p' → cfg.visiblePath p' = .ok (v, false) → Clear view.renames (names p) →
      Clear view.renames (names p') → p' = p := by
  have hreturns {p : Text} (hp : Settled p) (hvisible : cfg.visiblePath p = .ok (v, false)) :=
    ViewConfig.sourcePath_visiblePath hview hp hv hvisible
  refine ⟨hreturns hp hvisible, fun hclear => (hreturns hp hvisible).mpr (undoAll_applyAll hclear),
    fun hapart => (hreturns hp hvisible).trans (undoAll_applyAll_iff hapart),
    fun p' hp' hvisible' hclear hclear' => ?_⟩
  have hback := (hreturns hp hvisible).mpr (undoAll_applyAll hclear)
  have hback' := (hreturns hp' hvisible').mpr (undoAll_applyAll hclear')
  exact congrArg Prod.fst (Except.ok.inj (hback'.symm.trans hback))

end

/-! ## A view in which two paths meet -/

/-- No pattern with signs for other characters matches anything. -/
@[reducible]
def noGlobs : PathMatch := ⟨fun _ _ => false⟩

attribute [local instance] asciiCase noGlobs

/-- A view that shows `a` as `b`. -/
def renamingView : ViewConfig where
  version := viewVersion
  rules := [⟨viewActionRename, "a", "b"⟩]

theorem view_inverts_renamed : renamingView.sourcePath "b/x" = .ok ("a/x", false) := by
  have hview : renamingView.normalize = .ok renamingView := by decide +kernel
  have hvisible : renamingView.visiblePath "a/x" = .ok ("b/x", false) := by decide +kernel
  refine (view_inverts hview (by decide +kernel) (by decide +kernel) hvisible).2.1 ?_
  exact ⟨fun hcaptures => hcaptures.2 (by decide +kernel), trivial⟩

/-- **Two paths under one name**: both `a` and `b` are shown as `b`, and `b` is taken for `a`; and a
name with a blank at its end is taken for one without. -/
theorem view_captures :
    renamingView.visiblePath "a" = .ok ("b", false) ∧
    renamingView.visiblePath "b" = .ok ("b", false) ∧
    renamingView.sourcePath "b" = .ok ("a", false) ∧
    defaultView.visiblePath "x " = .ok ("x", false) ∧
    defaultView.sourcePath "x" = .ok ("x", false) := by
  decide +kernel

end WeaverSSH.Vfs
