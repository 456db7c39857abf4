import Mathlib.Data.List.Infix
import Mathlib.Data.List.Pairwise

/-!
# Renames of prefixes

A path is a list of names, and a `Rename` puts one prefix in the place of another. A list of renames
is applied in its order and undone in the reverse order.

A path that has a rename's target as a prefix without having come there by it is *captured* when the
rename is undone. A path that no rename captures on its way comes back (`undoAll_applyAll`), and
where no source lies within another one, only such paths do (`undoAll_applyAll_iff`).
-/

namespace WeaverSSH

open List

variable {α : Type*}

/-- Two paths neither of which lies within the other. -/
def Apart (a b : List α) : Prop := ¬ a <+: b ∧ ¬ b <+: a

lemma Apart.symm {a b : List α} (h : Apart a b) : Apart b a := ⟨h.2, h.1⟩

lemma Apart.excludes {a b p : List α} (h : Apart a b) (ha : a <+: p) : ¬ b <+: p := by
  intro hb
  rcases prefix_or_prefix_of_prefix ha hb with hab | hba
  · exact h.1 hab
  · exact h.2 hba

lemma eq_of_prefix {β : Type*} {f : β → List α} {l : List β}
    (h : l.Pairwise fun b b' => Apart (f b) (f b'))
    {b b' : β} (hb : b ∈ l) (hb' : b' ∈ l) {p : List α} (hbegins : f b <+: p)
    (hother : f b' <+: p) : b = b' := by
  induction l with
  | nil => cases hb
  | cons c l ih =>
    obtain ⟨hfirst, hrest⟩ := pairwise_cons.mp h
    rcases mem_cons.mp hb with rfl | hmem
    · rcases mem_cons.mp hb' with rfl | hmem'
      · rfl
      · exact absurd hother ((hfirst b' hmem').excludes hbegins)
    · rcases mem_cons.mp hb' with rfl | hmem'
      · exact absurd hbegins ((hfirst b hmem).excludes hother)
      · exact ih hrest hmem hmem'

structure Rename (α : Type*) where
  source : List α
  target : List α

namespace Rename

/-- No source and no target lies within another source or target. -/
structure Separate (rs : List (Rename α)) : Prop where
  own : ∀ r ∈ rs, Apart r.source r.target
  other : rs.Pairwise fun r r' => Apart r.source r'.source ∧ Apart r.target r'.target ∧
    Apart r.source r'.target ∧ Apart r.target r'.source

namespace Separate

variable {rs : List (Rename α)}

lemma tail {r : Rename α} (h : Separate (r :: rs)) : Separate rs :=
  ⟨fun r' hr' => h.own r' (mem_cons_of_mem _ hr'), (pairwise_cons.mp h.other).2⟩

lemma sources (h : Separate rs) : rs.Pairwise fun r r' => Apart r.source r'.source :=
  h.other.imp And.left

lemma apart (h : Separate rs) {r r' : Rename α} (hr : r ∈ rs) (hr' : r' ∈ rs) :
    Apart r.source r'.target := by
  induction rs with
  | nil => cases hr
  | cons r₀ rs ih =>
    obtain ⟨hfirst, -⟩ := pairwise_cons.mp h.other
    rcases mem_cons.mp hr with rfl | hmem
    · rcases mem_cons.mp hr' with rfl | hmem'
      · exact h.own _ mem_cons_self
      · exact (hfirst r' hmem').2.2.1
    · rcases mem_cons.mp hr' with rfl | hmem'
      · exact (hfirst r hmem).2.2.2.symm
      · exact ih h.tail hmem hmem'

lemma targets (h : Separate rs) : rs.Pairwise fun r r' => Apart r.target r'.target :=
  h.other.imp fun hr => hr.2.1

lemma eq_of_targets (h : Separate rs) {r r' : Rename α} (hr : r ∈ rs) (hr' : r' ∈ rs) {p : List α}
    (htarget : r.target <+: p) (htarget' : r'.target <+: p) : r = r' :=
  eq_of_prefix h.targets hr hr' htarget htarget'

end Separate

variable [DecidableEq α]

def apply (r : Rename α) (p : List α) : List α :=
  if r.source <+: p then r.target ++ p.drop r.source.length else p

def undo (r : Rename α) (p : List α) : List α :=
  if r.target <+: p then r.source ++ p.drop r.target.length else p

def Captures (r : Rename α) (p : List α) : Prop := r.target <+: p ∧ ¬ r.source <+: p

lemma apply_source (r : Rename α) (s : List α) : r.apply (r.source ++ s) = r.target ++ s := by
  rw [apply, if_pos (prefix_append _ _), drop_left]

variable {r : Rename α} {p : List α}

lemma apply_of_not (h : ¬ r.source <+: p) : r.apply p = p := if_neg h

lemma undo_target (r : Rename α) (s : List α) : r.undo (r.target ++ s) = r.source ++ s := by
  rw [undo, if_pos (prefix_append _ _), drop_left]

lemma undo_of_not (h : ¬ r.target <+: p) : r.undo p = p := if_neg h

lemma undo_apply (h : ¬ r.Captures p) : r.undo (r.apply p) = p := by
  by_cases hsource : r.source <+: p
  · obtain ⟨s, rfl⟩ := hsource
    rw [apply_source, undo_target]
  · rw [apply_of_not hsource]
    exact undo_of_not fun htarget => h ⟨htarget, hsource⟩

lemma undo_apply_of_captures (h : r.Captures p) : r.undo (r.apply p) ≠ p := by
  obtain ⟨⟨s, rfl⟩, hsource⟩ := h
  rw [apply_of_not hsource, undo_target]
  intro heq
  exact hsource ⟨s, heq⟩

variable {s : List α}

lemma undo_append (h : r.target <+: p ++ s → r.target <+: p) : r.undo (p ++ s) = r.undo p ++ s := by
  by_cases htarget : r.target <+: p
  · obtain ⟨t, rfl⟩ := htarget
    rw [append_assoc, undo_target, undo_target, append_assoc]
  · rw [undo_of_not htarget, undo_of_not fun hs => htarget (h hs)]

/-! ## Lists of renames -/

def applyAll (rs : List (Rename α)) (p : List α) : List α := rs.foldl (fun p r => r.apply p) p

def undoAll (rs : List (Rename α)) (p : List α) : List α := rs.foldr (fun r p => r.undo p) p

/-- No rename captures the path that the ones before it have made of it. -/
def Clear : List (Rename α) → List α → Prop
  | [], _ => True
  | r :: rs, p => ¬ r.Captures p ∧ Clear rs (r.apply p)

/-- **A path comes back** from where the renames have taken it, if none captures it. -/
lemma undoAll_applyAll {rs : List (Rename α)} (h : Clear rs p) :
    undoAll rs (applyAll rs p) = p := by
  induction rs generalizing p with
  | nil => rfl
  | cons r rs ih =>
    show r.undo (undoAll rs (applyAll rs (r.apply p))) = p
    rw [ih h.2, undo_apply h.1]

lemma applyAll_ne_nil {rs : List (Rename α)} (h : ∀ r ∈ rs, r.target ≠ []) (hp : p ≠ []) :
    applyAll rs p ≠ [] := by
  refine List.foldlRecOn (motive := (· ≠ [])) rs _ hp fun p hp r hr => ?_
  by_cases hsource : r.source <+: p
  · obtain ⟨s, rfl⟩ := hsource
    rw [apply_source]
    exact append_ne_nil_of_left_ne_nil (h r hr) _
  · rwa [apply_of_not hsource]

lemma applyAll_eq_or (rs : List (Rename α)) (p : List α) :
    applyAll rs p = p ∨ ∃ r ∈ rs, r.target <+: applyAll rs p := by
  induction rs generalizing p with
  | nil => exact .inl rfl
  | cons r rs ih =>
    show applyAll rs (r.apply p) = p ∨ _
    rcases ih (r.apply p) with heq | ⟨r', hr', hbegins⟩
    · by_cases hsource : r.source <+: p
      · obtain ⟨s, rfl⟩ := hsource
        refine .inr ⟨r, mem_cons_self, ?_⟩
        show r.target <+: applyAll rs (r.apply (r.source ++ s))
        rw [heq, apply_source]
        exact prefix_append _ _
      · rw [apply_of_not hsource] at heq
        exact .inl (by rw [apply_of_not hsource, heq])
    · exact .inr ⟨r', mem_cons_of_mem _ hr', hbegins⟩

lemma undoAll_eq_or (rs : List (Rename α)) (p : List α) :
    (undoAll rs p = p ∧ ∀ r ∈ rs, ¬ r.target <+: p) ∨ ∃ r ∈ rs, r.source <+: undoAll rs p := by
  induction rs with
  | nil => exact .inl ⟨rfl, nofun⟩
  | cons r rs ih =>
    show (r.undo (undoAll rs p) = p ∧ _) ∨ ∃ r' ∈ r :: rs, r'.source <+: r.undo (undoAll rs p)
    by_cases htarget : r.target <+: undoAll rs p
    · obtain ⟨s, hs⟩ := htarget
      refine .inr ⟨r, mem_cons_self, ?_⟩
      rw [← hs, undo_target]
      exact prefix_append _ _
    · rw [undo_of_not htarget]
      rcases ih with ⟨heq, hnone⟩ | ⟨r', hr', hbegins⟩
      · rw [heq] at htarget
        refine .inl ⟨heq, fun r' hr' => ?_⟩
        rcases mem_cons.mp hr' with rfl | hr'
        · exact htarget
        · exact hnone r' hr'
      · exact .inr ⟨r', mem_cons_of_mem _ hr', hbegins⟩

/-- **Only such paths come back**, where no source of a rename lies within another one. -/
lemma undoAll_applyAll_iff {rs : List (Rename α)}
    (hapart : rs.Pairwise fun r r' => Apart r.source r'.source) :
    undoAll rs (applyAll rs p) = p ↔ Clear rs p := by
  refine ⟨fun h => ?_, undoAll_applyAll⟩
  induction rs generalizing p with
  | nil => trivial
  | cons r rs ih =>
    obtain ⟨hr, hrs⟩ := pairwise_cons.mp hapart
    change r.undo (undoAll rs (applyAll rs (r.apply p))) = p at h
    -- the renames after the first one are undone to what the first one made of the path
    have hback : undoAll rs (applyAll rs (r.apply p)) = r.apply p := by
      generalize hq : undoAll rs (applyAll rs (r.apply p)) = q at h
      by_cases htarget : r.target <+: q
      · obtain ⟨s, rfl⟩ := htarget
        rw [undo_target] at h
        rw [← h, apply_source]
      rw [undo_of_not htarget] at h
      subst h
      by_cases hsource : r.source <+: q
      · rcases undoAll_eq_or rs (applyAll rs (r.apply q)) with ⟨heq, hnone⟩ | ⟨r', hr', hbegins⟩
        · -- nothing was undone, so nothing was renamed either
          rcases applyAll_eq_or rs (r.apply q) with hsame | ⟨r', hr', hbegins⟩
          · exact hq.symm.trans (heq.trans hsame)
          · exact absurd hbegins (hnone r' hr')
        · rw [hq] at hbegins
          exact absurd hbegins ((hr r' hr').excludes hsource)
      · exact (apply_of_not hsource).symm
    rw [hback] at h
    exact ⟨fun hcaptures => undo_apply_of_captures hcaptures h, ih hrs hback⟩

/-- What lies below a path is undone with it, unless a target is on the way there from where the
path is then. -/
def Open : List (Rename α) → List α → List α → Prop
  | [], _, _ => True
  | r :: rs, p, s => (r.target <+: undoAll rs p ++ s → r.target <+: undoAll rs p) ∧ Open rs p s

lemma undoAll_append {rs : List (Rename α)} (h : Open rs p s) :
    undoAll rs (p ++ s) = undoAll rs p ++ s := by
  induction rs with
  | nil => rfl
  | cons r rs ih =>
    show r.undo (undoAll rs (p ++ s)) = r.undo (undoAll rs p) ++ s
    rw [ih h.2, undo_append h.1]

/-! ## Renames that have nothing to do with one another -/

lemma applyAll_of_not {rs : List (Rename α)} (h : ∀ r ∈ rs, ¬ r.source <+: p) :
    applyAll rs p = p := by
  induction rs with
  | nil => rfl
  | cons r rs ih =>
    show applyAll rs (r.apply p) = p
    rw [apply_of_not (h r mem_cons_self), ih fun r' hr' => h r' (mem_cons_of_mem _ hr')]

lemma undoAll_of_not {rs : List (Rename α)} (h : ∀ r ∈ rs, ¬ r.target <+: p) :
    undoAll rs p = p := by
  induction rs with
  | nil => rfl
  | cons r rs ih =>
    show r.undo (undoAll rs p) = p
    rw [ih fun r' hr' => h r' (mem_cons_of_mem _ hr'), undo_of_not (h r mem_cons_self)]

namespace Separate

variable {rs : List (Rename α)}

lemma applyAll_source (h : Separate rs) (hr : r ∈ rs) (s : List α) :
    applyAll rs (r.source ++ s) = r.target ++ s := by
  induction rs with
  | nil => cases hr
  | cons r₀ rs ih =>
    obtain ⟨hfirst, -⟩ := pairwise_cons.mp h.other
    show applyAll rs (r₀.apply (r.source ++ s)) = r.target ++ s
    rcases mem_cons.mp hr with rfl | hr
    · rw [apply_source]
      refine applyAll_of_not fun r' hr' => ?_
      exact (h.apart (mem_cons_of_mem _ hr') mem_cons_self).symm.excludes (prefix_append _ _)
    · rw [apply_of_not ((hfirst r hr).1.symm.excludes (prefix_append _ _)), ih h.tail hr]

lemma undoAll_target (h : Separate rs) (hr : r ∈ rs) (s : List α) :
    undoAll rs (r.target ++ s) = r.source ++ s := by
  induction rs with
  | nil => cases hr
  | cons r₀ rs ih =>
    obtain ⟨hfirst, -⟩ := pairwise_cons.mp h.other
    show r₀.undo (undoAll rs (r.target ++ s)) = r.source ++ s
    rcases mem_cons.mp hr with rfl | hr
    · rw [undoAll_of_not fun r' hr' => (hfirst r' hr').2.1.excludes (prefix_append _ _),
        undo_target]
    · rw [ih h.tail hr]
      exact undo_of_not ((h.apart (mem_cons_of_mem _ hr) mem_cons_self).excludes
        (prefix_append _ _))

variable {p : List α}

lemma clear_iff (h : Separate rs) : Clear rs p ↔ ∀ r ∈ rs, ¬ r.target <+: p := by
  rw [← undoAll_applyAll_iff h.sources]
  constructor
  · rintro hback r hr ⟨s, rfl⟩
    have hstays : applyAll rs (r.target ++ s) = r.target ++ s :=
      applyAll_of_not fun r' hr' => (h.apart hr' hr).symm.excludes (prefix_append _ _)
    rw [hstays, h.undoAll_target hr] at hback
    exact (h.own r hr).1 (append_cancel_right hback ▸ prefix_rfl)
  · intro hnone
    by_cases hsome : ∃ r ∈ rs, r.source <+: p
    · obtain ⟨r, hr, s, rfl⟩ := hsome
      rw [h.applyAll_source hr, h.undoAll_target hr]
    · have hstays : applyAll rs p = p := applyAll_of_not fun r hr hsource => hsome ⟨r, hr, hsource⟩
      rw [hstays, undoAll_of_not hnone]

lemma undoAll_append_iff (h : Separate rs) :
    undoAll rs (p ++ s) = undoAll rs p ++ s ↔ ∀ r ∈ rs, r.target <+: p ++ s → r.target <+: p := by
  constructor
  · intro hbelow r hr htarget
    by_contra hnot
    have hnone : ∀ r' ∈ rs, ¬ r'.target <+: p := fun r' hr' htarget' =>
      hnot (h.eq_of_targets hr' hr (htarget'.trans (prefix_append _ _)) htarget ▸ htarget')
    obtain ⟨t, ht⟩ := htarget
    rw [undoAll_of_not hnone, ← ht, h.undoAll_target hr] at hbelow
    exact (h.own r hr).1 (append_cancel_right hbelow ▸ prefix_rfl)
  · intro hnone
    by_cases hsome : ∃ r ∈ rs, r.target <+: p
    · obtain ⟨r, hr, t, rfl⟩ := hsome
      rw [append_assoc, h.undoAll_target hr, h.undoAll_target hr, append_assoc]
    · have hoff : ∀ r ∈ rs, ¬ r.target <+: p := fun r hr htarget => hsome ⟨r, hr, htarget⟩
      rw [undoAll_of_not hoff, undoAll_of_not fun r hr htarget => hoff r hr (hnone r hr htarget)]

omit [DecidableEq α] in
lemma eq_nil_of_prefix_dropLast {l : List α} (h : l <+: l.dropLast) : l = [] := by
  have hlength := h.length_le
  rw [length_dropLast] at hlength
  exact length_eq_zero_iff.mp (by omega)

/-- **The directory of a path comes back** from the directory of where the renames take the path,
exactly where a rename of the path itself keeps its directory. -/
lemma undoAll_dropLast_iff (h : Separate rs) (hclear : Clear rs p) :
    undoAll rs (applyAll rs p).dropLast = p.dropLast ↔
      ∀ r ∈ rs, r.source = p → r.source.dropLast = r.target.dropLast := by
  have hnone := h.clear_iff.mp hclear
  by_cases hsome : ∃ r ∈ rs, r.source <+: p
  · obtain ⟨r, hr, s, rfl⟩ := hsome
    rw [h.applyAll_source hr]
    have hunique : ∀ r' ∈ rs, r'.source <+: r.source ++ s → r' = r := fun r' hr' hsource =>
      eq_of_prefix h.sources hr' hr hsource (prefix_append _ _)
    by_cases hs : s = []
    · subst hs
      have hshort : ∀ r' ∈ rs, ¬ r'.target <+: r.target.dropLast := by
        intro r' hr' htarget
        obtain rfl := h.eq_of_targets hr' hr (htarget.trans <| dropLast_prefix _) prefix_rfl
        exact (h.own r' hr').2 (eq_nil_of_prefix_dropLast htarget ▸ nil_prefix)
      rw [append_nil, append_nil, undoAll_of_not hshort]
      constructor
      · intro heq r' hr' hsource
        rw [hunique r' hr' (hsource ▸ prefix_append _ _)]
        exact heq.symm
      · intro hall
        exact (hall r hr rfl).symm
    · rw [dropLast_append_of_ne_nil hs, dropLast_append_of_ne_nil hs, h.undoAll_target hr]
      refine ⟨fun _ r' hr' hsource => ?_, fun _ => rfl⟩
      rw [hunique r' hr' (hsource ▸ prefix_rfl)] at hsource
      exact absurd (append_right_eq_self.mp hsource.symm) hs
  · have hstays : applyAll rs p = p := applyAll_of_not fun r hr hsource => hsome ⟨r, hr, hsource⟩
    rw [hstays, undoAll_of_not fun r hr htarget => hnone r hr (htarget.trans <| dropLast_prefix p)]
    refine ⟨fun _ r hr hsource => ?_, fun _ => rfl⟩
    exact absurd ⟨r, hr, hsource ▸ prefix_rfl⟩ hsome

lemma applyAll_dropLast_of (h : Separate rs)
    (hdir : ∀ r ∈ rs, r.source = p → r.source.dropLast = r.target.dropLast) :
    (applyAll rs p).dropLast = applyAll rs p.dropLast := by
  by_cases hsome : ∃ r ∈ rs, r.source <+: p
  · obtain ⟨r, hr, s, rfl⟩ := hsome
    rw [h.applyAll_source hr]
    by_cases hs : s = []
    · subst hs
      have hstays : applyAll rs r.source.dropLast = r.source.dropLast := by
        refine applyAll_of_not fun r' hr' hsource => ?_
        obtain rfl := eq_of_prefix h.sources hr' hr (hsource.trans <| dropLast_prefix _) prefix_rfl
        exact (h.own r' hr').1 (eq_nil_of_prefix_dropLast hsource ▸ nil_prefix)
      rw [append_nil, append_nil, hstays]
      exact (hdir r hr (append_nil _).symm).symm
    · rw [dropLast_append_of_ne_nil hs, dropLast_append_of_ne_nil hs, h.applyAll_source hr]
  · have hoff : ∀ r ∈ rs, ¬ r.source <+: p := fun r hr hsource => hsome ⟨r, hr, hsource⟩
    rw [applyAll_of_not hoff, applyAll_of_not fun r hr hsource =>
      hoff r hr (hsource.trans <| dropLast_prefix p)]

end Separate

end Rename

end WeaverSSH
