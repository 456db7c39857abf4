import Mathlib.Tactic

/-!
# Runs of a partial step function

An action `a` is *enabled* in `s` exactly when `step s a` is defined. A *run* is a finite list of
actions each enabled in the state the previous one left.

Safety statements are about `Reachable step ok s₀ s`, where `ok` says which steps the run may take.
`Reachable.invariant` is the one induction over runs, and `Reachable.of_run` turns the evaluation of
a list of actions into reachability. Where every action can be taken in every state, a run is a fold
(`foldl_invariant`).
-/

namespace WeaverSSH.Transition

variable {σ α : Type*} {step : σ → α → Option σ} {ok ok' : σ → α → Prop}

/-- The states reached from `s₀` by runs whose every step satisfies `ok`. -/
inductive Reachable (step : σ → α → Option σ) (ok : σ → α → Prop) (s₀ : σ) : σ → Prop
  | start : Reachable step ok s₀ s₀
  | next {s s' : σ} {a : α} : Reachable step ok s₀ s → ok s a → step s a = some s' →
      Reachable step ok s₀ s'

variable {s₀ s : σ}

namespace Reachable

/-- **The invariant rule.** What holds at the start and is kept by every allowed step holds in
every state reached. -/
lemma invariant {P : σ → Prop} (h : Reachable step ok s₀ s) (h₀ : P s₀)
    (hstep : ∀ s a s', P s → ok s a → step s a = some s' → P s') : P s := by
  induction h with
  | start => exact h₀
  | next _ hok hs ih => exact hstep _ _ _ ih hok hs

lemma mono (h : Reachable step ok s₀ s) (hle : ∀ s a, ok s a → ok' s a) :
    Reachable step ok' s₀ s := by
  induction h with
  | start => exact .start
  | next _ hok hs ih => exact .next ih (hle _ _ hok) hs

lemma trans {s₀ s₁ s₂ : σ} (h₁ : Reachable step ok s₀ s₁) (h₂ : Reachable step ok s₁ s₂) :
    Reachable step ok s₀ s₂ := by
  induction h₂ with
  | start => exact h₁
  | next _ hok hs ih => exact .next ih hok hs

end Reachable

/-! ## What a step function can give -/

/-- Every value of a partial computation is a `P`. -/
def Gives (P : σ → Prop) (o : Option σ) : Prop := ∀ s, o = some s → P s

section

variable {P : σ → Prop}

lemma gives_none : Gives P none := nofun

lemma gives_some (h : P s) : Gives P (some s) := fun _ hs => Option.some.inj hs ▸ h

lemma gives_bind {τ : Type*} {o : Option τ} {f : τ → Option σ}
    (h : ∀ t, o = some t → Gives P (f t)) : Gives P (o.bind f) := by
  intro s hs
  obtain ⟨t, ht, hft⟩ := Option.bind_eq_some_iff.mp hs
  exact h t ht s hft

variable {c : Prop}

lemma gives_ite [Decidable c] {o o' : Option σ} (h : c → Gives P o)
    (h' : ¬ c → Gives P o') : Gives P (if c then o else o') := by
  split
  · exact h ‹_›
  · exact h' ‹_›

lemma gives_guard [Decidable c] (h : c → P s) : Gives P (if c then some s else none) :=
  gives_ite (fun hc => gives_some (h hc)) fun _ => gives_none

end

/-- Executing a list of actions, failing at the first that is not enabled. -/
def run (step : σ → α → Option σ) : σ → List α → Option σ
  | s, [] => some s
  | s, a :: as => (step s a).bind fun s' => run step s' as

lemma Reachable.of_run : ∀ (as : List α) (s₀ s : σ), run step s₀ as = some s →
    Reachable step (fun _ _ => True) s₀ s
  | [], s₀, s, h => by
      obtain rfl : s₀ = s := by simpa [run] using h
      exact .start
  | a :: as, s₀, s, h => by
      simp only [run, Option.bind_eq_some_iff] at h
      obtain ⟨s', hs', hrest⟩ := h
      exact (Reachable.next .start trivial hs').trans (Reachable.of_run as s' s hrest)

/-- Whether a list of actions that all satisfy `ok` executes, from a start that may fail, to a
state with a decidable property. -/
def ends {ε : Type*} (step : σ → α → Option σ) (ok : σ → α → Bool) (start : Except ε σ)
    (as : List α) (p : σ → Bool) : Bool :=
  match start with
  | .error _ => false
  | .ok s₀ => (run (fun s a => if ok s a then step s a else none) s₀ as).any p

lemma Reachable.of_guarded {ok : σ → α → Bool}
    (h : Reachable (fun s a => if ok s a then step s a else none) (fun _ _ => True) s₀ s) :
    Reachable step (fun s a => ok s a = true) s₀ s := by
  induction h with
  | start => exact .start
  | next _ _ hs ih =>
    split at hs
    · rename_i hok
      exact .next ih hok hs
    · cases hs

variable {as : List α}

lemma exists_of_ends {ε : Type*} {ok : σ → α → Bool} {start : Except ε σ}
    {p : σ → Bool} (h : ends step ok start as p = true) :
    ∃ s₀ s, start = .ok s₀ ∧ Reachable step (fun s a => ok s a = true) s₀ s ∧ p s = true := by
  unfold ends at h
  split at h
  · cases h
  · rename_i s₀
    obtain ⟨s, hs, hp⟩ := Option.any_eq_true _ _ |>.mp h
    exact ⟨s₀, s, rfl, (Reachable.of_run as s₀ s hs).of_guarded, hp⟩

/-! ## Steps that can always be taken -/

/-- **The invariant rule for folds**: each step is allowed in the state that those before it lead
to. -/
lemma foldl_invariant {step : σ → α → σ} {P : σ → Prop}
    (hok : ∀ before a after, as = before ++ a :: after → ok (before.foldl step s₀) a) (h₀ : P s₀)
    (hstep : ∀ s a, P s → ok s a → P (step s a)) : P (as.foldl step s₀) := by
  induction as using List.reverseRecOn with
  | nil => exact h₀
  | append_singleton as a ih =>
    rw [List.foldl_append]
    refine hstep _ _ (ih fun before b after hsplit => ?_) (hok as a [] rfl)
    refine hok before b (after ++ [a]) ?_
    rw [hsplit, List.append_assoc, List.cons_append]

lemma forall_split_cons {P : List α → α → Prop} {a : α} {l : List α} :
    (∀ before x after, a :: l = before ++ x :: after → P before x) ↔
      P [] a ∧ ∀ before x after, l = before ++ x :: after → P (a :: before) x := by
  constructor
  · intro h
    exact ⟨h [] a l rfl, fun before x after hl => h (a :: before) x after (congrArg (a :: ·) hl)⟩
  · rintro ⟨hfirst, hrest⟩ before x after hsplit
    cases before with
    | nil =>
      obtain ⟨rfl, -⟩ := List.cons.inj hsplit
      exact hfirst
    | cons b before =>
      obtain ⟨rfl, hl⟩ := List.cons.inj hsplit
      exact hrest before x after hl

lemma forall_split_nil {P : List α → α → Prop} (before : List α) (x : α) (after : List α)
    (h : [] = before ++ x :: after) : P before x :=
  absurd h.symm (by simp)

end WeaverSSH.Transition
