import Mathlib.Tactic

/-!
# Actions on a state

An action changes a state, and returns a value or fails; what it changed before it failed stays
changed.

`Keeps R m` says that an action leaves a state that is related to the one it found: for a reflexive
and transitive `R` a sequence keeps what its parts keep. `wp m Q s` says that from `s` it comes to a
result and a state with `Q`. `bind_eq_ok` and its companions tell how a sequence came to its end.
-/

namespace WeaverSSH

/-- A command on states `σ` that returns an `α` or fails with an `ε`. -/
def Action (σ ε α : Type) : Type := σ → Except ε α × σ

namespace Action

variable {σ ε α β : Type}

protected def pure (a : α) : Action σ ε α := fun s => (.ok a, s)

protected def bind (m : Action σ ε α) (f : α → Action σ ε β) : Action σ ε β := fun s =>
  match m s with
  | (.ok a, s') => f a s'
  | (.error e, s') => (.error e, s')

instance : Monad (Action σ ε) where
  pure := Action.pure
  bind := Action.bind

def fail (e : ε) : Action σ ε α := fun s => (.error e, s)

def gets (f : σ → α) : Action σ ε α := fun s => (.ok (f s), s)

def reads (f : σ → Except ε α) : Action σ ε α := fun s => (f s, s)

def demand (condition : Bool) (e : ε) : Action σ ε Unit := fun s =>
  (if condition then .ok () else .error e, s)

def modify (f : σ → σ) : Action σ ε Unit := fun s => (.ok (), f s)

/-- A change of the state that may fail, and then changes nothing. -/
def tries (f : σ → Except ε σ) : Action σ ε Unit := fun s =>
  match f s with
  | .ok s' => (.ok (), s')
  | .error e => (.error e, s)

/-! ## What is kept -/

/-- Whatever comes of the action, the state it leaves is related to the one it found. -/
def Keeps (R : σ → σ → Prop) (m : Action σ ε α) : Prop := ∀ s, R s (m s).2

variable {f : σ → σ} {m : Action σ ε α} {condition : Bool} {e : ε}

section Keeps

variable {R : σ → σ → Prop} [Std.Refl R] [IsTrans σ R]

omit [IsTrans σ R] in
lemma keeps_pure (a : α) : Keeps R (pure a : Action σ ε α) := fun s => Std.Refl.refl s

omit [IsTrans σ R] in
lemma keeps_fail (e : ε) : Keeps R (fail e : Action σ ε α) := fun s => Std.Refl.refl s

omit [IsTrans σ R] in
lemma keeps_gets (f : σ → α) : Keeps R (gets f : Action σ ε α) := fun s => Std.Refl.refl s

omit [IsTrans σ R] in
lemma keeps_reads (f : σ → Except ε α) : Keeps R (reads f) := fun s => Std.Refl.refl s

omit [Std.Refl R] [IsTrans σ R] in
lemma keeps_modify (h : ∀ s, R s (f s)) : Keeps R (modify f : Action σ ε Unit) := h

omit [Std.Refl R] in
lemma keeps_bind {f : α → Action σ ε β} (hm : Keeps R m)
    (hf : ∀ a, Keeps R (f a)) : Keeps R (m >>= f) := by
  intro s
  have hfirst := hm s
  show R s (Action.bind m f s).2
  unfold Action.bind
  cases hrun : m s with
  | mk result s' =>
    rw [hrun] at hfirst
    cases result with
    | error e => exact hfirst
    | ok a => exact IsTrans.trans s s' _ hfirst (hf a s')

omit [IsTrans σ R] in
lemma keeps_demand_bind {f : Unit → Action σ ε β}
    (hf : condition = true → Keeps R (f ())) : Keeps R (demand condition e >>= f) := by
  cases hcondition : condition with
  | false => exact fun s => Std.Refl.refl s
  | true => exact hf hcondition

omit [IsTrans σ R] in
lemma keeps_reads_bind {f : σ → Except ε α} {g : α → Action σ ε β}
    (hg : ∀ s a, f s = .ok a → Keeps R (g a)) : Keeps R (reads f >>= g) := by
  intro s
  show R s (Action.bind (reads f) g s).2
  unfold Action.bind reads
  cases hf : f s with
  | error e => exact Std.Refl.refl s
  | ok a => exact hg s a hf s

omit [Std.Refl R] [IsTrans σ R] in
lemma keeps_ite {c : Prop} [Decidable c] {m m' : Action σ ε α} (hm : c → Keeps R m)
    (hm' : ¬ c → Keeps R m') : Keeps R (if c then m else m') := by
  split_ifs with hc
  · exact hm hc
  · exact hm' hc

end Keeps

/-! ## What an action comes to -/

/-- From a state the action comes to a result and a state with `Q`: the weakest precondition. -/
def wp (m : Action σ ε α) (Q : Except ε α → σ → Prop) (s : σ) : Prop := Q (m s).1 (m s).2

variable {b : β}

section WP

variable {Q Q' : Except ε β → σ → Prop} {s : σ} {g : α → Action σ ε β}

lemma wp_mono {m : Action σ ε β} (h : wp m Q s) (hQ : ∀ result s', Q result s' → Q' result s') :
    wp m Q' s := hQ _ _ h

lemma wp_pure (h : Q (.ok b) s) : wp (pure b) Q s := h

lemma wp_fail (h : Q (.error e) s) : wp (fail e) Q s := h

lemma wp_bind {P : Except ε α → σ → Prop} (hm : wp m P s)
    (hok : ∀ a s', P (.ok a) s' → wp (g a) Q s')
    (herror : ∀ e s', P (.error e) s' → Q (.error e) s') :
    wp (m >>= g) Q s := by
  unfold wp at hm ⊢
  show Q (Action.bind m g s).1 (Action.bind m g s).2
  unfold Action.bind
  cases hrun : m s with
  | mk result s' =>
    rw [hrun] at hm
    cases result with
    | ok a => exact hok a s' hm
    | error e => exact herror e s' hm

lemma wp_reads {f : σ → Except ε β} (h : Q (f s) s) : wp (reads f) Q s := h

lemma wp_gets_bind {f : σ → α} (h : wp (g (f s)) Q s) : wp (gets f >>= g) Q s := h

lemma wp_modify_bind {g : Unit → Action σ ε β} (h : wp (g ()) Q (f s)) :
    wp (modify f >>= g) Q s := h

lemma wp_reads_bind {f : σ → Except ε α} (hok : ∀ a, f s = .ok a → wp (g a) Q s)
    (herror : ∀ e, f s = .error e → Q (.error e) s) : wp (reads f >>= g) Q s := by
  refine @wp_bind _ _ _ _ _ _ _ _ (fun result s' => result = f s ∧ s' = s) ⟨rfl, rfl⟩ ?_ ?_
  · rintro a s' ⟨ha, rfl⟩
    exact hok a ha.symm
  · rintro e s' ⟨he, rfl⟩
    exact herror e he.symm

lemma wp_demand_bind {g : Unit → Action σ ε β}
    (hmet : condition = true → wp (g ()) Q s) (herror : condition = false → Q (.error e) s) :
    wp (demand condition e >>= g) Q s := by
  cases hcondition : condition with
  | true => exact hmet hcondition
  | false => exact herror hcondition

end WP

/-! ## How a sequence came to its end -/

variable {a : α} {s : σ}

lemma run_pure : (pure a : Action σ ε α) s = (.ok a, s) := rfl

lemma run_bind {f : α → Action σ ε β} : (m >>= f) s = match m s with
      | (.ok a, s') => f a s'
      | (.error e, s') => (.error e, s') := rfl

lemma bind_eq_ok {f : α → Action σ ε β} {s s'' : σ} :
    (m >>= f) s = (.ok b, s'') ↔ ∃ a s', m s = (.ok a, s') ∧ f a s' = (.ok b, s'') := by
  rw [run_bind]
  cases hrun : m s with
  | mk result s' =>
    cases result with
    | error e => simp
    | ok a => simp

variable {s' : σ}

lemma pure_eq_ok {a b : α} : (pure a : Action σ ε α) s = (.ok b, s') ↔ a = b ∧ s = s' := by
  rw [run_pure, Prod.mk.injEq, Except.ok.injEq]

lemma reads_eq_ok {f : σ → Except ε α} : reads f s = (.ok a, s') ↔ f s = .ok a ∧ s = s' := by
  unfold reads
  rw [Prod.mk.injEq]

variable {u : Unit}

lemma demand_eq_ok : demand condition e s = (.ok u, s') ↔ condition = true ∧ s = s' := by
  cases condition <;> simp [demand]

lemma modify_eq_ok : (modify f : Action σ ε Unit) s = (.ok u, s') ↔ f s = s' := by
  simp [modify]

lemma fail_eq_ok : ¬ (fail e : Action σ ε α) s = (.ok a, s') := by
  simp [fail]

lemma tries_eq_ok {f : σ → Except ε σ} : tries f s = (.ok u, s') ↔ f s = .ok s' := by
  unfold tries
  cases f s with
  | error e => simp
  | ok a => simp

end Action

end WeaverSSH
