import Mathlib.Tactic

/-!
# Chains of checks

A validator of the program is a row of conditions, each with the error it returns where it does not
hold: a `do` block of `require` lines. That it returns a value says that every condition holds
(`bind_eq_ok`, `require_eq_ok`).
-/

namespace WeaverSSH

open Except List

/-- Go on where the condition holds. -/
def require {ε : Type*} (condition : Bool) (err : ε) : Except ε Unit :=
  if condition then .ok () else .error err

/-- Go on where nothing was found. -/
def requireNone {ε α : Type*} (found : Option α) (err : α → ε) : Except ε Unit :=
  match found with
  | some a => .error (err a)
  | none => .ok ()

/-- Go on where no field is empty; the error is given the name of one that is. -/
def requirePresent {ε α : Type*} (err : String → ε) (fields : List (String × List α)) :
    Except ε Unit :=
  requireNone (fields.find? (·.2.isEmpty)) fun p => err p.1

section

variable {ε : Type*} {α β : Type}

variable {condition : Bool} {err : ε} {x : Except ε α} {f : α → Except ε β}

lemma require_of_true (h : condition = true) (err : ε) :
    require condition err = .ok () := if_pos h

lemma require_of_false (h : condition = false) (err : ε) :
    require condition err = .error err := if_neg (by simp [h])

lemma ok_bind (a : α) (f : α → Except ε β) : (.ok a >>= f) = f a := rfl

lemma error_bind (e : ε) (f : α → Except ε β) : (.error e >>= f) = .error e := rfl

variable {u : Unit}

@[simp]
lemma require_eq_ok : require condition err = .ok u ↔ condition = true := by
  cases condition <;> simp [require]

@[simp]
lemma requireNone_eq_ok {found : Option α} {err : α → ε} :
    requireNone found err = .ok u ↔ found = none := by
  cases found <;> simp [requireNone]

@[simp]
lemma requirePresent_eq_ok {err : String → ε} {fields : List (String × List α)} :
    requirePresent err fields = .ok u ↔ ∀ p ∈ fields, p.2 ≠ [] := by
  simp [requirePresent]

@[simp]
lemma bind_eq_ok {b : β} : (x >>= f) = .ok b ↔ ∃ a, x = .ok a ∧ f a = .ok b := by
  cases x with
  | ok a => exact ⟨fun h => ⟨a, rfl, h⟩, fun ⟨a', ha, h⟩ => ok.inj ha ▸ h⟩
  | error e =>
    constructor
    · rintro ⟨⟩
    · rintro ⟨a, ⟨⟩, -⟩

variable {ε' : Type*} {a : α}

@[simp]
lemma mapError_eq_ok {f : ε → ε'} : x.mapError f = .ok a ↔ x = .ok a := by
  cases x <;> simp [Except.mapError]

variable {o : Option α} {e : ε}

@[simp]
lemma elim_eq_ok : o.elim (.error e) ok = .ok a ↔ o = some a := by
  cases o <;> simp

variable {l : List α}

@[simp]
lemma forM_eq_ok {f : α → Except ε Unit} : l.forM f = .ok u ↔ ∀ a ∈ l, f a = .ok () := by
  induction l with
  | nil => simp [pure, Except.pure]
  | cons a l ih =>
    change (f a >>= fun _ => l.forM f) = .ok u ↔ _
    rw [bind_eq_ok, forall_mem_cons]
    exact ⟨fun ⟨_, ha, hl⟩ => ⟨ha, ih.mp hl⟩, fun ⟨ha, hl⟩ => ⟨(), ha, ih.mpr hl⟩⟩

@[simp]
lemma pure_eq_ok {a b : α} : (pure a : Except ε α) = .ok b ↔ a = b :=
  ⟨ok.inj, congrArg ok⟩

/-- What the conditions of a block come to, for `simp only`. -/
lemma checks_ok :
    (∀ {ε α β : Type} {x : Except ε α} {f : α → Except ε β} {b : β},
      (x >>= f) = .ok b ↔ ∃ a, x = .ok a ∧ f a = .ok b) ∧
    (∀ {ε : Type} {c : Bool} {err : ε} {u : Unit}, require c err = .ok u ↔ c = true) ∧
    (∀ {ε α : Type} {a b : α}, (pure a : Except ε α) = .ok b ↔ a = b) ∧
    (∀ {α : Type} [Nonempty α] {p : Prop}, (∃ _ : α, p) ↔ p) ∧
    (∀ {a b : Bool}, (a && b) = true ↔ a = true ∧ b = true) ∧
    ∀ {p : Prop} [Decidable p], decide p = true ↔ p :=
  ⟨bind_eq_ok, require_eq_ok, pure_eq_ok, exists_const _, Bool.and_eq_true_iff, decide_eq_true_iff⟩

lemma exists_of_mem_left {γ δ : Type*} {R : γ → δ → Prop} {l : List γ} {out : List δ}
    (h : List.Forall₂ R l out) {a : γ} (ha : a ∈ l) : ∃ b ∈ out, R a b := by
  induction h with
  | nil => cases ha
  | @cons x y _ _ hxy _ ih =>
    rcases mem_cons.mp ha with rfl | ha
    · exact ⟨y, mem_cons_self, hxy⟩
    · obtain ⟨b, hb, hab⟩ := ih ha
      exact ⟨b, mem_cons_of_mem y hb, hab⟩

lemma exists_of_mem_right {γ δ : Type*} {R : γ → δ → Prop} {l : List γ} {out : List δ}
    (h : List.Forall₂ R l out) {b : δ} (hb : b ∈ out) : ∃ a ∈ l, R a b :=
  exists_of_mem_left (R := flip R) h.flip hb

/-- A list is gone through where each of its elements is. -/
theorem mapM_eq_ok {out : List β} :
    l.mapM f = .ok out ↔ List.Forall₂ (fun a b => f a = .ok b) l out := by
  induction l generalizing out with
  | nil => rw [mapM_nil, pure_eq_ok, forall₂_nil_left_iff, eq_comm]
  | cons a l ih =>
    simp only [mapM_cons, bind_eq_ok, pure_eq_ok, forall₂_cons_left_iff, ih]
    constructor
    · rintro ⟨b, hb, bs, hbs, rfl⟩
      exact ⟨b, bs, hb, hbs, rfl⟩
    · rintro ⟨b, bs, hb, hbs, rfl⟩
      exact ⟨b, hb, bs, hbs, rfl⟩

/-! ## Where an error comes from -/

lemma bind_eq_error : (x >>= f) = .error e ↔ x = .error e ∨ ∃ a, x = .ok a ∧ f a = .error e := by
  cases x with
  | ok a => simp [ok_bind]
  | error e' => simp [error_bind]

lemma require_eq_error : require condition err = .error e ↔ condition = false ∧ err = e := by
  cases condition <;> simp [require]

lemma mapError_eq_error {f : ε → ε'} {e : ε'} :
    x.mapError f = .error e ↔ ∃ e', x = .error e' ∧ f e' = e := by
  cases x <;> simp [Except.mapError]

lemma elim_eq_error : o.elim (.error err) ok = .error e ↔ o = none ∧ err = e := by
  cases o <;> simp

lemma pure_ne_error : (pure a : Except ε α) ≠ .error e := nofun

def ErrorsIn (P : ε → Prop) (x : Except ε α) : Prop := ∀ e, x = .error e → P e

variable {P : ε → Prop}

lemma errorsIn_pure (a : α) : ErrorsIn P (pure a : Except ε α) := fun _ h => absurd h pure_ne_error

lemma errorsIn_require (h : P err) (condition : Bool) : ErrorsIn P (require condition err) :=
  fun _ herror => (require_eq_error.mp herror).2 ▸ h

lemma errorsIn_bind (hx : ErrorsIn P x) (hf : ∀ a, ErrorsIn P (f a)) : ErrorsIn P (x >>= f) := by
  intro e h
  rcases bind_eq_error.mp h with h | ⟨a, -, h⟩
  · exact hx e h
  · exact hf a e h

lemma errorsIn_forM {f : α → Except ε Unit} (h : ∀ a, ErrorsIn P (f a)) (l : List α) :
    ErrorsIn P (l.forM f) := by
  induction l with
  | nil => exact errorsIn_pure ()
  | cons a l ih => exact errorsIn_bind (h a) fun _ => ih

end

end WeaverSSH
