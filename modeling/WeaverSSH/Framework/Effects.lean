import WeaverSSH.Framework.Action

/-!
# Actions with effects on their surroundings

An action asks its surroundings for things and makes things there. What it is answered may depend on
how often it has asked before; what it makes is written down in order, whether or not that succeeds.
`Only P` says that nothing is made but what has `P`, and is proved along an action.
-/

namespace WeaverSSH

/-- How often an action has asked, and what it has made. -/
structure Progress (κ : Type) where
  asked : ℕ := 0
  made : List κ := []

namespace Progress

variable {κ ε α β : Type}

def ask (answer : ℕ → Option α) (e : ε) : Action (Progress κ) ε α := fun s =>
  ((answer s.asked).elim (.error e) .ok, { s with asked := s.asked + 1 })

def look (answer : ℕ → α) : Action (Progress κ) ε α := fun s =>
  (.ok (answer s.asked), { s with asked := s.asked + 1 })

def make (thing : κ) (answer : ℕ → Bool) (e : ε) : Action (Progress κ) ε Unit := fun s =>
  (if answer s.asked then .ok () else .error e, ⟨s.asked + 1, s.made ++ [thing]⟩)

/-- Nothing is made but what has `P`. -/
def Only (P : κ → Prop) (s s' : Progress κ) : Prop := ∀ c ∈ s'.made, c ∈ s.made ∨ P c

variable {P : κ → Prop}

instance : Std.Refl (Only P) := ⟨fun _ _ hc => .inl hc⟩

instance : IsTrans (Progress κ) (Only P) where
  trans s₁ s₂ s₃ h₁₂ h₂₃ c hc := by
    rcases h₂₃ c hc with hold | hnew
    · exact h₁₂ c hold
    · exact .inr hnew

lemma keeps_ask (answer : ℕ → Option α) (e : ε) : Action.Keeps (Only P) (ask answer e) :=
  fun _ _ hc => .inl hc

lemma keeps_ask_bind {answer : ℕ → Option α} {e : ε} {g : α → Action (Progress κ) ε β}
    (hg : ∀ n a, answer n = some a → Action.Keeps (Only P) (g a)) :
    Action.Keeps (Only P) (ask answer e >>= g) := by
  intro s
  show Only P s (Action.bind (ask answer e) g s).2
  unfold Action.bind ask
  cases hanswer : answer s.asked with
  | none => exact fun _ hc => .inl hc
  | some a => exact hg s.asked a hanswer ⟨s.asked + 1, s.made⟩

lemma keeps_look (answer : ℕ → α) : Action.Keeps (Only P) (look answer : Action (Progress κ) ε α) :=
  fun _ _ hc => .inl hc

lemma keeps_make {thing : κ} (h : P thing) (answer : ℕ → Bool) (e : ε) :
    Action.Keeps (Only P) (make thing answer e) := by
  intro s c hc
  rcases List.mem_append.mp hc with hold | hnew
  · exact .inl hold
  · exact .inr (List.mem_singleton.mp hnew ▸ h)

lemma keeps_forM {f : β → Action (Progress κ) ε PUnit} {l : List β}
    (h : ∀ b ∈ l, Action.Keeps (Only P) (f b)) :
    Action.Keeps (Only P) (l.forM f) := by
  induction l with
  | nil => exact Action.keeps_pure _
  | cons b l ih =>
    obtain ⟨hb, hl⟩ := List.forall_mem_cons.mp h
    exact Action.keeps_bind hb fun _ => ih hl

section WP

variable {Q : Except ε β → Progress κ → Prop} {s : Progress κ} {g : α → Action (Progress κ) ε β}

lemma wp_ask_bind {answer : ℕ → Option α} {e : ε}
    (hok : ∀ a, Action.wp (g a) Q ⟨s.asked + 1, s.made⟩)
    (herror : Q (.error e) ⟨s.asked + 1, s.made⟩) : Action.wp (ask answer e >>= g) Q s := by
  cases hanswer : answer s.asked with
  | none =>
    have hrun : (ask answer e >>= g) s = (.error e, ⟨s.asked + 1, s.made⟩) := by
      rw [Action.run_bind, ask, hanswer]
      rfl
    unfold Action.wp
    rw [hrun]
    exact herror
  | some a =>
    have hrun : (ask answer e >>= g) s = g a ⟨s.asked + 1, s.made⟩ := by
      rw [Action.run_bind, ask, hanswer]
      rfl
    unfold Action.wp
    rw [hrun]
    exact hok a

end WP

lemma only_of_keeps {m : Action (Progress κ) ε α} (h : Action.Keeps (Only P) m) {s : Progress κ}
    (hs : s.made = []) : ∀ c ∈ (m s).2.made, P c := by
  intro c hc
  rcases h s c hc with hold | hc
  · rw [hs] at hold
    exact absurd hold List.not_mem_nil
  · exact hc

end Progress

end WeaverSSH
