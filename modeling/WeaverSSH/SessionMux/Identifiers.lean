import WeaverSSH.SessionMux.Session

/-!
# Identifiers of streams

`newLocalStream` takes the next number of its role without a look at the table, and the counter
wraps. A responder that has opened `2 ^ 31` streams takes the number of its first one again
(`next_id_wraps`).
-/

namespace WeaverSSH.SessionMux.Mux

open Transition

variable {m m' : Mux} {a : Act}

def Act.isOpen : Act → Bool
  | .openStream _ _ => true
  | _ => false

/-- The next identifier is taken if the step is a call of `Open`, and no other is added but the
peer's. -/
def Adds (opens : Bool) (m m' : Mux) : Prop :=
  m'.role = m.role ∧ m'.nextID = (if opens then m.nextID + 2 else m.nextID) ∧
    ∀ i, m'.streams i ≠ none → m.streams i ≠ none ∨ m.peerOwns i = true ∨ opens = true ∧
      i = m.nextID

variable {opens : Bool}

lemma Adds.remove (h : Adds opens m m') (id : StreamID) : Adds opens m (m'.removeStream id) := by
  refine ⟨h.1, h.2.1, fun i hi => h.2.2 i ?_⟩
  by_cases heq : i = id
  · simp [removeStream, heq] at hi
  · simpa [removeStream, heq] using hi

lemma Adds.shutdown (h : Adds opens m m') (e : MuxErr) : Adds opens m (m'.shutdown e) := by
  unfold Mux.shutdown
  split_ifs
  · exact h
  · exact ⟨h.1, h.2.1, fun _ hi => absurd rfl hi⟩

lemma Adds.notify (h : Adds opens m m') (r : WriteRequest) (e : Option MuxErr) :
    Adds opens m (m'.notify r e) := by
  unfold Mux.notify
  split
  · exact h
  · rw [spawn_eq]
    exact h

lemma Move.adds (hm : Move m a m') : Adds a.isOpen m m' := by
  have hsame {n : Mux} (h : n.role = m.role ∧ n.nextID = m.nextID ∧ n.streams = m.streams) :
      Adds false m n := ⟨h.1, h.2.1, fun i hi => .inl (h.2.2 ▸ hi)⟩
  have hadd {i j : StreamID} {h : Handle} (hi : Function.update m.streams j (some h) i ≠ none) :
      m.streams i ≠ none ∨ i = j := by
    by_cases heq : i = j
    · exact .inr heq
    · exact .inl (by simpa [heq] using hi)
  cases hm with
  | openStream => exact ⟨rfl, rfl, fun i hi => (hadd hi).imp_right fun heq => .inr ⟨rfl, heq⟩⟩
  | openNew _ _ _ _ hpeer =>
    exact ⟨rfl, rfl, fun i hi => (hadd hi).imp_right fun heq => .inl (by rw [heq]; exact hpeer)⟩
  | app _ _ happ =>
    rw [show a.isOpen = false by cases happ <;> rfl]
    exact hsame ⟨rfl, rfl, rfl⟩
  | remove | readerRemove | backlogDrop => exact (hsame ⟨rfl, rfl, rfl⟩).remove _
  | openFailDrop =>
    refine Adds.shutdown ?_ _
    exact (hsame ⟨rfl, rfl, rfl⟩).remove _
  | readerGiveUp =>
    rename_i site _ _
    cases site with
    | reply =>
      refine Adds.shutdown ?_ _
      exact hsame ⟨rfl, rfl, rfl⟩
    | _ => exact hsame ⟨rfl, rfl, rfl⟩
  | handleFailed | acceptFailed | readFailed | closeMux =>
    refine Adds.shutdown ?_ _
    exact hsame ⟨rfl, rfl, rfl⟩
  | takeFailed | writeFailed =>
    refine Adds.shutdown (Adds.notify ?_ _ _) _
    exact hsame ⟨rfl, rfl, rfl⟩
  | _ => exact hsame ⟨rfl, rfl, rfl⟩

/-- After so many calls of `Open`: the next identifier, and those in the table that are the mux's
own. -/
structure Counts (n : ℕ) (m : Mux) : Prop where
  nextID : m.nextID = .ofNat (m.role.firstID.toNat + 2 * n)
  table : ∀ i, m.streams i ≠ none → m.owns i = true →
    ∃ k < n, i = .ofNat (m.role.firstID.toNat + 2 * k)

variable {n : ℕ}

/-- **The step lemma.** -/
lemma Counts.step (h : Counts n m) (hstep : m.step a = some m') :
    Counts (n + if a.isOpen then 1 else 0) m' := by
  obtain ⟨hrole, hnext, hadds⟩ := (Move.of_step hstep).adds
  constructor
  · rw [hnext, hrole, h.nextID]
    cases a.isOpen
    · rfl
    · rw [if_pos rfl, if_pos rfl, mul_add, ← add_assoc, UInt32.ofNat_add _ (2 * 1)]
      rfl
  · intro i hi hown
    rw [owns, hrole] at hown
    rw [hrole]
    obtain hold | hpeer | ⟨hopen, rfl⟩ := hadds i hi
    · obtain ⟨k, hk, heq⟩ := h.table i hold hown
      exact ⟨k, by omega, heq⟩
    · cases hown.symm.trans (peerOwns_iff.mp hpeer).2
    · exact ⟨n, by simp [hopen], h.nextID⟩

/-- **The run lemma.** -/
lemma Counts.run {as : List Act} (h : Counts n m)
    (hrun : run Mux.step m as = some m') :
    Counts (n + as.countP Act.isOpen) m' := by
  induction as generalizing m n with
  | nil => exact Option.some.inj hrun ▸ h
  | cons a as ih =>
    obtain ⟨m₁, hstep, hrun⟩ := Option.bind_eq_some_iff.mp hrun
    rw [List.countP_cons, add_comm (List.countP _ _), ← add_assoc]
    exact ih (h.step hstep) hrun

lemma counts_new {c : Config} (h : Mux.new c = .ok m) : Counts 0 m := by
  obtain ⟨role, l, -, -, rfl⟩ := new_eq h
  exact ⟨by simp, by simp⟩

/-- **Identifiers are unique while they last**: after fewer than `2 ^ 31 - 1` calls of `Open`, in
any run of a mux, the identifier that the next one takes is not zero, has the parity of the role,
and is that of no stream in the table. -/
theorem next_id_fresh {c : Config} {m₀ m : Mux} {as : List Act} (hnew : Mux.new c = .ok m₀)
    (hrun : run step m₀ as = some m) (hopens : as.countP Act.isOpen < 2 ^ 31 - 1) :
    m.nextID ≠ 0 ∧ m.owns m.nextID = true ∧ m.streams m.nextID = none := by
  have hcounts := (counts_new hnew).run hrun
  rw [zero_add] at hcounts
  generalize as.countP Act.isOpen = opens at *
  have hfirst : m.role = .initiator ∧ m.role.firstID.toNat = 1 ∨
      m.role = .responder ∧ m.role.firstID.toNat = 2 := by
    cases m.role <;> simp [Role.firstID]
  have hnext : m.nextID.toNat = m.role.firstID.toNat + 2 * opens := by
    rw [hcounts.nextID, UInt32.toNat_ofNat', Nat.mod_eq_of_lt (by omega)]
  have hown : m.owns m.nextID = true := by
    have hmod : (m.nextID % 2).toNat = m.nextID.toNat % 2 := UInt32.toNat_mod ..
    unfold owns
    obtain ⟨hrole, hfirst⟩ | ⟨hrole, hfirst⟩ := hfirst
    all_goals
      rw [hrole]
      refine decide_eq_true (UInt32.toNat_inj.mp ?_)
      rw [hmod, hnext, hfirst]
      simp
  refine ⟨?_, hown, ?_⟩
  · intro hzero
    rw [hzero, UInt32.toNat_zero] at hnext
    omega
  · by_contra hlisted
    obtain ⟨k, hk, heq⟩ := hcounts.table _ hlisted hown
    rw [heq, UInt32.toNat_ofNat'] at hnext
    omega

/-- A responder that has opened a stream. -/
theorem next_id_fresh_second : ∃ m₀ m, Mux.new smallResponder = .ok m₀ ∧
    run step m₀ [.openStream serviceFS []] = some m ∧
    m.nextID ≠ 0 ∧ m.owns m.nextID = true ∧ m.streams m.nextID = none :=
  ⟨_, _, rfl, rfl, next_id_fresh (show Mux.new smallResponder = .ok _ from rfl)
    (show run step _ [.openStream serviceFS []] = some _ from rfl) (by decide)⟩

/-- Any number of calls of `Open`, one after the other. -/
lemma exists_opens (herr : m.err = none) (n : ℕ) : ∃ as m', run step m as = some m' ∧
    as.countP Act.isOpen = n ∧ m'.nextID = m.nextID + 2 * .ofNat n ∧
      ∀ i, m.streams i ≠ none ∨ i = m.nextID ∧ 0 < n → m'.streams i ≠ none := by
  induction n generalizing m with
  | zero => exact ⟨[], m, rfl, rfl, by simp, by simp⟩
  | succ n ih =>
    obtain ⟨m₁, hstep, herr₁, hnext, hkeep⟩ : ∃ m₁, m.step (.openStream serviceFS []) = some m₁ ∧
        m₁.err = none ∧ m₁.nextID = m.nextID + 2 ∧
        ∀ i, m.streams i ≠ none ∨ i = m.nextID → m₁.streams i ≠ none := by
      refine ⟨_, by rw [step, openCall, herr]; rfl, ?_⟩
      refine ⟨rfl, rfl, fun i hi => ?_⟩
      change Function.update m.streams m.nextID (some m.heap.length) i ≠ none
      by_cases heq : i = m.nextID
      · simp [heq]
      · simpa [heq] using hi
    obtain ⟨as, m', hrun, hcount, hnext', hkeep'⟩ := ih herr₁
    refine ⟨.openStream serviceFS [] :: as, m', by rw [run, hstep]; exact hrun, ?_, ?_,
      fun i hi => hkeep' i (.inl (hkeep i (hi.imp_right And.left)))⟩
    · rw [List.countP_cons_of_pos rfl, hcount]
    · rw [hnext', hnext, UInt32.ofNat_add, UInt32.mul_add, UInt32.add_assoc, UInt32.add_comm 2]
      rfl

/-- A responder comes to its first identifier again, and the stream that has it is replaced. -/
theorem next_id_wraps : ∃ m₀ m as, Mux.new smallResponder = .ok m₀ ∧ run step m₀ as = some m ∧
    as.countP Act.isOpen = 2 ^ 31 ∧ m.nextID = 2 ∧ m.streams 2 ≠ none := by
  obtain ⟨m₀, hnew, herr, hnext⟩ : ∃ m₀, Mux.new smallResponder = .ok m₀ ∧ m₀.err = none ∧
      m₀.nextID = 2 := ⟨_, rfl, rfl, rfl⟩
  obtain ⟨as, m, hrun, hcount, hnext', hkeep⟩ := exists_opens herr (2 ^ 31)
  refine ⟨m₀, m, as, hnew, hrun, hcount, ?_, hkeep 2 (.inr ⟨hnext.symm, by decide⟩)⟩
  rw [hnext', hnext]
  decide

end WeaverSSH.SessionMux.Mux
