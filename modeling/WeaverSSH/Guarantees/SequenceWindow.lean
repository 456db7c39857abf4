import WeaverSSH.Framework.Transition

/-!
# Windows of sequence numbers

`SequenceWindow` of the package `socksproof` and `sequenceWindow` of `sessionproxy` take each number
once, if it is less than 64 below the highest that was taken. Bit `d` of the bitmap stands for the
number `d` below the highest (`Follows`).
-/

namespace WeaverSSH.Sequence

open List

structure Window where
  highest : ℕ := 0
  bitmap : BitVec 64 := 0

/-- `Accept`, but for the bitmap that is made for a number above the highest. -/
def acceptWith (advance : BitVec 64 → ℕ → BitVec 64) (w : Window) (sequence : ℕ) : Bool × Window :=
  if sequence = 0 then (false, w)
  else if w.highest = 0 then (true, ⟨sequence, 1⟩)
  else if w.highest < sequence then (true, ⟨sequence, advance w.bitmap (sequence - w.highest)⟩)
  else
    let distance := w.highest - sequence
    let mask := 1#64 <<< distance
    if 64 ≤ distance then (false, w)
    else if w.bitmap &&& mask ≠ 0 then (false, w)
    else (true, ⟨w.highest, w.bitmap ||| mask⟩)

/-- `Accept` of `socksproof`. -/
def accept : Window → ℕ → Bool × Window :=
  acceptWith fun bitmap shift => (if 64 ≤ shift then 0 else bitmap <<< shift) ||| 1

/-- `Accept` of `sessionproxy`. -/
def proxyAccept : Window → ℕ → Bool × Window :=
  acceptWith fun seen shift => if 64 ≤ shift then 1 else seen <<< shift ||| 1

/-- The window after some calls, and the numbers that were accepted. -/
def after (accept : Window → ℕ → Bool × Window) (sequences : List ℕ) : Window × List ℕ :=
  sequences.foldl (fun (w, accepted) s =>
    ((accept w s).2, if (accept w s).1 then s :: accepted else accepted)) ({}, [])

def Fresh (accepted : List ℕ) (s : ℕ) : Prop :=
  s ≠ 0 ∧ s ∉ accepted ∧
    ((∀ a ∈ accepted, a < s) ∨ ∃ a ∈ accepted, (∀ b ∈ accepted, b ≤ a) ∧ a < s + 64)

structure Follows (w : Window) (accepted : List ℕ) : Prop where
  range : ∀ a ∈ accepted, 0 < a ∧ a ≤ w.highest
  highest : w.highest ≠ 0 → w.highest ∈ accepted
  bit : ∀ d < 64, w.bitmap.getLsbD d = true ↔ w.highest - d ∈ accepted

variable {w : Window} {accepted : List ℕ}

lemma getLsbD_mask {n d : ℕ} (hd : d < 64) : (1#64 <<< n).getLsbD d = decide (d = n) := by
  change (BitVec.twoPow 64 n).getLsbD d = _
  rw [BitVec.getLsbD_twoPow]
  by_cases h : n = d
  · simp [h, hd]
  · simp [h, Ne.symm h]

/-- **The step lemma.** -/
lemma Follows.accept (h : Follows w accepted) (s : ℕ) :
    Fresh accepted s ∧ (∃ w', accept w s = (true, w') ∧ Follows w' (s :: accepted)) ∨
      ¬ Fresh accepted s ∧ Sequence.accept w s = (false, w) := by
  unfold Sequence.accept acceptWith
  by_cases h0 : s = 0
  · exact .inr ⟨fun hf => hf.1 h0, if_pos h0⟩
  rw [if_neg h0]
  by_cases hfirst : w.highest = 0
  · have hnone : accepted = [] := eq_nil_iff_forall_not_mem.mpr fun a ha => by
      have := h.range a ha
      omega
    rw [if_pos hfirst, hnone]
    refine .inl ⟨⟨h0, by simp, by simp⟩, _, rfl, by simp; omega, by simp, fun d hd => ?_⟩
    rw [show (1 : BitVec 64) = 1#64 <<< 0 from rfl, getLsbD_mask hd, decide_eq_true_eq,
      mem_singleton]
    dsimp only
    omega
  rw [if_neg hfirst]
  have hmem := h.highest hfirst
  by_cases hnew : w.highest < s
  · have hlt : ∀ a ∈ accepted, a < s := fun a ha => (h.range a ha).2.trans_lt hnew
    rw [if_pos hnew]
    refine .inl ⟨⟨h0, fun hs => (hlt s hs).false, .inl hlt⟩, _, rfl, ?_, by simp, fun d hd => ?_⟩
    · exact forall_mem_cons.mpr ⟨⟨by omega, le_rfl⟩, fun a ha => ⟨(h.range a ha).1, (hlt a ha).le⟩⟩
    · rw [BitVec.getLsbD_or, Bool.or_eq_true, show (1 : BitVec 64) = 1#64 <<< 0 from rfl,
        getLsbD_mask hd, mem_cons, decide_eq_true_eq, or_comm]
      refine or_congr (by dsimp only; omega) ?_
      by_cases hfar : d < s - w.highest
      · have hnot : s - d ∉ accepted := fun hs => by
          have := h.range _ hs
          omega
        split_ifs <;> simp [hnot, hfar]
      · rw [if_neg (by omega), BitVec.getLsbD_shiftLeft]
        have := h.bit (d - (s - w.highest)) (by omega)
        rw [show w.highest - (d - (s - w.highest)) = s - d by omega] at this
        simp [hd, hfar, this]
  rw [if_neg hnew]
  by_cases hold : 64 ≤ w.highest - s
  · refine .inr ⟨?_, if_pos hold⟩
    rintro ⟨-, -, hall | ⟨a, -, hmax, hnear⟩⟩
    · exact hnew (hall _ hmem)
    · have := hmax _ hmem
      omega
  have hbit := h.bit (w.highest - s) (by omega)
  rw [show w.highest - (w.highest - s) = s by omega] at hbit
  have hmask : w.bitmap &&& 1#64 <<< (w.highest - s) ≠ 0 ↔ s ∈ accepted := by
    rw [← hbit]
    change w.bitmap &&& BitVec.twoPow 64 _ ≠ 0 ↔ _
    rw [BitVec.and_twoPow]
    split_ifs with hset
    · refine iff_of_true (fun hzero => ?_) hset
      have hone := congrArg (BitVec.getLsbD · (w.highest - s)) hzero
      simp only [BitVec.getLsbD_twoPow] at hone
      simp at hone
      omega
    · simp [hset]
  dsimp only
  rw [if_neg hold]
  by_cases hs : s ∈ accepted
  · exact .inr ⟨fun hf => hf.2.1 hs, if_pos (hmask.mpr hs)⟩
  refine .inl ⟨⟨h0, hs, .inr ⟨_, hmem, fun b hb => (h.range b hb).2, by omega⟩⟩, _,
    if_neg (mt hmask.mp hs), ?_, fun _ => mem_cons_of_mem _ hmem, fun d hd => ?_⟩
  · exact forall_mem_cons.mpr ⟨⟨by omega, not_lt.mp hnew⟩, h.range⟩
  · rw [BitVec.getLsbD_or, getLsbD_mask hd, Bool.or_eq_true, h.bit d hd, mem_cons,
      decide_eq_true_eq, or_comm]
    exact or_congr_left (by dsimp only; omega)

/-- **The run lemma.** -/
lemma follows_after (sequences : List ℕ) :
    Follows (after accept sequences).1 (after accept sequences).2 := by
  induction sequences using List.reverseRecOn with
  | nil => exact ⟨by simp [after], by simp [after], by simp [after]⟩
  | append_singleton rest s ih =>
    rw [after, foldl_concat]
    change Follows (Sequence.accept (after _ rest).1 s).2
      (if (Sequence.accept (after _ rest).1 s).1 then s :: (after _ rest).2 else _)
    obtain ⟨-, w', hw, hf⟩ | ⟨-, hw⟩ := ih.accept s
    · rw [hw]
      exact hf
    · rw [hw]
      exact ih

lemma proxyAccept_eq : proxyAccept = accept := by
  refine congrArg acceptWith ?_
  funext seen shift
  split_ifs <;> simp

/-- **Replay windows**: after any calls a number is accepted exactly if it is not zero, was not
accepted before, and is larger than all that were or less than 64 below the largest of them; the two
windows answer alike. -/
theorem accept_iff_fresh (sequences : List ℕ) (s : ℕ) :
    ((accept (after accept sequences).1 s).1 = true ↔ Fresh (after accept sequences).2 s) ∧
      (proxyAccept (after proxyAccept sequences).1 s).1 =
        (accept (after accept sequences).1 s).1 := by
  rw [proxyAccept_eq]
  refine ⟨?_, rfl⟩
  obtain ⟨hf, w', hw, -⟩ | ⟨hf, hw⟩ := (follows_after sequences).accept s
  · simp [hw, hf]
  · simp [hw, hf]

end WeaverSSH.Sequence
