import Mathlib.Tactic

/-!
# Instants and durations

An instant (`time.Time`) is a number of nanoseconds since the Unix epoch, and so is a duration
(`time.Duration`), which the program keeps in 64 bits (`int64`). `unix` is the instant in whole
seconds, rounded down, and `seconds d` the product `time.Duration(d) * time.Second`.
-/

namespace WeaverSSH

/-- An instant: nanoseconds since the Unix epoch. -/
abbrev Time := ℤ

/-- A duration in nanoseconds. -/
abbrev Duration := ℤ

def second : Duration := 1000000000

/-- The zero `time.Time`, the first instant of year 1. -/
def zeroTime : Time := -62135596800 * second

def isZero (t : Time) : Bool := t = zeroTime

def unix (t : Time) : ℤ := t / second

/-- What 64 bits hold of a number, in two's complement. -/
def int64 (n : ℤ) : ℤ := n.bmod (2 ^ 64)

def IsInt64 (n : ℤ) : Prop := -2 ^ 63 ≤ n ∧ n < 2 ^ 63

instance (n : ℤ) : Decidable (IsInt64 n) := inferInstanceAs (Decidable (_ ∧ _))

/-- `time.Duration(d) * time.Second`. -/
def seconds (d : ℤ) : Duration := int64 (d * second)

def maxSeconds : ℤ := 9223372036

lemma int64_of_bounds {n : ℤ} (hlo : -2 ^ 63 ≤ n) (hhi : n < 2 ^ 63) : int64 n = n := by
  unfold int64
  apply Int.bmod_eq_of_le <;> omega

lemma isInt64_int64 (n : ℤ) : IsInt64 (int64 n) := by
  have hlo := Int.le_bmod (x := n) (m := 2 ^ 64) (by decide)
  have hhi := Int.bmod_lt (x := n) (m := 2 ^ 64) (by decide)
  unfold IsInt64 int64
  omega

/-- Where the product of a number of seconds is within a limit, the seconds themselves are exactly
where the product did not wrap. -/
lemma seconds_within_iff {d limit : ℤ} (hpos : 0 ≤ d) (hlimit : IsInt64 limit)
    (h : seconds d ≤ limit) : d * second ≤ limit ↔ d ≤ maxSeconds := by
  unfold seconds at h
  unfold maxSeconds second at *
  obtain ⟨-, hhi⟩ := hlimit
  constructor
  · intro hle
    omega
  · intro hle
    rwa [int64_of_bounds (by omega) (by omega)] at h

lemma int64_window {issued expires : ℤ} (hissued : 0 < issued) (hopen : issued < expires)
    (hexpires : IsInt64 expires) : int64 (expires - issued) = expires - issued := by
  obtain ⟨-, hhi⟩ := hexpires
  exact int64_of_bounds (by omega) (by omega)

lemma unix_mono {t u : Time} (h : t ≤ u) : unix t ≤ unix u :=
  Int.ediv_le_ediv (by decide) h

lemma unix_add_sub (t : Time) (d : Duration) :
    unix (t + d) - unix t = (t % second + d) / second := by
  simp only [unix, second]
  omega

lemma unix_lt_add {t : Time} {d : Duration} (h : second ≤ d) : unix t < unix (t + d) := by
  have hlong : (1000000000 : ℤ) ≤ d := h
  simp only [unix, second]
  omega

end WeaverSSH
