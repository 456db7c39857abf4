import WeaverSSH.Evidence.RemoteQueue

/-!
# Ladders of delays

Three loops double a delay up to a maximum. That of the remote queue compares with half of the
maximum before it doubles, and is exact. `ReconnectPolicy.Delay` shifts by 62 at most, which is too
little for one nanosecond. `drainReconnectBackoff` does not compare the first delay, and doubles in
64 bits before it compares.
-/

namespace WeaverSSH.Ladder

open Evidence

/-- The delays of `NewAgentRemoteAnchorQueue`. -/
def queueConfig (c : AgentRemoteQueueConfig) : AgentRemoteQueueConfig :=
  let minBackoff := if c.minBackoff ≤ 0 then 5 * second else c.minBackoff
  ⟨minBackoff, if c.maxBackoff < minBackoff then 300 * second else c.maxBackoff⟩

structure ReconnectPolicy where
  minDelay : ℤ
  maxDelay : ℤ

def ReconnectPolicy.normalized (p : ReconnectPolicy) : ReconnectPolicy :=
  let minDelay := if p.minDelay ≤ 0 then second else p.minDelay
  let maxDelay := if p.maxDelay ≤ 0 then 30 * second else p.maxDelay
  ⟨minDelay, if maxDelay < minDelay then minDelay else maxDelay⟩

/-- `Delay`, without jitter. -/
def ReconnectPolicy.delay (p : ReconnectPolicy) (failures : ℕ) : ℤ :=
  let p := p.normalized
  if failures = 0 then 0
  else
    let factor := 2 ^ min (failures - 1) 62
    if p.maxDelay / factor < p.minDelay then p.maxDelay
    else
      let base := int64 (p.minDelay * factor)
      if p.maxDelay < base then p.maxDelay else base

structure DrainReconnectPolicy where
  initialBackoff : ℤ
  maxBackoff : ℤ

def normalizeDrainReconnectPolicy (p : DrainReconnectPolicy) : DrainReconnectPolicy :=
  ⟨if p.initialBackoff ≤ 0 then 50000000 else p.initialBackoff,
    if p.maxBackoff ≤ 0 then second else p.maxBackoff⟩

/-- The loop of `drainReconnectBackoff`. -/
def drainFrom (maxBackoff : ℤ) : ℕ → ℤ → ℤ
  | 0, backoff => backoff
  | n + 1, backoff =>
    let backoff := int64 (backoff * 2)
    if maxBackoff ≤ backoff then maxBackoff else drainFrom maxBackoff n backoff

def drainReconnectBackoff (p : DrainReconnectPolicy) (attempt : ℤ) : ℤ :=
  if attempt ≤ 1 then p.initialBackoff
  else drainFrom p.maxBackoff (attempt - 1).toNat p.initialBackoff

/-- The delays of the attempts from the first on, between a minimum and a maximum. -/
structure IsLadder (least most : ℤ) (delay : ℕ → ℤ) : Prop where
  pos : ∀ n, 0 < delay (n + 1)
  le : ∀ n, delay (n + 1) ≤ most
  mono : Monotone fun n => delay (n + 1)
  exact : ∀ n, delay (n + 1) = min most (least * 2 ^ n)

/-- The ladders of the queue, of `Delay` and of the drain. -/
def Ladders (least most : ℤ) : Prop :=
  (let c := queueConfig ⟨least, most⟩; IsLadder least c.maxBackoff fun n => c.backoff n) ∧
  (let p : ReconnectPolicy := ⟨least, most⟩; IsLadder least p.normalized.maxDelay p.delay) ∧
  let p := normalizeDrainReconnectPolicy ⟨least, most⟩
  IsLadder least p.maxBackoff fun n => drainReconnectBackoff p n

variable {least most b : ℤ} {n : ℕ}

lemma le_mul_two_pow (hb : 0 < b) (n : ℕ) : b ≤ b * 2 ^ n :=
  le_mul_of_one_le_right hb.le (one_le_pow₀ one_le_two)

lemma IsLadder.of_exact {delay : ℕ → Duration} (hleast : 0 < least) (hmost : 0 < most)
    (h : ∀ n, delay (n + 1) = min most (least * 2 ^ n)) : IsLadder least most delay where
  pos n := by
    rw [h]
    exact lt_min hmost (by positivity)
  le n := by
    rw [h]
    exact min_le_left ..
  mono n m hnm := by
    simp only [h]
    gcongr
    exact one_le_two
  exact := h

/-- **The queue is exact**: the loop stops before a product is above the maximum. -/
lemma backoffFrom_eq (hb : 0 < b) (n : ℕ) :
    min most (backoffFrom most n b) = min most (b * 2 ^ n) := by
  induction n generalizing b with
  | zero => simp [backoffFrom]
  | succ n ih =>
    have hle := le_mul_two_pow hb n
    rw [backoffFrom, pow_succ']
    split_ifs with hlt hhalf <;> unfold Duration at *
    · rw [Int.tdiv_eq_ediv_of_nonneg (by omega)] at hhalf
      rw [min_self, min_eq_left (by linarith [show most < 2 * b by omega])]
    · rw [ih (by omega)]
      congr 1
      ring
    · rw [min_eq_left (by omega), min_eq_left (by linarith)]

lemma backoff_eq (hleast : 0 < least) (n : ℕ) :
    AgentRemoteQueueConfig.backoff ⟨least, most⟩ (n + 1 : ℕ) = min most (least * 2 ^ n) := by
  rw [← backoffFrom_eq hleast, min_def_lt]
  simp [AgentRemoteQueueConfig.backoff]

lemma normalized_eq (hleast : 0 < least) (hle : least ≤ most) :
    ReconnectPolicy.normalized ⟨least, most⟩ = ⟨least, most⟩ := by
  simp [ReconnectPolicy.normalized, hleast.not_ge, (hleast.trans_le hle).not_ge, hle.not_gt]

/-- **`Delay` is exact** but for one nanosecond and a maximum above `2 ^ 62`. -/
lemma delay_eq (hleast : 0 < least) (hmost : least ≤ most) (hint : most < 2 ^ 63)
    (hshift : most ≤ least * 2 ^ 62) (n : ℕ) :
    ReconnectPolicy.delay ⟨least, most⟩ (n + 1) = min most (least * 2 ^ n) := by
  rw [ReconnectPolicy.delay, normalized_eq hleast hmost]
  simp only [Nat.add_eq_zero_iff, one_ne_zero, and_false, if_false, Nat.add_sub_cancel]
  have hpow : least * 2 ^ min n 62 ≤ least * 2 ^ n := by
    gcongr
    · exact one_le_two
    · exact min_le_left ..
  split_ifs with hdiv hcap
  · have := (Int.ediv_lt_iff_lt_mul (by positivity)).mp hdiv
    rw [min_eq_left (by omega)]
  -- The shifted minimum is not above the maximum here, so that it has not wrapped.
  all_goals
    have hle := (Int.le_ediv_iff_mul_le (by positivity)).mp (not_lt.mp hdiv)
    have hpos : 0 < least * 2 ^ min n 62 := by positivity
    rw [int64_of_bounds (by omega) (by omega)] at *
  · omega
  · obtain hn | hn := le_total n 62
    · rw [min_eq_left hn] at *
      exact (min_eq_right hle).symm
    · rw [min_eq_right hn] at *
      rw [min_eq_left (by omega)]
      omega

/-- **The drain is exact** while it doubles nothing from `2 ^ 62` on. -/
lemma drainFrom_eq (hb : 0 < b) (hle : b ≤ most) (hlt : b < 2 ^ 62)
    (hroom : ∀ k, b * 2 ^ k < most → b * 2 ^ k < 2 ^ 62) (n : ℕ) :
    drainFrom most n b = min most (b * 2 ^ n) := by
  induction n generalizing b with
  | zero => simp [drainFrom, hle]
  | succ n ih =>
    rw [drainFrom, int64_of_bounds (by omega) (by omega), pow_succ', ← mul_assoc]
    split_ifs with hmost
    · have := le_mul_two_pow (b := b * 2) (by omega) n
      rw [min_eq_left (by omega)]
    · have hnext := hroom 1 (by omega)
      refine ih (by omega) (by omega) (by omega) fun k hk => ?_
      rw [mul_assoc, ← pow_succ'] at hk ⊢
      exact hroom _ hk

lemma lt_of_drainFrom_pos (hb : 0 < b) (hint : b < 2 ^ 63) (hmost : 0 < most)
    (hint' : most < 2 ^ 63) (hlt : n = 0 ∨ b * 2 ^ n < most)
    (hpos : 0 < drainFrom most (n + 1) b) : b * 2 ^ n < 2 ^ 62 := by
  -- The loop goes on while nothing has wrapped; what is doubled last is the delay of `n`.
  induction n generalizing b with
  | zero =>
    by_contra hlarge
    have hwrap : int64 (b * 2) < 0 := by
      unfold int64 Int.bmod
      dsimp only
      split_ifs <;> omega
    rw [drainFrom, if_neg (by omega), drainFrom] at hpos
    omega
  | succ n ih =>
    rw [pow_succ', ← mul_assoc] at hlt ⊢
    have hlt := hlt.resolve_left n.succ_ne_zero
    have hle := le_mul_two_pow (b := b * 2) (by omega) n
    rw [drainFrom, int64_of_bounds (by omega) (by omega), if_neg (by omega)] at hpos
    exact ih (by omega) (by omega) (.inr hlt) hpos

/-- **When the ladders are exact**: the minimum is not above the maximum, and what is doubled is
below `2 ^ 62`. -/
theorem ladders_iff (hleast : 0 < least) (hint : least < 2 ^ 63) (hmost : 0 < most)
    (hint' : most < 2 ^ 63) : Ladders least most ↔
      least ≤ most ∧ least < 2 ^ 62 ∧ ∀ n, least * 2 ^ n < most → least * 2 ^ n < 2 ^ 62 := by
  have hdrain : normalizeDrainReconnectPolicy ⟨least, most⟩ = ⟨least, most⟩ := by
    simp [normalizeDrainReconnectPolicy, hleast.not_ge, hmost.not_ge]
  have hattempt (n : ℕ) :
      drainReconnectBackoff ⟨least, most⟩ (n + 1 : ℕ) = drainFrom most n least := by
    cases n with
    | zero => rfl
    | succ n =>
      rw [drainReconnectBackoff, if_neg (by omega)]
      congr 1
      omega
  unfold Ladders
  rw [hdrain]
  constructor
  · -- The drain alone gives the condition: its first delay, and the sign of those after it.
    rintro ⟨-, -, hladder⟩
    have hfirst := hladder.exact 0
    have hroom (n : ℕ) (hlt : n = 0 ∨ least * 2 ^ n < most) : least * 2 ^ n < 2 ^ 62 :=
      lt_of_drainFrom_pos hleast hint hmost hint' hlt (hattempt (n + 1) ▸ hladder.pos (n + 1))
    rw [hattempt] at hfirst
    refine ⟨?_, by simpa using hroom 0 (.inl rfl), fun n hlt => hroom n (.inr hlt)⟩
    simpa [drainFrom] using hfirst
  · rintro ⟨hle, hlt, hroom⟩
    refine ⟨?_, ?_, ?_⟩
    · have hqueue : queueConfig ⟨least, most⟩ = ⟨least, most⟩ := by
        simp [queueConfig, hleast.not_ge, hle.not_gt]
      rw [hqueue]
      exact .of_exact hleast hmost (backoff_eq hleast)
    · have hshift : most ≤ least * 2 ^ 62 := by
        by_contra hlarge
        have := hroom 62 (by omega)
        omega
      dsimp only
      rw [normalized_eq hleast hle]
      exact .of_exact hleast hmost (delay_eq hleast hle hint' hshift)
    · refine .of_exact hleast hmost fun n => ?_
      rw [hattempt]
      exact drainFrom_eq hleast hle hlt hroom n

/-- A minimum of one nanosecond and a maximum of three. -/
theorem ladders_iff_three : Ladders 1 3 :=
  (ladders_iff (by decide) (by decide) (by decide) (by decide)).mpr
    ⟨by decide, by decide, fun n hn => by omega⟩

/-- The drain begins above the maximum; and at the 64th attempt it waits less than no time, and
`Delay` stays below a maximum that is reached. -/
theorem drain_wraps : drainReconnectBackoff ⟨2, 1⟩ 1 = 2 ∧
    drainReconnectBackoff ⟨1, 2 ^ 63 - 1⟩ 64 = -2 ^ 63 ∧
    ReconnectPolicy.delay ⟨1, 2 ^ 63 - 1⟩ 64 = 2 ^ 62 := by
  decide

end WeaverSSH.Ladder
