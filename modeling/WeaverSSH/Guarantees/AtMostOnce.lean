import WeaverSSH.Guarantees.Lifetime

/-!
# Signed objects are accepted once

Grants and node contexts share a cache of nonces; the SOCKS server has its own. A run is a sequence
of verifications, each with its own reading of the clock. A nonce may come again with a later
expiry, and a clock that is set back lets an object in again that other checks have evicted
(`nonce_accepted_again`).
-/

namespace WeaverSSH

open AuthProof SocksProof

/-! ## Runs on a cache -/

/-- The outcome of one verification: the reading of the clock, and the nonce and the expiry of what
was accepted. -/
abbrev Outcome := Time × Option (Text × ℤ)

/-- The later of two acceptances of a nonce is past the expiry of the earlier, and of another
object. -/
def Outcome.Separate (a b : Outcome) : Prop :=
  ∀ p ∈ a.2, ∀ q ∈ b.2, p.1 = q.1 → p.2 ≤ unix b.1 ∧ p.2 < q.2

instance (a b : Outcome) : Decidable (a.Separate b) := by
  unfold Outcome.Separate
  infer_instance

section Runs

variable {Call : Type} {now : Call → Time}
  {run : Option (ReplayCache Text) → Call → Option (ReplayCache Text) × Option (Text × ℤ)}

/-- The outcomes of a sequence of verifications with one cache. -/
def outcomes (now : Call → Time)
    (run : Option (ReplayCache Text) → Call → Option (ReplayCache Text) × Option (Text × ℤ)) :
    Option (ReplayCache Text) → List Call → List Outcome
  | _, [] => []
  | cache, call :: rest =>
    (now call, (run cache call).2) :: outcomes now run (run cache call).1 rest

/-- A verification visits the cache once, and accepts only what has not expired. -/
def VisitsOnce (now : Call → Time)
    (run : Option (ReplayCache Text) → Call → Option (ReplayCache Text) × Option (Text × ℤ)) :
    Prop :=
  ∀ (c : ReplayCache Text) (call : Call), ∃ c', (run (some c) call).1 = some c' ∧
    c.Visit (unix (now call)) c' (run (some c) call).2 ∧
    ∀ p ∈ (run (some c) call).2, unix (now call) < p.2

lemma outcomes_visits (hrun : VisitsOnce now run) (calls : List Call) : ∀ c : ReplayCache Text,
    c.Visits ((outcomes now run (some c) calls).map fun o => (unix o.1, o.2)) ∧
      (∀ o ∈ outcomes now run (some c) calls, ∀ p ∈ o.2, unix o.1 < p.2) ∧
      (outcomes now run (some c) calls).map Prod.fst = calls.map now := by
  induction calls with
  | nil => exact fun c => ⟨.nil, by simp [outcomes], rfl⟩
  | cons call rest ih =>
    intro c
    obtain ⟨c', hcache, hvisit, hlive⟩ := hrun c call
    obtain ⟨hrest, hliveRest, hnow⟩ := ih c'
    rw [outcomes, hcache]
    refine ⟨.cons hvisit hrest, ?_, by simp [hnow]⟩
    intro o ho
    rcases List.mem_cons.mp ho with rfl | ho
    · exact hlive
    · exact hliveRest o ho

/-- **Acceptances of one nonce are of different objects**, in every run whose readings do not
decrease. -/
lemma separate_outcomes (hrun : VisitsOnce now run) (c : ReplayCache Text) {calls : List Call}
    (hclock : calls.Pairwise fun a b => now a ≤ now b) :
    (outcomes now run (some c) calls).Pairwise Outcome.Separate := by
  obtain ⟨hvisits, hlive, hnow⟩ := outcomes_visits hrun calls c
  have hreadings : ((outcomes now run (some c) calls).map Prod.fst).Pairwise (· ≤ ·) := by
    rw [hnow, List.pairwise_map]
    exact hclock
  have hexpired := hvisits.expired (by
    rw [List.map_map, List.pairwise_map]
    exact (List.pairwise_map.mp hreadings).imp unix_mono)
  rw [List.pairwise_map] at hexpired
  refine hexpired.imp_of_mem fun {a b} _ hb h p hp q hq hkey => ?_
  exact ⟨h p hp q hq hkey, (h p hp q hq hkey).trans_lt (hlive b hb q hq)⟩

end Runs

/-! ## The cache of nonces -/

lemma acceptOnce_some {α : Type} (c : NonceCache) (a : α) (nonce : α → Text) (expires : α → ℤ)
    (now : Time) : acceptOnce (some c) (.ok a) nonce expires now =
      (some (c.check (nonce a) (expires a) (unix now)).1,
        if (c.check (nonce a) (expires a) (unix now)).2 then .ok a else .error .replay) := by
  cases hcheck : (c.check (nonce a) (expires a) (unix now)).2 <;>
    simp [acceptOnce, checkAndStore, hcheck]

lemma acceptOnce_visit {α : Type} (c : NonceCache) {admitted : Except AuthErr α} {nonce : α → Text}
    {expires : α → ℤ} {now : Time} (hlive : ∀ a, admitted = .ok a → unix now < expires a) :
    ∃ c', (acceptOnce (some c) admitted nonce expires now).1 = some c' ∧
      c.Visit (unix now) c' ((acceptOnce (some c) admitted nonce expires now).2.toOption.map
        fun a => (nonce a, expires a)) ∧
      ∀ p ∈ (acceptOnce (some c) admitted nonce expires now).2.toOption.map
        (fun a => (nonce a, expires a)), unix now < p.2 := by
  cases admitted with
  | error e => exact ⟨c, rfl, .idle, fun p hp => by cases hp⟩
  | ok a =>
    rw [acceptOnce_some]
    refine ⟨_, rfl, ?_⟩
    cases hcheck : (c.check (nonce a) (expires a) (unix now)).2 with
    | true => exact ⟨.stored hcheck, fun p hp => by cases hp; exact hlive a rfl⟩
    | false => exact ⟨.refused hcheck, fun p hp => by cases hp⟩

/-- A verification with the cache of nonces. -/
inductive Call where
  | grant (sg : SignedGrant) (publicKey : List UInt8) (opts : AuthProof.VerifyOptions)
      (clock : Time)
  | context (sc : SignedNodeContext) (publicKey : List UInt8) (opts : NodeContextVerifyOptions)
      (clock : Time)

/-- The reading of the clock the verification goes by. -/
def Call.now : Call → Time
  | .grant _ _ opts clock => nowOr opts.now clock
  | .context _ _ opts clock => nowOr opts.now clock

section

variable [Unicode] [Ed25519]

/-- The cache after the verification, and what was accepted. -/
def Call.run (cache : Option NonceCache) : Call → Option NonceCache × Option (Text × ℤ)
  | .grant sg publicKey opts clock =>
    let (cache, result) := verifySignedGrant cache sg publicKey opts clock
    (cache, result.toOption.map fun grant => (grant.nonce, grant.expiresAtUnix))
  | .context sc publicKey opts clock =>
    let (cache, result) := verifySignedNodeContext cache sc publicKey opts clock
    (cache, result.toOption.map fun ctx => (ctx.nonce, ctx.expiresAtUnix))

lemma Call.visitsOnce : VisitsOnce Call.now Call.run := by
  intro c call
  cases call with
  | grant sg publicKey opts clock =>
    exact acceptOnce_visit c fun grant hpassed =>
      (checkLifetime_eq_ok.mp (admitGrant_ok hpassed).2.2).2.1
  | context sc publicKey opts clock =>
    exact acceptOnce_visit c fun ctx hpassed =>
      (checkLifetime_eq_ok.mp (admitNodeContext_ok hpassed).2.2).2.1

end

/-! ## The cache of the SOCKS server -/

/-- One check of the SOCKS server's cache. -/
structure Check where
  nonce : Text
  expiry : ℤ
  now : Time

/-- The cache after the check, and what was accepted. -/
def Check.run (cache : Option Cache) (check : Check) : Option Cache × Option (Text × ℤ) :=
  let (cache, result) := checkReplay cache check.nonce check.expiry check.now
  (cache, result.toOption.map fun _ => (trimSpace check.nonce, check.expiry))

lemma Check.visitsOnce : VisitsOnce Check.now Check.run := by
  intro c check
  by_cases hbad : trimSpace check.nonce = [] ∨ check.expiry ≤ unix check.now
  · have hrun : Check.run (some c) check = (some c, none) := by
      simp [Check.run, checkReplay, hbad, Except.toOption]
    rw [hrun]
    exact ⟨c, rfl, .idle, fun p hp => by cases hp⟩
  · have hlive : unix check.now < check.expiry := not_le.mp fun h => hbad (.inr h)
    have hrun : Check.run (some c) check =
        (some (c.check (trimSpace check.nonce) check.expiry (unix check.now)).1,
          if (c.check (trimSpace check.nonce) check.expiry (unix check.now)).2 then
            some (trimSpace check.nonce, check.expiry) else none) := by
      cases hcheck : (c.check (trimSpace check.nonce) check.expiry (unix check.now)).2 <;>
        simp [Check.run, checkReplay, hbad, hcheck, Except.toOption]
    rw [hrun]
    refine ⟨_, rfl, ?_⟩
    cases hcheck : (c.check (trimSpace check.nonce) check.expiry (unix check.now)).2 with
    | true => exact ⟨.stored hcheck, fun p hp => by cases hp; exact hlive⟩
    | false => exact ⟨.refused hcheck, fun p hp => by cases hp⟩

/-- **Signed objects are accepted once.** In every sequence of verifications of grants and node
contexts with one cache, and in every sequence of checks of the SOCKS server's, by clocks that do
not go back, the second acceptance of a nonce comes after the first one's expiry and is of an
object that expires later. -/
theorem signed_objects_once [Unicode] [Ed25519] (cache : NonceCache) (calls : List Call)
    (hcalls : calls.Pairwise fun a b => a.now ≤ b.now) (server : Cache) (checks : List Check)
    (hchecks : checks.Pairwise fun a b => a.now ≤ b.now) :
    (outcomes Call.now Call.run (some cache) calls).Pairwise Outcome.Separate ∧
      (outcomes Check.now Check.run (some server) checks).Pairwise Outcome.Separate :=
  ⟨separate_outcomes Call.visitsOnce cache hcalls,
    separate_outcomes Check.visitsOnce server hchecks⟩

/-! ### One nonce, twice -/

attribute [local instance] asciiCase checksumScheme

/-- Two grants with one nonce; the second is presented when the first expires. -/
def reissued : List Call :=
  [.grant (grantFor 60) nobodysKey { now := 60 * second } 0,
    .grant (grantFor 100) nobodysKey { now := 61 * second } 0]

def rechecked : List Check := [⟨"n", 50, 10 * second⟩, ⟨"n", 80, 60 * second⟩]

/-- A statement, another that evicts it, and the first again by a clock that was set back. -/
def setBack : List Check :=
  [⟨"n", 50, 10 * second⟩, ⟨"m", 200, 100 * second⟩, ⟨"n", 50, 10 * second⟩]

/-- The second object of a nonce is accepted at the expiry of the first. -/
theorem signed_objects_once_reissued :
    ((outcomes Call.now Call.run (some .empty) reissued).map Prod.snd =
      [some (text "nonce", 61), some (text "nonce", 101)]) ∧
    (outcomes Call.now Call.run (some .empty) reissued).Pairwise Outcome.Separate ∧
    (outcomes Check.now Check.run (some .empty) rechecked).Pairwise Outcome.Separate :=
  ⟨by decide +kernel, signed_objects_once .empty reissued (by decide +kernel) .empty rechecked
    (by decide +kernel)⟩

/-- By a clock that does not go back a nonce is accepted for two objects, and by one that does an
object is accepted twice. -/
theorem nonce_accepted_again : ((reissued.Pairwise fun a b => a.now ≤ b.now) ∧
      (outcomes Call.now Call.run (some .empty) reissued).map Prod.snd =
        [some (text "nonce", 61), some (text "nonce", 101)]) ∧
    (outcomes Check.now Check.run (some .empty) setBack).map Prod.snd =
      [some (text "n", 50), some (text "m", 200), some (text "n", 50)] := by
  decide +kernel

end WeaverSSH
