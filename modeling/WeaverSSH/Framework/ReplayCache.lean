import Mathlib.Tactic

/-!
# Caches of keys seen until they expire

`check` first evicts what has expired by its own clock reading, then refuses a key that is still
remembered and otherwise remembers it, until an instant given with it.

`Visits` is the trace of a verifier's run. `Remembers` is the invariant of every run whose readings
do not decrease: what was stored and has not expired by the last reading is in the cache.
-/

namespace WeaverSSH

open Function List

/-- The keys seen, each with its expiry. -/
structure ReplayCache (K : Type*) where
  seen : K → Option ℤ

namespace ReplayCache

variable {K : Type*}

def empty : ReplayCache K := ⟨fun _ => none⟩

/-- What has not expired by `now`. -/
def evict (c : ReplayCache K) (now : ℤ) : ReplayCache K :=
  ⟨fun key => (c.seen key).filter (now < ·)⟩

/-- Present a key; the second component says whether it was stored. -/
def check [DecidableEq K] (c : ReplayCache K) (key : K) (expires now : ℤ) :
    ReplayCache K × Bool :=
  let kept := c.evict now
  if (kept.seen key).isSome then (kept, false)
  else (⟨update kept.seen key (some expires)⟩, true)

/-- The keys that have not expired by `now`. -/
def unexpired (c : ReplayCache K) (now : ℤ) : Set K := {key | ∃ e, (c.evict now).seen key = some e}

/-- Whatever was stored and has not expired by `t` is in the cache. -/
def Remembers (c : ReplayCache K) (stored : List (K × ℤ)) (t : ℤ) : Prop :=
  ∀ p ∈ stored, t < p.2 → c.seen p.1 = some p.2

variable {c : ReplayCache K} {stored : List (K × ℤ)} {t now : ℤ}

lemma Remembers.nil : c.Remembers [] t := by
  intro p hp
  cases hp

lemma Remembers.evict (h : c.Remembers stored t) (ht : t ≤ now) :
    (c.evict now).Remembers stored now := by
  intro p hp hlive
  have hseen := h p hp (ht.trans_lt hlive)
  simp [ReplayCache.evict, hseen, hlive]

lemma Remembers.mono (h : c.Remembers stored t) (ht : t ≤ now) : c.Remembers stored now :=
  fun p hp hlive => h p hp (ht.trans_lt hlive)

lemma Remembers.of_evict (h : (c.evict now).Remembers stored now) : c.Remembers stored now :=
  fun p hp hlive => (Option.filter_eq_some_iff.mp (h p hp hlive)).1

lemma evict_evict (c : ReplayCache K) (now : ℤ) : (c.evict now).evict now = c.evict now := by
  simp [ReplayCache.evict]

variable [DecidableEq K] {key : K} {expires : ℤ}

lemma check_eq_true (hok : (c.check key expires now).2 = true) : (c.evict now).seen key = none ∧
      (c.check key expires now).1 = ⟨update (c.evict now).seen key (some expires)⟩ := by
  cases hseen : (c.evict now).seen key with
  | none => simp [check, hseen]
  | some e => simp [check, hseen] at hok

lemma check_eq_false (hno : (c.check key expires now).2 = false) :
    (c.check key expires now).1 = c.evict now := by
  cases hseen : (c.evict now).seen key with
  | none => simp [check, hseen] at hno
  | some e => simp [check, hseen]

lemma evict_check (hok : (c.check key expires now).2 = true) (h : expires ≤ now) :
    (c.check key expires now).1.evict now = c.evict now := by
  obtain ⟨hnone, hstored⟩ := check_eq_true hok
  rw [hstored]
  refine (congrArg mk (funext fun k => ?_)).trans (c.evict_evict now)
  by_cases hk : k = key
  · subst hk
    simp [hnone, h]
  · simp only [update_of_ne hk]

/-- A store of a key waits for the expiry of every earlier store of it. -/
lemma Remembers.expired_of_check (h : c.Remembers stored t) (ht : t ≤ now)
    (hok : (c.check key expires now).2 = true) : ∀ p ∈ stored, p.1 = key → p.2 ≤ now := by
  intro p hp hkey
  by_contra hlive
  have hseen := h.evict ht p hp (not_le.mp hlive)
  rw [hkey, (check_eq_true hok).1] at hseen
  cases hseen

lemma Remembers.check_stored (h : c.Remembers stored t) (ht : t ≤ now)
    (hok : (c.check key expires now).2 = true) :
    (c.check key expires now).1.Remembers ((key, expires) :: stored) now := by
  rw [(check_eq_true hok).2]
  intro p hp hlive
  rcases mem_cons.mp hp with rfl | hp
  · exact update_self ..
  · have hne : p.1 ≠ key := fun hkey =>
      absurd (h.expired_of_check ht hok p hp hkey) (not_le.mpr hlive)
    exact (update_of_ne hne ..).trans (h.evict ht p hp hlive)

lemma Remembers.check_refused (h : c.Remembers stored t) (ht : t ≤ now)
    (hno : (c.check key expires now).2 = false) :
    (c.check key expires now).1.Remembers stored now := by
  rw [check_eq_false hno]
  exact h.evict ht

/-! ## Runs -/

/-- What a verifier does at one reading: the cache after it, and what was stored. -/
inductive Visit (c : ReplayCache K) (now : ℤ) : ReplayCache K → Option (K × ℤ) → Prop
  | idle : Visit c now c none
  | refused {key : K} {expires : ℤ} (h : (c.check key expires now).2 = false) :
      Visit c now (c.check key expires now).1 none
  | stored {key : K} {expires : ℤ} (h : (c.check key expires now).2 = true) :
      Visit c now (c.check key expires now).1 (some (key, expires))

/-- A run from a cache: the readings, and what was stored at each. -/
inductive Visits : ReplayCache K → List (ℤ × Option (K × ℤ)) → Prop
  | nil {c : ReplayCache K} : Visits c []
  | cons {c c' : ReplayCache K} {now : ℤ} {s : Option (K × ℤ)} {rest : List (ℤ × Option (K × ℤ))}
      (h : Visit c now c' s) (hrest : Visits c' rest) : Visits c ((now, s) :: rest)

/-- One visit keeps the invariant, and stores a key only past its earlier expiries. -/
lemma Remembers.visit (h : c.Remembers stored t) (ht : t ≤ now) {c' : ReplayCache K}
    {s : Option (K × ℤ)} (hvisit : Visit c now c' s) : c'.Remembers (s.toList ++ stored) now ∧
      ∀ p ∈ stored, ∀ q ∈ s, p.1 = q.1 → p.2 ≤ now := by
  cases hvisit with
  | idle => exact ⟨h.mono ht, fun p _ q hq => by cases hq⟩
  | refused hno => exact ⟨h.check_refused ht hno, fun p _ q hq => by cases hq⟩
  | stored hok =>
    refine ⟨h.check_stored ht hok, fun p hp q hq hkey => ?_⟩
    obtain rfl := Option.some.inj hq
    exact h.expired_of_check ht hok p hp hkey

variable {trace : List (ℤ × Option (K × ℤ))}

lemma Visits.remembered (hrun : Visits c trace)
    (h : c.Remembers stored t) (hclock : (t :: trace.map Prod.fst).Pairwise (· ≤ ·)) :
    (∀ p ∈ stored, ∀ b ∈ trace, ∀ q ∈ b.2, p.1 = q.1 → p.2 ≤ b.1) ∧
      trace.Pairwise fun a b => ∀ p ∈ a.2, ∀ q ∈ b.2, p.1 = q.1 → p.2 ≤ b.1 := by
  -- along the run, with what was stored so far and the last reading
  induction hrun generalizing stored t with
  | nil => exact ⟨by simp, .nil⟩
  | @cons c c' now s rest hvisit hrest ih =>
    rw [map_cons, pairwise_cons] at hclock
    obtain ⟨hfirst, hlater⟩ := hclock
    obtain ⟨hnext, hstore⟩ := h.visit (hfirst now mem_cons_self) hvisit
    obtain ⟨hpast, hpairs⟩ := ih hnext hlater
    constructor
    · intro p hp b hb q hq hkey
      rcases mem_cons.mp hb with rfl | hb
      · exact hstore p hp q hq hkey
      · exact hpast p (mem_append_right _ hp) b hb q hq hkey
    · refine pairwise_cons.mpr ⟨fun b hb p hp q hq hkey => ?_, hpairs⟩
      exact hpast p (mem_append_left _ (by simpa using hp)) b hb q hq hkey

/-- **A key is stored again only once its earlier stores have expired.** -/
lemma Visits.expired (hrun : Visits c trace) (hclock : (trace.map Prod.fst).Pairwise (· ≤ ·)) :
    trace.Pairwise fun a b => ∀ p ∈ a.2, ∀ q ∈ b.2, p.1 = q.1 → p.2 ≤ b.1 := by
  cases trace with
  | nil => exact .nil
  | cons a rest =>
    refine (hrun.remembered (t := a.1) Remembers.nil ?_).2
    refine pairwise_cons.mpr ⟨fun u hu => ?_, hclock⟩
    rcases mem_cons.mp hu with rfl | hu
    · exact le_rfl
    · exact rel_of_pairwise_cons hclock hu

end ReplayCache

end WeaverSSH
