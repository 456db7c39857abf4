import WeaverSSH.Framework.Transition
import WeaverSSH.SocketControl.Supervisor

/-!
# A reload replaces the engine or leaves it as it was

`Serves env s slot` says that the engine of `slot` is the one engine running and that `slot` is what
the supervisor knows of it. `Start` establishes it and `Reload` is meant to keep it through any one
fault (`AllOrNothing`).

Where the listeners are apart and the old engine does not stop in time, nothing runs in the end.
`Reloadable` excludes that, and two plans with one digest.
-/

namespace WeaverSSH.SocketControl

open Supervisor Startup Engine List

variable {κ π : Type} {env : Env κ π} {s : Supervisor κ π} {slot : Slot κ π}

/-- The engine at `i` is running. -/
def Supervisor.Live (s : Supervisor κ π) (i : ℕ) : Prop := ∃ e, s.engines[i]? = some e ∧ e.running

/-- The engine of `slot`, and no other, is running, and the supervisor describes it. -/
structure Serves (env : Env κ π) (s : Supervisor κ π) (slot : Slot κ π) : Prop where
  root : s.root = true
  current : s.current = some slot
  live : ∀ i, s.Live i ↔ i = slot.engine
  config : s.engines[slot.engine]?.map config = some slot.config
  plan : env.inspect slot.config = .ok slot.plan
  digest : slot.digest = env.sum slot.plan

/-- The path `Reload` reads. -/
def requested (current : Slot κ π) (path : Text) : Text :=
  if trimSpace path = [] then current.path else trimSpace path

def Status.Describes (st : Status π) (slot : Slot κ π) : Prop :=
  st.generation = slot.generation ∧ st.configPath = slot.path ∧ st.configSHA256 = slot.digest ∧
    st.startedAt = slot.startedAt ∧ st.plan = some slot.plan

/-- One engine runs after the reload, its status describes it, and it has the configuration of
before after an error and the one that was read otherwise. -/
def AllOrNothing (env : Env κ π) (s : Supervisor κ π) (current : Slot κ π) (path : Text)
    (o : Outcomes) : Prop :=
  ∃ slot, Serves env (s.reload env path o).2.2 slot ∧
    (∃ st, (s.reload env path o).1 = some st ∧ st.Describes slot) ∧
    match (s.reload env path o).2.1 with
    | some _ => slot.config = current.config ∧ slot.plan = current.plan
    | none => ∃ config digest, env.load (requested current path) = .ok (config, slot.plan, digest)

/-- At most one of loading, starting the new engine and stopping the old one fails, and no step
back does. -/
structure OneFault (env : Env κ π) (current : Slot κ π) (path : Text) (o : Outcomes) : Prop where
  one : [!(env.load (requested current path)).isOk, o.start.error.isSome,
    o.stop.error.isSome].count true ≤ 1
  startAgain : o.startAgain.error = none
  stopAgain : o.stopAgain.error = none

/-- What a reload needs: a plan with the digest of the current one is the current one, and the old
engine stops when its listeners are apart from those of another plan. -/
def Reloadable (env : Env κ π) (current : Slot κ π) (path : Text) (o : Outcomes) : Prop :=
  ∀ config plan digest, env.load (requested current path) = .ok (config, plan, digest) →
    (digest = current.digest → plan = current.plan) ∧ (digest ≠ current.digest →
      addressesDisjoint (env.addresses current.plan) (env.addresses plan) = true →
        o.stop.error = none)

/-! ## Which engines run -/

lemma Env.load_spec {path : Text} {config : κ} {plan : π} {digest : Text}
    (h : env.load path = .ok (config, plan, digest)) :
    env.inspect config = .ok plan ∧ digest = env.sum plan := by
  simp only [Env.load, checks_ok, Prod.mk.injEq] at h
  obtain ⟨c, -, p, hp, rfl, rfl, rfl⟩ := h
  exact ⟨hp, rfl⟩

lemma live_append (o : Option (Engine κ)) (i : ℕ) :
    Live { s with engines := s.engines ++ o.toList } i ↔
      s.Live i ∨ i = s.engines.length ∧ ∃ e ∈ o, e.running := by
  rcases lt_trichotomy i s.engines.length with h | rfl | h
  · simp [Live, getElem?_append_left h, h.ne]
  · cases o <;> simp [Live]
  · have hnone : (s.engines ++ o.toList)[i]? = none := by
      cases o <;> simp <;> omega
    simp [Live, hnone, getElem?_eq_none (l := s.engines) h.le, h.ne']

lemma live_stopSlot (o : Stopping) (i : ℕ) :
    (s.stopSlot slot o).2.Live i ↔ s.Live i ∧ i ≠ slot.engine := by
  simp only [stopSlot, Live, getElem?_modify]
  by_cases h : slot.engine = i
  · simp [h, running]
  · simp [h, Ne.symm h]

lemma stopSlot_eq (s : Supervisor κ π) {o : Stopping} {r : Option Failure} (h : o.error = r) :
    s.stopSlot slot o = (r, (s.stopSlot slot o).2) := Prod.ext h rfl

lemma config_stopSlot (o : Stopping) (i : ℕ) :
    (s.stopSlot slot o).2.engines[i]?.map config = s.engines[i]?.map config := by
  simp only [stopSlot, getElem?_modify]
  split <;> cases s.engines[i]? <;> rfl

lemma Startup.engine_up {o : Startup} (h : o.error = none) (config : κ) :
    o.engine config = some ⟨config, true, false, false⟩ := by
  match o, h with
  | .up, _ => rfl

variable {e : Failure}

lemma Startup.engine_down {o : Startup} (h : o.error = some e) (config : κ) :
    ∀ e ∈ o.engine config, e.running = false := by
  match o, h with
  | .refused _, _ | .finished .., _ | .bootError _, _ | .parentDone _, _ =>
    simp [engine, running]

lemma live_start_down {o : Startup} (h : o.error = some e) (config : κ) (i : ℕ) :
    Live { s with engines := s.engines ++ (o.engine config).toList } i ↔ s.Live i := by
  rw [live_append]
  refine ⟨fun h' => h'.resolve_right ?_, .inl⟩
  rintro ⟨-, e, he, hrun⟩
  simp [engine_down h config e he] at hrun

/-! ## What the two branches leave -/

section

variable (hs : Serves env s slot)
include hs

lemma Serves.lt_length : slot.engine < s.engines.length := by
  obtain ⟨e, he, -⟩ := (hs.live slot.engine).2 rfl
  exact (List.getElem?_eq_some_iff.1 he).1

lemma Serves.stopped (o : Stopping) : ∃ s', s.stopSlot slot o = (o.error, s') ∧
    s'.root = true ∧ ∀ i, ¬ s'.Live i := by
  refine ⟨(s.stopSlot slot o).2, rfl, hs.root, fun i => ?_⟩
  rw [live_stopSlot, hs.live]
  exact fun h => h.2 h.1

lemma Serves.start_down {o : Startup} (h : o.error = some e) (config : κ) :
    Serves env { s with engines := s.engines ++ (o.engine config).toList } slot where
  root := hs.root
  current := hs.current
  live i := (live_start_down h config i).trans (hs.live i)
  config := by
    show (s.engines ++ _)[slot.engine]?.map _ = _
    rw [getElem?_append_left hs.lt_length, hs.config]
  plan := hs.plan
  digest := hs.digest

lemma Serves.recordReloadError (e : Failure) : Serves env (s.recordReloadError e) slot :=
  { hs with }

end

variable {now : ℤ}

lemma serves_started {generation : UInt64} {path : Text} {config : κ} {plan : π} {digest : Text}
    (hroot : s.root = true) (hnone : ∀ i, ¬ s.Live i)
    (hplan : env.inspect config = .ok plan) (hdigest : digest = env.sum plan) : Serves env { s with
        engines := s.engines ++ [⟨config, true, false, false⟩]
        current := some ⟨generation, path, config, plan, digest, s.engines.length, now⟩ }
      ⟨generation, path, config, plan, digest, s.engines.length, now⟩ where
  root := hroot
  current := rfl
  live i := by
    refine (live_append (s := s) (some ⟨config, true, false, false⟩) i).trans ?_
    simp [hnone, running]
  config := by simp
  plan := hplan
  digest := hdigest

/-- What a branch of `Reload` should leave: an engine with the old configuration after an error,
and otherwise one with the new configuration, for the supervisor to make its current one. -/
def Replaced (env : Env κ π) (current : Slot κ π) (plan : π) :
    Except Failure (Slot κ π) × Supervisor κ π → Prop
  | (.error _, s) =>
    ∃ slot, Serves env s slot ∧ slot.config = current.config ∧ slot.plan = current.plan
  | (.ok slot, s) => Serves env { s with current := some slot } slot ∧ slot.plan = plan

section

variable {path digest : Text} {config : κ} {plan : π} {o : Outcomes}

lemma replaceDisjoint_replaced (hs : Serves env s slot) (hplan : env.inspect config = .ok plan)
    (hdigest : digest = env.sum plan) (hstop : o.stop.error = none) :
    Replaced env slot plan (s.replaceDisjoint slot path (config, plan, digest) o) := by
  cases hstart : o.start.error with
  | some e =>
    simp only [replaceDisjoint, startSlot, hstart]
    exact ⟨slot, hs.start_down hstart config, rfl, rfl⟩
  | none =>
    have hne : s.engines.length ≠ slot.engine := hs.lt_length.ne'
    simp only [replaceDisjoint, startSlot, hstart, engine_up hstart]
    rw [stopSlot_eq _ hstop]
    refine ⟨⟨hs.root, rfl, fun i => ?_, ?_, hplan, hdigest⟩, rfl⟩
    · refine (live_stopSlot _ i).trans ?_
      rw [live_append, hs.live]
      have hup : (⟨config, true, false, false⟩ : Engine κ).running = true := rfl
      simp only [Option.mem_some_iff, exists_eq_left', hup, and_true]
      exact ⟨fun h => h.1.resolve_left h.2, fun h => ⟨.inr h, h ▸ hne⟩⟩
    · refine (config_stopSlot _ _).trans ?_
      simp

/-- The engine was cancelled before it failed to stop, and the new one is stopped after it. -/
lemma replaceDisjoint_idle (hs : Serves env s slot) (hstart : o.start.error = none)
    (hstop : o.stop.error = some e) (path : Text) (loaded : κ × π × Text) :
    ∃ e' s', s.replaceDisjoint slot path loaded o = (.error e', s') ∧ ∀ i, ¬ s'.Live i := by
  simp only [replaceDisjoint, startSlot, hstart]
  rw [stopSlot_eq _ hstop]
  refine ⟨_, _, rfl, fun i => ?_⟩
  rw [live_stopSlot, live_stopSlot, live_append, hs.live]
  rintro ⟨⟨hi | hi, hold⟩, hnew⟩
  · exact hold hi
  · exact hnew hi.1

lemma replaceOverlapping_replaced (hs : Serves env s slot) (hplan : env.inspect config = .ok plan)
    (hdigest : digest = env.sum plan) (hagain : o.startAgain.error = none) :
    Replaced env slot plan (s.replaceOverlapping slot path (config, plan, digest) o) := by
  obtain ⟨s', hs', hroot, hidle⟩ := hs.stopped o.stop
  have hback := engine_up hagain slot.config
  cases hstop : o.stop.error with
  | some e =>
    simp only [replaceOverlapping, hs', hstop, startSlot, hagain, hback]
    exact ⟨_, serves_started hroot hidle hs.plan hs.digest, rfl, rfl⟩
  | none =>
    cases hstart : o.start.error with
    | some e =>
      have hidle' := fun i => (live_start_down hstart config i).not.2 (hidle i)
      simp only [replaceOverlapping, hs', hstop, startSlot, hstart, hagain, hback]
      exact ⟨_, serves_started (s := { s' with engines := _ }) hroot hidle' hs.plan hs.digest,
        rfl, rfl⟩
    | none =>
      simp only [replaceOverlapping, hs', hstop, startSlot, hstart, engine_up hstart]
      exact ⟨serves_started hroot hidle hplan hdigest, rfl⟩

/-! ## The reload -/

lemma Supervisor.status_describes (h : s.current = some slot) : s.status.Describes slot := by
  simp only [status, h]
  exact ⟨rfl, rfl, rfl, rfl, rfl⟩

/-- The branch that is taken for another plan. -/
def replacement (env : Env κ π) (s : Supervisor κ π) (current : Slot κ π) (path : Text)
    (loaded : κ × π × Text) (o : Outcomes) : Except Failure (Slot κ π) × Supervisor κ π :=
  if addressesDisjoint (env.addresses current.plan) (env.addresses loaded.2.1)
  then s.replaceDisjoint current path loaded o else s.replaceOverlapping current path loaded o

section

variable (hs : Serves env s slot)
include hs

section

variable (hload : env.load (requested slot path) = .ok (config, plan, digest))
include hload

lemma reload_eq
    (hne : digest ≠ slot.digest) :
    s.reload env path o =
      match replacement env s slot (requested slot path) (config, plan, digest) o with
      | (.error e, s) => let s := s.recordReloadError e; (s.status, some e, s)
      | (.ok new, s) =>
        let s := { s with current := some new, lastReload := o.now, lastReloadError := [] }
        (s.status, none, s) := by
  unfold requested at hload ⊢
  simp only [reload, hs.root, hs.current, hload, if_neg hne, replacement]
  cases addressesDisjoint (env.addresses slot.plan) (env.addresses plan) <;> rfl

lemma allOrNothing_of_replaced (hne : digest ≠ slot.digest) (h : Replaced env slot plan
      (replacement env s slot (requested slot path) (config, plan, digest) o)) :
    AllOrNothing env s slot path o := by
  unfold AllOrNothing
  rw [reload_eq hs hload hne]
  match hr : replacement env s slot (requested slot path) (config, plan, digest) o with
  | (.error e, s') =>
    rw [hr] at h
    obtain ⟨slot', hserves, hconfig, hplan⟩ := h
    exact ⟨slot', hserves.recordReloadError e,
      ⟨_, rfl, status_describes hserves.current⟩, hconfig, hplan⟩
  | (.ok slot', s') =>
    rw [hr] at h
    obtain ⟨hserves, rfl⟩ := h
    exact ⟨slot', { hserves with }, ⟨_, rfl, status_describes rfl⟩, config, digest, hload⟩

lemma AllOrNothing.of_same
    (heq : digest = slot.digest) : AllOrNothing env s slot path o ↔ plan = slot.plan := by
  have hreload : s.reload env path o = (some s.status, none, s) := by
    unfold requested at hload
    simp only [reload, hs.root, hs.current, hload, if_pos heq]
  unfold AllOrNothing
  rw [hreload]
  constructor
  · rintro ⟨slot', hserves, -, c, d, hload'⟩
    obtain rfl : slot = slot' := Option.some.inj (hs.current.symm.trans hserves.current)
    simp_all
  · rintro rfl
    exact ⟨slot, hs, ⟨_, rfl, status_describes hs.current⟩, config, digest, hload⟩

end

omit hs in
lemma OneFault.start (h : OneFault env slot path o) {loaded : κ × π × Text}
    (hload : env.load (requested slot path) = .ok loaded) (hstop : o.stop.error = some e) :
    o.start.error = none := by
  have hone := h.one
  cases hstart : o.start.error with
  | none => rfl
  | some e' => simp [hload, hstart, hstop, Except.isOk, Except.toBool] at hone

/-- A reload that meets the condition is all or nothing; only the steps back have to succeed. -/
lemma allOrNothing_of_reloadable (hagain : o.startAgain.error = none)
    (h : Reloadable env slot path o) : AllOrNothing env s slot path o := by
  match hload : env.load (requested slot path) with
  | .error e =>
    have hreload : s.reload env path o =
        (some (s.recordReloadError e).status, some e, s.recordReloadError e) := by
      unfold requested at hload
      simp only [reload, hs.root, hs.current, hload]
    unfold AllOrNothing
    rw [hreload]
    exact ⟨slot, hs.recordReloadError e, ⟨_, rfl, status_describes hs.current⟩, rfl, rfl⟩
  | .ok (config, plan, digest) =>
    obtain ⟨hplan, hdigest⟩ := Env.load_spec hload
    obtain ⟨hsame, hstops⟩ := h config plan digest hload
    by_cases heq : digest = slot.digest
    · exact (AllOrNothing.of_same hs hload heq).2 (hsame heq)
    · refine allOrNothing_of_replaced hs hload heq ?_
      by_cases hapart : addressesDisjoint (env.addresses slot.plan) (env.addresses plan) = true
      · simp only [replacement, if_pos hapart]
        exact replaceDisjoint_replaced hs hplan hdigest (hstops heq hapart)
      · simp only [replacement, if_neg hapart]
        exact replaceOverlapping_replaced hs hplan hdigest hagain

lemma reloadable_of_allOrNothing (hfault : OneFault env slot path o)
    (h : AllOrNothing env s slot path o) : Reloadable env slot path o := by
  intro config plan digest hload
  refine ⟨fun heq => (AllOrNothing.of_same hs hload heq).1 h, fun hne hapart => ?_⟩
  cases hstop : o.stop.error with
  | none => rfl
  | some e =>
    obtain ⟨slot', hserves, -⟩ := h
    obtain ⟨e', s', hrun, hidle⟩ := replaceDisjoint_idle hs (hfault.start hload hstop) hstop
      (requested slot path) (config, plan, digest)
    rw [reload_eq hs hload hne] at hserves
    simp only [replacement, if_pos hapart, hrun] at hserves
    exact absurd ((hserves.live slot'.engine).2 rfl) (hidle _)

end

end

/-- **A reload is all or nothing under one fault**, exactly when a plan with the digest of the
current one is the current one and the old engine stops where the listeners are apart. -/
theorem reload_allOrNothing (env : Env κ π) (s : Supervisor κ π) (slot : Slot κ π) (path : Text)
    (o : Outcomes) (hs : Serves env s slot) (hfault : OneFault env slot path o) :
    AllOrNothing env s slot path o ↔ Reloadable env slot path o :=
  ⟨reloadable_of_allOrNothing hs hfault, allOrNothing_of_reloadable hs hfault.startAgain⟩

/-! ## The runs of a supervisor -/

lemma start_serves {o : Startup} (h : (start env new o now).1 = none) :
    ∃ slot, Serves env (start env new o now).2 slot := by
  unfold start at h ⊢
  match hload : env.load env.configPath with
  | .error e => simp [new, hload] at h
  | .ok (config, plan, digest) =>
    obtain ⟨hplan, hdigest⟩ := Env.load_spec hload
    cases hstart : o.error with
    | some e => simp [new, hload, startSlot, hstart] at h
    | none =>
      simp only [new, startSlot, hstart, engine_up hstart]
      exact ⟨_, serves_started (s := { new with root := true }) rfl (by simp [Live, new]) hplan
        hdigest⟩

/-- **A supervisor goes on serving** through any reloads that each meet the condition. -/
theorem serves_of_reachable {o : Startup} (hstart : (start env new o now).1 = none)
    (h : Transition.Reachable (fun s (r : Text × Outcomes) => some (s.reload env r.1 r.2).2.2)
      (fun s r => ∀ slot, s.current = some slot →
        r.2.startAgain.error = none ∧ Reloadable env slot r.1 r.2) (start env new o now).2 s) :
    ∃ slot, Serves env s slot := by
  refine h.invariant (P := fun s => ∃ slot, Serves env s slot) (start_serves hstart) ?_
  rintro s r _ ⟨slot, hs⟩ hok ⟨⟩
  obtain ⟨hagain, hcond⟩ := hok slot hs.current
  obtain ⟨slot', hserves, -⟩ := allOrNothing_of_reloadable hs hagain hcond
  exact ⟨slot', hserves⟩

/-! ## A supervisor of two routes

A configuration is its own plan; the first character is the address it listens on. -/

def twoRoutes : Env Text Text where
  configPath := "a1"
  readConfig := .ok
  inspect := .ok
  addresses plan := [plan.take 1]
  sum := id

def firstSlot : Slot Text Text := ⟨1, "a1", "a1", "a1", "a1", 0, 0⟩

def serving : Supervisor Text Text := (start twoRoutes new .up 0).2

/-- The old engine does not stop before the deadline. -/
def lateStop : Stopping := ⟨none, none, ⟨"context deadline exceeded", false⟩⟩

def cleanStop : Stopping := ⟨none, some none, ⟨[], false⟩⟩

lemma serving_serves : Serves twoRoutes serving firstSlot :=
  serves_started (s := { new with root := true }) rfl (by simp [Live, new]) rfl rfl

/-- The new engine does not boot, and the old configuration is started again. -/
theorem reload_overlapping_allOrNothing :
    AllOrNothing twoRoutes serving firstSlot "a2"
      ⟨.bootError ⟨"boot failed", false⟩, cleanStop, .up, cleanStop, 1, 2⟩ := by
  refine (reload_allOrNothing _ _ _ _ _ serving_serves ⟨by decide, rfl, rfl⟩).2 ?_
  rintro config plan digest ⟨⟩
  exact ⟨fun h => absurd h (by decide), fun _ _ => rfl⟩

/-- The supervisor serves after that reload. -/
theorem serves_of_reachable_overlapping : ∃ slot, Serves twoRoutes (serving.reload twoRoutes "a2"
    ⟨.bootError ⟨"boot failed", false⟩, cleanStop, .up, cleanStop, 1, 2⟩).2.2 slot := by
  refine serves_of_reachable (show (start twoRoutes new .up 0).1 = none from rfl)
    (.next (a := (text "a2", ⟨_, _, _, _, _, _⟩)) .start (fun slot hslot => ?_) rfl)
  cases hslot
  refine ⟨rfl, ?_⟩
  rintro config plan digest ⟨⟩
  exact ⟨fun h => absurd h (by decide), fun _ _ => rfl⟩

/-- The listeners are apart, the new engine comes up, and the old one stops too late: after it
`Reload` has an error, and both engines are cancelled. -/
theorem reload_leaves_none :
    Serves twoRoutes serving firstSlot ∧
    OneFault twoRoutes firstSlot "b1" ⟨.up, lateStop, .up, cleanStop, 1, 2⟩ ∧
    ((serving.reload twoRoutes "b1" ⟨.up, lateStop, .up, cleanStop, 1, 2⟩).2.2.engines.map
      Engine.running = [false, false]) ∧
    (serving.reload twoRoutes "b1" ⟨.up, lateStop, .up, cleanStop, 1, 2⟩).2.2.current =
      some firstSlot := by
  refine ⟨serving_serves, ⟨by decide, rfl, rfl⟩, by decide, by decide⟩

end WeaverSSH.SocketControl
