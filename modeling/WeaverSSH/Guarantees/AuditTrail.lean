import WeaverSSH.FileBackend.Service
import WeaverSSH.Framework.Sha256

/-!
# The audit trail of the file backend

When an operation is completed or vetoed, the store is to have one record of what came of it, and
the hooks of the last phase are to be run once: `Audited`. The event that ends an operation is
checked as any other, and its error is a text of the operating system, of a hook or of a program.
Where that is long or has a control character in it there is neither a record nor a run.
-/

namespace WeaverSSH.FileBackend

open List Service

structure Ending where
  op : ℕ
  pending : Pending
  operationErr : Option Text
  mutationPaths : List Text
  env : Surroundings

namespace Ending

def final (e : Ending) : Event := e.pending.final e.operationErr e.env.elapsed

def record (e : Ending) : Event := e.final.stamp e.env.now

def hooks (e : Ending) (registry : Option Registry) : List Hook :=
  entries registry e.final.operation e.final.phase

end Ending

/-- The end of an operation that a call is: the caller's or a veto. -/
def Service.ending (s : Service) : Call → Option Ending
  | .begin event env =>
    match (s.judge event env).2 with
    | .vetoed pending err => some ⟨s.issued.length, pending, some err, [], env.veto⟩
    | _ => none
  | .complete op operationErr mutationPaths env =>
    (s.issued.getD op none).map fun pending => ⟨op, pending, operationErr, mutationPaths, env⟩
  | .elsewhere _ => none

def Call.Completes (op : ℕ) : Call → Prop
  | .complete op' _ _ _ => op' = op
  | _ => False

def Service.records (s : Service) (op : ℕ) : List Event :=
  (s.log.filter fun record => record.op = op).map Record.event

/-- The hooks that were run for an operation after it was begun. -/
def Service.lastRuns (s : Service) (op : ℕ) : List Hook :=
  (s.ran.filter fun run => run.op = op ∧ run.event.phase ≠ .before).map HandlerRun.hook

/-- The end of an operation is in the store right after it, is recorded once in the whole run, and
the hooks of its phase were run once. -/
structure Audited (after last : Service) (e : Ending) : Prop where
  stored : after.core.values lastKey = some (Json.marshal e.record.json)
  recorded : last.records e.op = [e.record]
  ran : last.lastRuns e.op = e.hooks last.hooks

/-- What the audit of an end takes: a text of the error that passes, versions that can be read, and
a slot for each hook; and a clock that was running. -/
structure Ending.Safe [SHA256] (s : Service) (e : Ending) : Prop where
  legible : ∀ err, e.operationErr = some err → legible maxEventError err = true
  readable : e.operationErr = none → VersionsReadable s e.mutationPaths e.env
  slots : ∀ k < (e.hooks s.hooks).length, (e.env.answers k).started = true
  start : isZero e.pending.start = false

/-! ## The event that ends an operation -/

namespace Ending

lemma final_eq (e : Ending) : ∃ phase err, e.final = e.pending.event.final phase
    (int64 e.env.elapsed) err ∧ phase.valid = true ∧ phase ≠ .before ∧
      err = e.operationErr.getD [] := by
  unfold final Pending.final
  cases e.operationErr with
  | none | some err => exact ⟨_, _, rfl, by decide, by decide, rfl⟩

lemma final_phase (e : Ending) : e.final.phase ≠ .before := by
  obtain ⟨phase, err, heq, -, hphase, -⟩ := e.final_eq
  rw [heq]
  exact hphase

lemma normalizeEvent_eq_ok_iff (e : Ending) {now : ℤ} {recorded : Event} :
    normalizeEvent now e.final = .ok recorded ↔
      (∀ err, e.operationErr = some err → FileBackend.legible maxEventError err = true) ∧
        e.final.stamp now = recorded := by
  obtain ⟨phase, err, heq, hvalid, -, herr⟩ := e.final_eq
  obtain ⟨now', raw, hpassed⟩ := e.pending.passed
  rw [heq, normalizeEvent_final hpassed hvalid, herr]
  cases e.operationErr with
  | none =>
    have hempty : FileBackend.legible maxEventError [] = true := by decide
    simp [hempty]
  | some err => simp

lemma started_iff (e : Ending) (registry : Option Registry)
    (hlegible : ∀ err, e.operationErr = some err → FileBackend.legible maxEventError err = true) :
    (runHooks registry e.env.now e.final e.env.answers).started = e.hooks registry ↔
      ∀ k < (e.hooks registry).length, (e.env.answers k).started = true := by
  cases registry with
  | none =>
    have hnone : e.hooks none = [] := rfl
    simp [runHooks, hnone]
  | some r =>
    have hpasses : normalizeEvent e.env.now e.final = .ok e.record :=
      e.normalizeEvent_eq_ok_iff.mpr ⟨hlegible, rfl⟩
    have hnot : ∀ hook ∈ e.hooks (some r), hook.mode ≠ .enforce := fun hook hhook =>
      not_enforcing hhook e.final_phase
    unfold runHooks
    rw [hpasses]
    exact started_invokeHooks_eq_iff hnot

end Ending

section

variable [SHA256]

lemma exists_versionEntries_iff (s : Service) (paths : List Text) (env : Surroundings) :
    (∃ entries, versionEntries (readUint 4 env.readable s.core.values) [] paths = .ok entries) ↔
      VersionsReadable s paths env := by
  rw [exists_versionEntries]
  simp only [not_mem_nil, not_false_eq_true, forall_const, exists_readUint, VersionsReadable]

/-! ## To complete an operation -/

variable {s : Service} {call : Call} {s' : Service}

omit [SHA256] in
lemma Service.records_append {log : List Record} (h : s'.log = s.log ++ log)
    (op : ℕ) : s'.records op =
      s.records op ++ (log.filter fun record => record.op = op).map Record.event := by
  simp only [records, h, filter_append, map_append]

omit [SHA256] in
lemma Service.lastRuns_append {runs : List HandlerRun}
    (h : s'.ran = s.ran ++ runs) (op : ℕ) : s'.lastRuns op = s.lastRuns op ++
      (runs.filter fun run => run.op = op ∧ run.event.phase ≠ .before).map HandlerRun.hook := by
  simp only [lastRuns, h, filter_append, map_append]

/-- The parts of a service that the end of an operation may touch are its own. -/
structure Frame (op : ℕ) (s s' : Service) : Prop where
  hooks : s'.hooks = s.hooks
  issued : s'.issued = s.issued
  records : ∀ op' ≠ op, s'.records op' = s.records op'
  lastRuns : ∀ op' ≠ op, s'.lastRuns op' = s.lastRuns op'

omit [SHA256] in
lemma Frame.refl (op : ℕ) (s : Service) : Frame op s s := ⟨rfl, rfl, fun _ _ => rfl, fun _ _ => rfl⟩

variable {op : ℕ}

omit [SHA256] in
lemma Frame.trans {s' s'' : Service} (h : Frame op s s') (h' : Frame op s' s'') : Frame op s s'' :=
  ⟨h'.hooks.trans h.hooks, h'.issued.trans h.issued,
    fun op' hne => (h'.records op' hne).trans (h.records op' hne),
    fun op' hne => (h'.lastRuns op' hne).trans (h.lastRuns op' hne)⟩

omit [SHA256] in
lemma Service.noteRun_frame (s : Service) (op : ℕ) (event : Event) (run : HookRun) :
    Frame op s (s.noteRun op event run) := by
  refine ⟨rfl, rfl, fun _ _ => rfl, fun op' hne => ?_⟩
  rw [lastRuns_append rfl, filter_eq_nil_iff.mpr, map_nil, append_nil]
  intro handlerRun hrun
  obtain ⟨hook, -, rfl⟩ := mem_map.mp hrun
  simp [hne.symm]

lemma Service.record_frame (s : Service) (op : ℕ) (event : Event) (paths : List Text)
    (env : Surroundings) : Frame op s (s.record op event paths env) := by
  unfold record
  cases s.core.record event paths env with
  | error e => exact ⟨rfl, rfl, fun _ _ => rfl, fun _ _ => rfl⟩
  | ok out =>
    refine ⟨rfl, rfl, fun op' hne => ?_, fun _ _ => rfl⟩
    rw [records_append rfl, filter_eq_nil_iff.mpr, map_nil, append_nil]
    intro record hrecord
    rw [mem_singleton.mp hrecord]
    simp [hne.symm]

variable {p : Pending}

lemma Service.complete_some (s : Service) (op : ℕ) (hstart : isZero p.start = false)
    (operationErr : Option Text) (paths : List Text) (env : Surroundings) :
    s.complete op (some p) operationErr paths env =
      (s.record op (p.final operationErr env.elapsed) (if operationErr.isSome then [] else paths)
        env).noteRun op (p.final operationErr env.elapsed)
          (runHooks s.hooks env.now (p.final operationErr env.elapsed) env.answers) := by
  unfold complete
  dsimp only
  rw [hstart, if_neg Bool.false_ne_true, (s.record_frame _ _ _ _).hooks]

lemma Service.complete_zero (s : Service) (op : ℕ) (hstart : isZero p.start = true)
    (operationErr : Option Text) (paths : List Text) (env : Surroundings) :
    s.complete op (some p) operationErr paths env = s := by
  unfold complete
  dsimp only
  rw [if_pos hstart]

lemma Service.complete_frame (s : Service) (op : ℕ) (pending : Option Pending)
    (operationErr : Option Text) (paths : List Text) (env : Surroundings) :
    Frame op s (s.complete op pending operationErr paths env) := by
  cases pending with
  | none => exact Frame.refl op s
  | some p =>
    cases hstart : isZero p.start with
    | true => rw [s.complete_zero op hstart]; exact Frame.refl op s
    | false =>
      rw [s.complete_some op hstart]
      exact (s.record_frame _ _ _ _).trans (noteRun_frame _ _ _ _)

structure Adds (s s' : Service) (e : Ending) : Prop where
  stored : s'.core.values lastKey = some (Json.marshal e.record.json)
  records : s'.records e.op = s.records e.op ++ [e.record]
  lastRuns : s'.lastRuns e.op = s.lastRuns e.op ++ e.hooks s.hooks

omit [SHA256] in
lemma Ending.lastRuns_noteRun (e : Ending) (s : Service) (run : HookRun) :
    (s.noteRun e.op e.final run).lastRuns e.op = s.lastRuns e.op ++ run.started := by
  rw [lastRuns_append rfl, filter_eq_self.mpr, map_map]
  · congr 1
    exact map_id _
  · intro handlerRun hrun
    obtain ⟨hook, -, rfl⟩ := mem_map.mp hrun
    simp [e.final_phase]

lemma Ending.exists_record_iff (e : Ending) (s : Service) (hwrites : e.env.writes = true) :
    (∃ out, s.core.record e.final (if e.operationErr.isSome then [] else e.mutationPaths) e.env =
        .ok out) ↔
      (∀ err, e.operationErr = some err → FileBackend.legible maxEventError err = true) ∧
        (e.operationErr = none → VersionsReadable s e.mutationPaths e.env) := by
  rw [Core.exists_record, exists_versionEntries_iff]
  simp only [e.normalizeEvent_eq_ok_iff, hwrites, and_true, exists_eq_right']
  apply and_congr_right
  intro _
  cases e.operationErr with
  | none => simp
  | some err => simp [VersionsReadable]

variable {paths : List Text}

lemma Ending.record_of_ok (e : Ending) (s : Service) {out : Core × Event}
    (h : s.core.record e.final paths e.env = .ok out) :
    (s.record e.op e.final paths e.env).core.values lastKey = some (Json.marshal e.record.json) ∧
      (s.record e.op e.final paths e.env).records e.op = s.records e.op ++ [e.record] := by
  obtain ⟨core, recorded⟩ := out
  obtain ⟨hnormalized, hstored⟩ := Core.record_ok h
  obtain ⟨-, rfl⟩ := e.normalizeEvent_eq_ok_iff.mp hnormalized
  unfold Service.record
  rw [h]
  refine ⟨hstored, ?_⟩
  rw [records_append rfl]
  simp [Ending.record]

lemma Ending.record_of_error (e : Ending) (s : Service) {err : CoreErr}
    (h : s.core.record e.final paths e.env = .error err) :
    (s.record e.op e.final paths e.env).records e.op = s.records e.op := by
  unfold Service.record
  rw [h]
  rfl

lemma Service.record_lastRuns (s : Service) (op : ℕ) (event : Event) (paths : List Text)
    (env : Surroundings) (op' : ℕ) :
    (s.record op event paths env).lastRuns op' = s.lastRuns op' := by
  unfold record
  cases s.core.record event paths env with
  | error e | ok out => rfl

/-- **The end of an operation**: all is added exactly where it is safe. -/
lemma Ending.adds_iff (e : Ending) (s : Service) (hwrites : e.env.writes = true) :
    Adds s (s.complete e.op (some e.pending) e.operationErr e.mutationPaths e.env) e ↔
      e.Safe s := by
  cases hstart : isZero e.pending.start with
  | true =>
    rw [s.complete_zero e.op hstart]
    constructor
    · intro hadds
      have hlength := congrArg length hadds.records
      simp at hlength
    · intro hsafe
      rw [hsafe.start] at hstart
      cases hstart
  | false =>
    rw [s.complete_some e.op hstart]
    change Adds s ((s.record e.op e.final _ e.env).noteRun e.op e.final
      (runHooks s.hooks e.env.now e.final e.env.answers)) e ↔ _
    have hrecord := e.exists_record_iff s hwrites
    have hruns := e.lastRuns_noteRun (s.record e.op e.final
      (if e.operationErr.isSome then [] else e.mutationPaths) e.env)
        (runHooks s.hooks e.env.now e.final e.env.answers)
    rw [s.record_lastRuns] at hruns
    constructor
    · rintro ⟨-, hrecords, hlast⟩
      cases hout : s.core.record e.final (if e.operationErr.isSome then [] else e.mutationPaths)
          e.env with
      | error err =>
        -- nothing was recorded, and one record more is too many
        have hlength := congrArg length (hrecords.symm.trans (e.record_of_error s hout))
        simp at hlength
      | ok out =>
        obtain ⟨hlegible, hreadable⟩ := hrecord.mp ⟨out, hout⟩
        have hstarted := append_cancel_left (hruns.symm.trans hlast)
        exact ⟨hlegible, hreadable, (e.started_iff s.hooks hlegible).mp hstarted, hstart⟩
    · rintro ⟨hlegible, hreadable, hslots, -⟩
      obtain ⟨out, hout⟩ := hrecord.mpr ⟨hlegible, hreadable⟩
      obtain ⟨hstored, hrecords⟩ := e.record_of_ok s hout
      refine ⟨hstored, hrecords, ?_⟩
      rw [hruns, (e.started_iff s.hooks hlegible).mpr hslots]

/-! ## One call -/

omit [SHA256] in
lemma Service.lastRuns_noteRun_before (s : Service) (op : ℕ) {event : Event}
    (hphase : event.phase = .before) (run : HookRun) (op' : ℕ) :
    (s.noteRun op event run).lastRuns op' = s.lastRuns op' := by
  rw [lastRuns_append rfl, filter_eq_nil_iff.mpr, map_nil, append_nil]
  intro handlerRun hrun
  obtain ⟨hook, -, rfl⟩ := mem_map.mp hrun
  simp [hphase]

omit [SHA256] in
lemma Service.judge_frame (s : Service) (event : Event) (env : BeginSurroundings) :
    (s.judge event env).1.hooks = s.hooks ∧ (s.judge event env).1.issued = s.issued ∧
      ∀ op, (s.judge event env).1.records op = s.records op ∧
        (s.judge event env).1.lastRuns op = s.lastRuns op := by
  unfold judge
  split
  · exact ⟨rfl, rfl, fun _ => ⟨rfl, rfl⟩⟩
  · next core id hnext =>
    dsimp only
    split
    · exact ⟨rfl, rfl, fun _ => ⟨rfl, rfl⟩⟩
    · next normalized hpassed =>
      obtain ⟨-, -, -, -, -, -, heq⟩ := normalizeEvent_eq_ok.mp hpassed
      have hphase : normalized.phase = .before := by
        rw [← heq]
        rfl
      have hruns := lastRuns_noteRun_before { s with core } s.issued.length hphase
        (runHooks s.hooks env.now normalized env.answers)
      split
      · exact ⟨rfl, rfl, fun op => ⟨rfl, hruns op⟩⟩
      · split_ifs
        · exact ⟨rfl, rfl, fun op => ⟨rfl, hruns op⟩⟩
        · exact ⟨rfl, rfl, fun op => ⟨rfl, hruns op⟩⟩

inductive Stepped (s s' : Service) (call : Call) : Prop
  | quiet (hending : s.ending call = none) (hhooks : s'.hooks = s.hooks)
      (hissued : s.issued <+: s'.issued) (hrecords : ∀ op, s'.records op = s.records op)
      (hruns : ∀ op, s'.lastRuns op = s.lastRuns op)
  | completed (e : Ending) (hending : s.ending call = some e) (hcall : call.Completes e.op)
      (hadmitted : s.issued.getD e.op none ≠ none)
      (hstep : s' = s.complete e.op (some e.pending) e.operationErr e.mutationPaths e.env)
  | vetoed (e : Ending) (judged : Service) (hending : s.ending call = some e)
      (hcall : ¬ call.Completes e.op) (hop : e.op = s.issued.length) (herr : e.operationErr ≠ none)
      (hhooks : judged.hooks = s.hooks) (hissued : judged.issued = s.issued)
      (hrecords : ∀ op, judged.records op = s.records op)
      (hruns : ∀ op, judged.lastRuns op = s.lastRuns op)
      (hstep : s' = (judged.complete e.op (some e.pending) e.operationErr e.mutationPaths
        e.env).issue none)

lemma Service.stepped (s : Service) (call : Call) : Stepped s (s.step call) call := by
  cases call with
  | elsewhere values =>
    exact .quiet rfl rfl prefix_rfl (fun _ => rfl) fun _ => rfl
  | complete op operationErr paths env =>
    cases hpending : s.issued.getD op none with
    | none =>
      have hstep : s.step (.complete op operationErr paths env) = s := by
        unfold step
        dsimp only
        rw [hpending]
        rfl
      rw [hstep]
      refine .quiet ?_ rfl prefix_rfl (fun _ => rfl) fun _ => rfl
      simp only [ending, hpending, Option.map_none]
    | some pending =>
      refine .completed ⟨op, pending, operationErr, paths, env⟩ ?_ rfl ?_ ?_
      · simp only [ending, hpending, Option.map_some]
      · dsimp only
        rw [hpending]
        exact Option.some_ne_none pending
      · unfold step
        dsimp only
        rw [hpending]
  | begin event env =>
    obtain ⟨hhooks, hissued, hframe⟩ := s.judge_frame event env
    cases hjudge : s.judge event env with
    | mk judged verdict =>
      rw [hjudge] at hhooks hissued hframe
      dsimp only at hhooks hissued hframe
      have hrecords : ∀ op, judged.records op = s.records op := fun op => (hframe op).1
      have hruns : ∀ op, judged.lastRuns op = s.lastRuns op := fun op => (hframe op).2
      have hextended (pending : Option Pending) : s.issued <+: (judged.issue pending).issued := by
        show s.issued <+: judged.issued ++ [pending]
        rw [hissued]
        exact prefix_append _ _
      cases verdict with
      | failed err =>
        have hstep : s.step (.begin event env) = judged.issue none := by
          simp only [step, begin, hjudge]
        have hending : s.ending (.begin event env) = none := by
          simp only [ending, hjudge]
        rw [hstep]
        exact .quiet hending hhooks (hextended none) hrecords hruns
      | admitted pending =>
        have hstep : s.step (.begin event env) = judged.issue (some pending) := by
          simp only [step, begin, hjudge]
        have hending : s.ending (.begin event env) = none := by
          simp only [ending, hjudge]
        rw [hstep]
        exact .quiet hending hhooks (hextended (some pending)) hrecords hruns
      | vetoed pending err =>
        refine .vetoed ⟨s.issued.length, pending, some err, [], env.veto⟩ judged ?_ not_false rfl
          (Option.some_ne_none err) hhooks hissued hrecords hruns ?_
        · simp only [ending, hjudge]
        · simp only [step, begin, hjudge, hissued]

lemma Service.step_hooks (s : Service) (call : Call) : (s.step call).hooks = s.hooks := by
  cases s.stepped call with
  | quiet _ hhooks _ _ _ => exact hhooks
  | completed e _ _ _ hstep =>
    rw [hstep]
    exact (s.complete_frame _ _ _ _ _).hooks
  | vetoed e judged _ _ _ _ hhooks _ _ _ hstep =>
    rw [hstep]
    exact (judged.complete_frame _ _ _ _ _).hooks.trans hhooks

lemma Service.step_issued (s : Service) (call : Call) : s.issued <+: (s.step call).issued := by
  cases s.stepped call with
  | quiet _ _ hissued _ _ => exact hissued
  | completed e _ _ _ hstep =>
    rw [hstep, (s.complete_frame _ _ _ _ _).issued]
  | vetoed e judged _ _ _ _ _ hissued _ _ hstep =>
    rw [hstep]
    show s.issued <+: (judged.complete _ _ _ _ _).issued ++ [none]
    rw [(judged.complete_frame _ _ _ _ _).issued, hissued]
    exact prefix_append _ _

/-- **The frame of a call**: it leaves alone the operations that it does not end. -/
lemma Service.step_frame (s : Service) (call : Call)
    (h : ∀ e, s.ending call = some e → e.op ≠ op) :
    (s.step call).records op = s.records op ∧ (s.step call).lastRuns op = s.lastRuns op := by
  cases s.stepped call with
  | quiet _ _ _ hrecords hruns => exact ⟨hrecords op, hruns op⟩
  | completed e hending _ _ hstep =>
    have hframe := s.complete_frame e.op (some e.pending) e.operationErr e.mutationPaths e.env
    rw [hstep]
    exact ⟨hframe.records op (h e hending).symm, hframe.lastRuns op (h e hending).symm⟩
  | vetoed e judged hending _ _ _ _ _ hrecords hruns hstep =>
    have hframe := judged.complete_frame e.op (some e.pending) e.operationErr e.mutationPaths e.env
    rw [hstep]
    exact ⟨(hframe.records op (h e hending).symm).trans (hrecords op),
      (hframe.lastRuns op (h e hending).symm).trans (hruns op)⟩

variable {e : Ending}

/-- **The effect of a call** on the operation that it ends. -/
lemma Service.step_adds (h : s.ending call = some e)
    (hwrites : e.env.writes = true) : Adds s (s.step call) e ↔ e.Safe s := by
  cases s.stepped call with
  | quiet hending _ _ _ _ =>
    rw [hending] at h
    cases h
  | completed e' hending _ _ hstep =>
    cases h.symm.trans hending
    rw [hstep]
    exact e.adds_iff s hwrites
  | vetoed e' judged hending _ _ herr hhooks _ hrecords hruns hstep =>
    cases h.symm.trans hending
    have hjudged := e.adds_iff judged hwrites
    rw [hstep]
    constructor
    · rintro ⟨hstored, hadded, hran⟩
      rw [← hrecords] at hadded
      rw [← hruns, ← hhooks] at hran
      obtain ⟨hlegible, -, hslots, hstart⟩ := hjudged.mp ⟨hstored, hadded, hran⟩
      rw [hhooks] at hslots
      exact ⟨hlegible, fun hnone => absurd hnone herr, hslots, hstart⟩
    · rintro ⟨hlegible, -, hslots, hstart⟩
      rw [← hhooks] at hslots
      obtain ⟨hstored, hadded, hran⟩ :=
        hjudged.mpr ⟨hlegible, fun hnone => absurd hnone herr, hslots, hstart⟩
      rw [hrecords] at hadded
      rw [hruns, hhooks] at hran
      exact ⟨hstored, hadded, hran⟩

/-- Which operation a call may end: one that was admitted and is completed, or the one it begins,
and then its caller has nothing to complete. -/
lemma Service.ending_op (h : s.ending call = some e) :
    (call.Completes e.op ∧ s.issued.getD e.op none ≠ none) ∨
      (¬ call.Completes e.op ∧ e.op = s.issued.length ∧
        (s.step call).issued = s.issued ++ [none]) := by
  cases s.stepped call with
  | quiet hending _ _ _ _ =>
    rw [hending] at h
    cases h
  | completed e' hending hcall hadmitted _ =>
    cases h.symm.trans hending
    exact .inl ⟨hcall, hadmitted⟩
  | vetoed e' judged hending hcall hop _ _ hissued _ _ hstep =>
    cases h.symm.trans hending
    refine .inr ⟨hcall, hop, ?_⟩
    rw [hstep]
    show (judged.complete _ _ _ _ _).issued ++ [none] = _
    rw [(judged.complete_frame _ _ _ _ _).issued, hissued]

/-! ## Runs -/

lemma Service.run_issued (s : Service) (calls : List Call) : s.issued <+: (s.run calls).issued := by
  induction calls generalizing s with
  | nil => exact prefix_rfl
  | cons call rest ih => exact (s.step_issued call).trans (ih (s.step call))

lemma Service.run_hooks (s : Service) (calls : List Call) : (s.run calls).hooks = s.hooks := by
  induction calls generalizing s with
  | nil => rfl
  | cons call rest ih => exact (ih (s.step call)).trans (s.step_hooks call)

lemma Service.run_append (s : Service) (calls calls' : List Call) :
    s.run (calls ++ calls') = (s.run calls).run calls' := foldl_append

/-- An operation that no call of a run ends. -/
def Unended (s : Service) (calls : List Call) (op : ℕ) : Prop :=
  ∀ before call after, calls = before ++ call :: after →
    ∀ e, (s.run before).ending call = some e → e.op ≠ op

/-- **The frame of a run.** -/
lemma Service.run_frame (s : Service) {calls : List Call} (h : Unended s calls op) :
    (s.run calls).records op = s.records op ∧ (s.run calls).lastRuns op = s.lastRuns op := by
  induction calls generalizing s with
  | nil => exact ⟨rfl, rfl⟩
  | cons call rest ih =>
    have hrest : Unended (s.step call) rest op := fun before call' after heq =>
      h (call :: before) call' after (by rw [heq, cons_append])
    obtain ⟨hrecords, hruns⟩ := ih (s.step call) hrest
    obtain ⟨hrecords', hruns'⟩ := s.step_frame call (h [] call rest rfl)
    exact ⟨hrecords.trans hrecords', hruns.trans hruns'⟩

variable {α : Type} {k : ℕ}

omit [SHA256] in
lemma getD_of_isPrefix {l l' : List (Option α)} (h : l <+: l')
    (hk : k < l.length) : l'.getD k none = l.getD k none := by
  obtain ⟨rest, rfl⟩ := h
  rw [getD_eq_getElem?_getD, getD_eq_getElem?_getD, getElem?_append_left hk]

omit [SHA256] in
lemma lt_of_getD_ne_none {l : List (Option α)} (h : l.getD k none ≠ none) : k < l.length := by
  by_contra hge
  apply h
  rw [getD_eq_getElem?_getD, getElem?_eq_none (not_lt.mp hge)]
  rfl

lemma Service.unended_before {before : List Call} (h : (s.run before).ending call = some e)
    (honce : call.Completes e.op → ∀ call' ∈ before, ¬ call'.Completes e.op) :
    Unended s before e.op := by
  rintro before' call' after rfl e' he' hop
  have hissued : ((s.run before').step call').issued <+:
      (s.run (before' ++ call' :: after)).issued := by
    rw [run_append]
    exact ((s.run before').step call').run_issued after
  have hmono := (s.run before').step_issued call'
  rcases ending_op h with ⟨hcall, hadmitted⟩ | ⟨-, hlength, -⟩
  · rcases ending_op he' with ⟨hcall', -⟩ | ⟨-, hlength', hnone⟩
    · exact honce hcall call' (by simp) (hop ▸ hcall')
    · -- it was vetoed, and cannot have been admitted
      apply hadmitted
      have hlt : e.op < ((s.run before').step call').issued.length := by
        rw [hnone, ← hop, hlength', length_append]
        exact Nat.lt_succ_self _
      rw [getD_of_isPrefix hissued hlt, hnone, ← hop, hlength']
      simp
  · rcases ending_op he' with ⟨-, hadmitted'⟩ | ⟨-, hlength', hnone⟩
    · have hlt := lt_of_getD_ne_none hadmitted'
      have hle := (hmono.trans hissued).length_le
      omega
    · have hle := hissued.length_le
      rw [hnone, length_append, length_singleton] at hle
      omega

lemma Service.unended_after {after : List Call} (h : s.ending call = some e)
    (honce : call.Completes e.op → ∀ call' ∈ after, ¬ call'.Completes e.op) :
    Unended (s.step call) after e.op := by
  rintro before call' after' rfl e' he' hop
  have hissued := (s.step call).run_issued before
  have hlt : e.op < (s.step call).issued.length := by
    rcases ending_op h with ⟨-, hadmitted⟩ | ⟨-, hlength, hnone⟩
    · exact (lt_of_getD_ne_none hadmitted).trans_le (s.step_issued call).length_le
    · rw [hnone, hlength, length_append]
      exact Nat.lt_succ_self _
  rcases ending_op he' with ⟨hcall', hadmitted'⟩ | ⟨-, hlength', -⟩
  · rcases ending_op h with ⟨hcall, -⟩ | ⟨-, hlength, hnone⟩
    · exact honce hcall call' (by simp) (hop ▸ hcall')
    · apply hadmitted'
      rw [hop, getD_of_isPrefix hissued hlt, hnone, hlength]
      simp
  · have hle := hissued.length_le
    omega

/-! ## The guarantee -/

/-- **The audit is complete** for the operations that end safely, and for no others, in every run of
a service over any store. -/
theorem audit_complete (hooks : Option Registry) (readOnly : Bool) (core : Core)
    (before after : List Call) (call : Call) (e : Ending)
    (hend : ((start hooks readOnly core).run before).ending call = some e)
    (honce : call.Completes e.op → ∀ call' ∈ before ++ after, ¬ call'.Completes e.op)
    (hwrites : e.env.writes = true) :
    Audited ((start hooks readOnly core).run (before ++ [call]))
        ((start hooks readOnly core).run (before ++ call :: after)) e ↔
      e.Safe ((start hooks readOnly core).run before) := by
  have hbefore := unended_before hend fun hcall call' hmem =>
    honce hcall call' (mem_append_left _ hmem)
  have hafter := unended_after hend fun hcall call' hmem =>
    honce hcall call' (mem_append_right _ hmem)
  obtain ⟨hnone, hnone'⟩ := run_frame _ hbefore
  obtain ⟨hrecords, hruns⟩ := run_frame _ hafter
  rw [← step_adds hend hwrites, run_append, run_append]
  generalize (start hooks readOnly core).run before = s at *
  have hhooks := ((s.step call).run_hooks after).trans (s.step_hooks call)
  change Audited (s.step call) ((s.step call).run after) e ↔ _
  constructor
  · rintro ⟨hstored, hrecorded, hran⟩
    refine ⟨hstored, ?_, ?_⟩
    · rw [← hrecords, hrecorded, hnone]
      rfl
    · rw [← hruns, hran, hnone', hhooks]
      rfl
  · rintro ⟨hstored, hadded, hran⟩
    refine ⟨hstored, ?_, ?_⟩
    · rw [hrecords, hadded, hnone]
      rfl
    · rw [hruns, hran, hnone', hhooks]
      rfl

end

section Sample

attribute [local instance] sha256

/-- A hook that may veto removals, and one that is run where they fail. -/
def removalHooks : Registry where
  hooks := [⟨.remove, .before, 0, .enforce, 2 * second, 1, some 0⟩,
    ⟨.remove, .error, 0, .observe, 2 * second, 1, some 1⟩]
  normal := by decide +kernel

def emptyCore : Core := ⟨fun _ => none, 0, fun _ => 0, 0⟩

def removal : Event :=
  ⟨[], 0, .remove, .before, "a", [], 0, 0, 0, false, false, 0, 0, [], OrderedMap.empty⟩

/-- A store that works, and hooks that all give one answer. -/
def answering (answer : Answer) : Surroundings :=
  ⟨5, 2 * second, fun _ => true, true, fun _ => answer⟩

/-- The first hook gives one answer, and those of the end none. -/
def beginning (answer : Answer) : BeginSurroundings :=
  ⟨true, second, second, fun _ => answer, answering (.returned none)⟩

def removals : Service := start (some removalHooks) false emptyCore

/-- A short veto leaves a trace. -/
theorem audit_complete_denied :
    ∃ e, removals.ending (.begin removal (beginning (.returned (some "denied")))) = some e ∧
      Audited (removals.run [.begin removal (beginning (.returned (some "denied")))])
        (removals.run [.begin removal (beginning (.returned (some "denied")))]) e := by
  refine ⟨_, rfl, ?_⟩
  apply (audit_complete (some removalHooks) false emptyCore [] [] _ _ rfl
    (fun _ => by simp) rfl).mpr
  refine ⟨fun err herr => ?_, fun hnone => ?_, fun k _ => rfl, by decide +kernel⟩
  · cases herr
    decide +kernel
  · cases hnone

/-- **Ends that leave no trace**: the veto of a program that says much, and an error with a line
break in it. There is no record, and the hook for failed removals is not run. -/
theorem outcome_lost :
    let long := replicate 4096 (Rune.char 'x')
    let broken := text "remove a\nb: directory not empty"
    let veto (err : Text) := Call.begin removal (beginning (.returned (some err)))
    let completed (err : Text) := [Call.begin removal (beginning (.returned none)),
        .complete 0 (some err) [] (answering (.returned none))]
    let traces (calls : List Call) :=
      (((removals.run calls).records 0).length, ((removals.run calls).lastRuns 0).length)
    ((removals.ending (veto long)).isSome ∧ traces [veto long] = (0, 0)) ∧
      (((removals.run ((completed broken).take 1)).ending
          (.complete 0 (some broken) [] (answering (.returned none)))).isSome ∧
        traces (completed broken) = (0, 0)) ∧
      traces (completed (text "directory not empty")) = (1, 1) := by
  decide +kernel

end Sample

end WeaverSSH.FileBackend
