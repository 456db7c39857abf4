import WeaverSSH.FileBackend.Hooks
import WeaverSSH.Framework.Bytes
import WeaverSSH.Framework.Digest

/-!
# The file backend service

`core.go` and `service.go`: `Begin` reserves a number for an operation and runs the hooks of the
before phase, `Complete` records what came of it and runs those of the last phase. `Begin` completes
an operation that is vetoed.

What the store holds is a function of keys; whether it can be read and written, the clock and the
answers of the hooks come with each call. `issued`, `log` and `ran` keep what `Begin` returned,
which operation a record is of, and which one a handler was run for.
-/

namespace WeaverSSH.FileBackend

open Function List

/-! ## The core -/

/-- What a store holds. -/
abbrev Values := Text → Option (List UInt8)

def Values.put (values : Values) (entry : Text × List UInt8) : Values :=
  update values entry.1 (some entry.2)

/-- `Store.Write`. -/
def Values.write (values : Values) (entries : List (Text × List UInt8)) : Values :=
  entries.foldl Values.put values

def encodeUint64 (value : UInt64) : List UInt8 := littleEndian 8 value.toNat

def encodeUint32 (value : UInt32) : List UInt8 := littleEndian 4 value.toNat

inductive CoreErr where
  | event (err : EventErr)
  | unreadable (key : Text)
  | corrupt (key : Text)
  | write
deriving DecidableEq, Repr

/-- `readUint64` and `readUint32`: a value that is there has its width. -/
def readUint (width : ℕ) (readable : Text → Bool) (values : Values) (key : Text) :
    Except CoreErr (Option ℕ) := do
  require (readable key) (.unreadable key)
  match values key with
  | none => .ok none
  | some value =>
    require (value.length = width) (.corrupt key)
    return some (fromLittleEndian value)

structure Core where
  values : Values
  sequence : UInt64
  counts : Operation → UInt64
  errors : UInt64

def counterKey (operation : Operation) : Text := text "counter/" ++ operation.name

def sequenceKey : Text := "state/sequence"

def errorsKey : Text := "state/errors"

def lastKey : Text := "event/last"

def canonicalRelative (value : Text) : Text :=
  let value := trimSpace (value.map fun r => if r = .char '\x5c' then .char '/' else r)
  let value := trimPrefix value "/"
  if value = "." then [] else value

def versionKey [SHA256] (relative : Text) : Text :=
  text "qid/version/" ++
    SHA256.hex (bytes (text "qid-version\x00" ++ canonicalRelative relative))

/-- `Core.NextID`; the number is left as it was where it cannot be stored. -/
def Core.nextID (c : Core) (writes : Bool) : Option (Core × UInt64) :=
  let sequence := c.sequence + 1
  if writes then
    some ({ c with sequence, values := c.values.put (sequenceKey, encodeUint64 sequence) },
      sequence)
  else none

/-- The new versions of the paths that were changed, each path once. -/
def versionEntries [SHA256] (read : Text → Except CoreErr (Option ℕ)) :
    List Text → List Text → Except CoreErr (List (Text × List UInt8))
  | _, [] => .ok []
  | seen, raw :: rest =>
    let relative := canonicalRelative raw
    if relative ∈ seen then versionEntries read seen rest
    else do
      let current ← read (versionKey relative)
      let next := UInt32.ofNat (current.getD 0) + 1
      let entries ← versionEntries read (relative :: seen) rest
      return (versionKey relative, encodeUint32 (if next = 0 then 1 else next)) :: entries

/-- What surrounds the end of an operation: the time it took, the clock where it is read again,
whether the store can be read and written, and what the hooks answer. -/
structure Surroundings where
  elapsed : ℤ
  now : ℤ
  readable : Text → Bool
  writes : Bool
  answers : ℕ → Answer

/-- `Core.Record`, with the event that is recorded. -/
def Core.record [SHA256] (c : Core) (event : Event) (mutationPaths : List Text)
    (env : Surroundings) : Except CoreErr (Core × Event) := do
  let normalized ← (normalizeEvent env.now event).mapError .event
  let newCount := c.counts normalized.operation + 1
  let failed : Bool := normalized.phase = .error
  let newErrors := if failed then c.errors + 1 else c.errors
  let versions ← versionEntries (readUint 4 env.readable c.values) [] mutationPaths
  require env.writes .write
  let entries := [(counterKey normalized.operation, encodeUint64 newCount),
      (lastKey, Json.marshal normalized.json)] ++
    (if failed then [(errorsKey, encodeUint64 newErrors)] else []) ++ versions
  let counts := update c.counts normalized.operation newCount
  return (⟨c.values.write entries, c.sequence, counts, newErrors⟩, normalized)

/-! ## The service -/

/-- An operation that was begun: its event has passed. -/
structure Pending where
  event : Event
  start : Time
  passed : ∃ now raw, normalizeEvent now raw = .ok event

structure Record where
  op : ℕ
  event : Event

structure HandlerRun where
  op : ℕ
  hook : Hook
  event : Event

inductive Report where
  | hook (failure : Failure)
  | core (err : CoreErr)

structure Service where
  hooks : Option Registry
  readOnly : Bool
  core : Core
  /-- What `Begin` returned for each operation. -/
  issued : List (Option Pending) := []
  log : List Record := []
  ran : List HandlerRun := []
  reports : List Report := []

def errReadOnly : Text := "filebackend: read-only backend"

def eventMutates (event : Event) : Bool :=
  match event.operation with
  | .create => true
  | .write => true
  | .remove => true
  | .prepareReplace => true
  | .commitReplace => true
  | .abortReplace => true
  | .open => event.mode &&& 0x03 ≠ 0 || event.mode &&& 0x10 ≠ 0
  | _ => false

def Service.record [SHA256] (s : Service) (op : ℕ) (event : Event) (mutationPaths : List Text)
    (env : Surroundings) : Service :=
  match s.core.record event mutationPaths env with
  | .error e => { s with reports := s.reports ++ [.core e] }
  | .ok (core, recorded) => { s with core, log := s.log ++ [⟨op, recorded⟩] }

/-- What running hooks leaves behind. -/
def Service.noteRun (s : Service) (op : ℕ) (event : Event) (run : HookRun) : Service :=
  { s with
    ran := s.ran ++ run.started.map fun hook => ⟨op, hook, event⟩
    reports := s.reports ++ run.failures.map .hook }

def Pending.final (p : Pending) (operationErr : Option Text) (elapsed : ℤ) : Event :=
  match operationErr with
  | some err => p.event.final .error (int64 elapsed) err
  | none => p.event.final .after (int64 elapsed) []

/-- `Service.Complete`; what `Begin` returns with an error has no start. -/
def Service.complete [SHA256] (s : Service) (op : ℕ) (pending : Option Pending)
    (operationErr : Option Text) (mutationPaths : List Text) (env : Surroundings) : Service :=
  match pending with
  | none => s
  | some p =>
    if isZero p.start then s
    else
      let final := p.final operationErr env.elapsed
      let mutationPaths := if operationErr.isSome then [] else mutationPaths
      let s := s.record op final mutationPaths env
      s.noteRun op final (runHooks s.hooks env.now final env.answers)

structure BeginSurroundings where
  reserves : Bool
  start : Time
  now : ℤ
  answers : ℕ → Answer
  /-- For the end of an operation that is vetoed. -/
  veto : Surroundings

inductive BeginErr where
  | reserve
  | event (err : EventErr)
deriving DecidableEq, Repr

/-- How `Begin` judges an operation. -/
inductive Verdict where
  | failed (err : BeginErr)
  | vetoed (pending : Pending) (err : Text)
  | admitted (pending : Pending)

/-- `Service.Begin`, up to what it does of its verdict. -/
def Service.judge (s : Service) (event : Event) (env : BeginSurroundings) : Service × Verdict :=
  match s.core.nextID env.reserves with
  | none => (s, .failed .reserve)
  | some (core, id) =>
    let s := { s with core }
    let event := { event with
      version := eventVersion
      id := id
      phase := .before
      readOnly := s.readOnly
      occurredAtUnixNano := int64 env.start }
    match hpassed : normalizeEvent env.now event with
    | .error e => (s, .failed (.event e))
    | .ok normalized =>
      let pending : Pending := ⟨normalized, env.start, _, _, hpassed⟩
      let run := runHooks s.hooks env.now normalized env.answers
      let s := s.noteRun s.issued.length normalized run
      match run.err with
      | some err => (s, .vetoed pending err)
      | none =>
        if s.readOnly && eventMutates normalized then (s, .vetoed pending errReadOnly)
        else (s, .admitted pending)

/-- What a begun operation is to its caller. -/
def Service.issue (s : Service) (pending : Option Pending) : Service :=
  { s with issued := s.issued ++ [pending] }

def Service.begin [SHA256] (s : Service) (event : Event) (env : BeginSurroundings) : Service :=
  match s.judge event env with
  | (s, .failed _) => s.issue none
  | (s, .vetoed pending err) =>
    (s.complete s.issued.length (some pending) (some err) [] env.veto).issue none
  | (s, .admitted pending) => s.issue (some pending)

/-- The calls of a service. Besides them the store may be changed, by `ObserveQID` and `QID` or from
elsewhere. -/
inductive Call where
  | begin (event : Event) (env : BeginSurroundings)
  | complete (op : ℕ) (operationErr : Option Text) (mutationPaths : List Text) (env : Surroundings)
  | elsewhere (values : Values)

def Service.step [SHA256] (s : Service) : Call → Service
  | .begin event env => s.begin event env
  | .complete op operationErr mutationPaths env =>
    s.complete op (s.issued.getD op none) operationErr mutationPaths env
  | .elsewhere values => { s with core := { s.core with values } }

def Service.run [SHA256] (s : Service) (calls : List Call) : Service := calls.foldl Service.step s

/-- `Service.Execute`: the operation it is given ends with `operationErr`. -/
def Service.execute [SHA256] (s : Service) (event : Event) (mutationPaths : List Text)
    (operationErr : Option Text) (env : BeginSurroundings) (env' : Surroundings) : Service :=
  let op := s.issued.length
  let s := s.begin event env
  match s.issued.getD op none with
  | none => s
  | some pending => s.complete op (some pending) operationErr mutationPaths env'

/-- A service nothing was asked of yet. -/
def Service.start (hooks : Option Registry) (readOnly : Bool) (core : Core) : Service :=
  { hooks, readOnly, core }

section

variable [SHA256]

/-! ## What is written -/

def VersionsReadable (s : Service) (mutationPaths : List Text) (env : Surroundings) : Prop :=
  ∀ raw ∈ mutationPaths, env.readable (versionKey (canonicalRelative raw)) = true ∧
    ∀ value, s.core.values (versionKey (canonicalRelative raw)) = some value → value.length = 4

variable {values : Values} {key : Text}

omit [SHA256] in
lemma exists_readUint {width : ℕ} {readable : Text → Bool} :
    (∃ n, readUint width readable values key = .ok n) ↔
      readable key = true ∧ ∀ value, values key = some value → value.length = width := by
  cases hvalue : values key with
  | none => simp [readUint, bind_eq_ok, require_eq_ok, hvalue]
  | some value =>
    simp only [readUint, hvalue, checks_ok, Option.some.injEq, forall_eq']
    constructor
    · rintro ⟨_, hreadable, hlength, -⟩
      exact ⟨hreadable, hlength⟩
    · rintro ⟨hreadable, hlength⟩
      exact ⟨_, hreadable, hlength, rfl⟩

variable {read : Text → Except CoreErr (Option ℕ)} {paths : List Text}

variable {seen : List Text}

lemma exists_versionEntries : (∃ entries, versionEntries read seen paths = .ok entries) ↔
      ∀ raw ∈ paths, canonicalRelative raw ∉ seen →
        ∃ n, read (versionKey (canonicalRelative raw)) = .ok n := by
  induction paths generalizing seen with
  | nil => simp [versionEntries]
  | cons raw rest ih =>
    unfold versionEntries
    dsimp only
    by_cases hseen : canonicalRelative raw ∈ seen
    · rw [if_pos hseen, ih]
      simp [hseen]
    · rw [if_neg hseen]
      simp only [checks_ok]
      constructor
      · rintro ⟨_, n, hn, entries, hentries, -⟩ raw' hraw' hnot
        by_cases hsame : canonicalRelative raw' = canonicalRelative raw
        · exact ⟨n, hsame ▸ hn⟩
        · rcases mem_cons.mp hraw' with rfl | hrest
          · exact absurd rfl hsame
          · apply ih.mp ⟨entries, hentries⟩ raw' hrest
            rw [mem_cons, not_or]
            exact ⟨hsame, hnot⟩
      · intro hall
        obtain ⟨n, hn⟩ := hall raw mem_cons_self hseen
        have hrest : ∀ raw' ∈ rest, canonicalRelative raw' ∉ canonicalRelative raw :: seen →
            ∃ n, read (versionKey (canonicalRelative raw')) = .ok n := fun raw' hraw' hnot =>
          hall raw' (mem_cons_of_mem _ hraw') fun hmem => hnot (mem_cons_of_mem _ hmem)
        obtain ⟨entries, hentries⟩ := ih.mpr hrest
        exact ⟨_, n, hn, entries, hentries, rfl⟩

variable {entries : List (Text × List UInt8)}

lemma versionEntries_keys (h : versionEntries read seen paths = .ok entries) :
    ∀ entry ∈ entries, ∃ relative, entry.1 = versionKey relative := by
  induction paths generalizing seen entries with
  | nil =>
    cases h
    simp
  | cons raw rest ih =>
    unfold versionEntries at h
    dsimp only at h
    split_ifs at h with hseen
    · exact ih h
    · simp only [checks_ok] at h
      obtain ⟨n, -, others, hothers, rfl⟩ := h
      intro entry hentry
      rcases mem_cons.mp hentry with rfl | hother
      · exact ⟨_, rfl⟩
      · exact ih hothers entry hother

omit [SHA256] in
lemma Values.write_of_ne
    (h : ∀ entry ∈ entries, entry.1 ≠ key) : values.write entries key = values key := by
  induction entries generalizing values with
  | nil => rfl
  | cons entry rest ih =>
    show Values.write (values.put entry) rest key = _
    rw [ih fun other hother => h other (mem_cons_of_mem _ hother)]
    exact update_of_ne (h entry mem_cons_self).symm _ _

omit [SHA256] in
lemma Values.write_append (values : Values) (a b : List (Text × List UInt8)) :
    values.write (a ++ b) = (values.write a).write b := foldl_append

lemma versionKey_ne_lastKey (relative : Text) : versionKey relative ≠ lastKey := by
  intro heq
  have hhead : (versionKey relative).head? = lastKey.head? := by rw [heq]
  have hversion : (versionKey relative).head? = some (.char 'q') := by
    rw [versionKey, head?_append]
    rfl
  have hlast : lastKey.head? = some (.char 'e') := by decide
  rw [hversion, hlast] at hhead
  revert hhead
  decide

variable {env : Surroundings}

/-- **What is recorded.** An event that passes is recorded, and is then the last one in the
store. -/
lemma Core.record_ok {c c' : Core} {event recorded : Event}
    (h : c.record event paths env = .ok (c', recorded)) :
    normalizeEvent env.now event = .ok recorded ∧
      c'.values lastKey = some (Json.marshal recorded.json) := by
  simp only [Core.record, checks_ok, mapError_eq_ok, Prod.mk.injEq] at h
  obtain ⟨normalized, hnormalized, versions, hversions, -, rfl, rfl⟩ := h
  refine ⟨hnormalized, ?_⟩
  have hversion : ∀ entry ∈ versions, entry.1 ≠ lastKey := by
    intro entry hentry
    obtain ⟨relative, hkey⟩ := versionEntries_keys hversions entry hentry
    rw [hkey]
    exact versionKey_ne_lastKey relative
  dsimp only
  rw [Values.write_append, Values.write_of_ne hversion, Values.write_append, Values.write_of_ne]
  · simp only [Values.write, Values.put, foldl_cons, foldl_nil, update_self]
  · intro entry hentry
    split_ifs at hentry
    · rw [mem_singleton.mp hentry]
      show errorsKey ≠ lastKey
      decide
    · cases hentry

lemma Core.exists_record {c : Core} {event : Event} : (∃ out, c.record event paths env = .ok out) ↔
      (∃ e, normalizeEvent env.now event = .ok e) ∧
        (∃ entries, versionEntries (readUint 4 env.readable c.values) [] paths = .ok entries) ∧
        env.writes = true := by
  simp only [Core.record, checks_ok, mapError_eq_ok]
  constructor
  · rintro ⟨_, e, he, entries, hentries, hwrites, -⟩
    exact ⟨⟨e, he⟩, ⟨entries, hentries⟩, hwrites⟩
  · rintro ⟨⟨e, he⟩, ⟨entries, hentries⟩, hwrites⟩
    exact ⟨_, e, he, entries, hentries, hwrites, rfl⟩

end

end WeaverSSH.FileBackend
