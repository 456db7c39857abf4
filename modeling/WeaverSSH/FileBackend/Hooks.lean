import WeaverSSH.Framework.Checks
import WeaverSSH.Framework.Clock
import WeaverSSH.Framework.Json
import WeaverSSH.Framework.OrderedMap

/-!
# Events and hooks of the file backend

`hooks.go`: an event describes one file operation in one of three phases, and hooks are run on it.
`normalizeEvent` bounds what an event may hold.

What comes of invoking a handler is an `Answer`. A hook waits for one of its slots, and its handler
may still be running when its time is over, so there are answers without a run, and runs without an
answer. The hooks of a registry stand in the order in which they run.
-/

namespace WeaverSSH.FileBackend

inductive Operation where
  | attach
  | walk
  | open
  | create
  | read
  | write
  | clunk
  | remove
  | stat
  | readDir
  | prepareReplace
  | commitReplace
  | abortReplace
  | other (name : Text)
deriving DecidableEq, Repr

def Operation.valid : Operation → Bool
  | .other _ => false
  | _ => true

def Operation.name : Operation → Text
  | .attach => "attach"
  | .walk => "walk"
  | .open => "open"
  | .create => "create"
  | .read => "read"
  | .write => "write"
  | .clunk => "clunk"
  | .remove => "remove"
  | .stat => "stat"
  | .readDir => "readdir"
  | .prepareReplace => "replace.prepare"
  | .commitReplace => "replace.commit"
  | .abortReplace => "replace.abort"
  | .other name => name

inductive Phase where
  | before
  | after
  | error
  | other (name : Text)
deriving DecidableEq, Repr

def Phase.valid : Phase → Bool
  | .other _ => false
  | _ => true

def Phase.name : Phase → Text
  | .before => "before"
  | .after => "after"
  | .error => "error"
  | .other name => name

inductive Mode where
  | observe
  | enforce
  | other (name : Text)
deriving DecidableEq, Repr

def Mode.valid : Mode → Bool
  | .other _ => false
  | _ => true

structure Event where
  version : Text
  id : UInt64
  operation : Operation
  phase : Phase
  path : Text
  secondaryPath : Text
  offset : UInt64
  size : UInt64
  mode : UInt32
  directory : Bool
  readOnly : Bool
  occurredAtUnixNano : ℤ
  durationNanos : ℤ
  error : Text
  attributes : OrderedMap Text Text

def Event.json (e : Event) : Json :=
  let number (name : String) (n : ℤ) : List (Text × Json) :=
    if n = 0 then [] else [(text name, .int n)]
  let flag (name : String) (b : Bool) : List (Text × Json) :=
    if b then [(text name, .bool true)] else []
  .obj ([(text "version", .str e.version), (text "id", .int e.id.toNat),
      (text "operation", .str e.operation.name), (text "phase", .str e.phase.name)] ++
    Json.optional "path" e.path ++ Json.optional "secondary_path" e.secondaryPath ++
    number "offset" e.offset.toNat ++ number "size" e.size.toNat ++
    number "file_mode" e.mode.toNat ++ flag "directory" e.directory ++
    flag "read_only" e.readOnly ++ [(text "occurred_at_unix_nano", .int e.occurredAtUnixNano)] ++
    number "duration_nanos" e.durationNanos ++ Json.optional "error" e.error ++
    (if e.attributes.entries = [] then []
      else [(text "attributes",
        .obj (e.attributes.entries.map fun entry => (entry.1, .str entry.2)))]))

def eventVersion : Text := "weaverssh.file-backend-event.v1"

def maxEventPathBytes : ℕ := 4096

def maxEventError : ℕ := 4096

def maxEventAttrs : ℕ := 24

def maxAttrKey : ℕ := 64

def maxAttrValue : ℕ := 1024

inductive EventErr where
  | event
  | phase
  | path
  | error
  | attributes
  | attribute
deriving DecidableEq, Repr

def EventErr.message : EventErr → Text
  | .event => "filebackend: invalid hook event"
  | .phase => "filebackend: invalid hook event phase"
  | .path => "filebackend: invalid hook event path"
  | .error => "filebackend: invalid hook event error"
  | .attributes => "filebackend: too many hook attributes"
  | .attribute => "filebackend: invalid hook attribute"

def containsControl (value : Text) : Bool := value.any Rune.isControl

def legible (bound : ℕ) (value : Text) : Bool := len value ≤ bound && !containsControl value

def attributeOk (entry : Text × Text) : Bool :=
  entry.1 ≠ [] && entry.1 = trimSpace entry.1 && legible maxAttrKey entry.1 &&
    legible maxAttrValue entry.2

/-- The defaults of an event; `now` is the clock where it is read. -/
def Event.stamp (now : ℤ) (e : Event) : Event :=
  { e with
    version := if e.version = [] then eventVersion else e.version
    occurredAtUnixNano := if e.occurredAtUnixNano = 0 then now else e.occurredAtUnixNano }

/-- `normalizeEvent`. A NUL byte in a path is a control character. -/
def normalizeEvent (now : ℤ) (raw : Event) : Except EventErr Event := do
  let e := raw.stamp now
  require (e.version = eventVersion && e.operation.valid) .event
  require e.phase.valid .phase
  require (legible maxEventPathBytes e.path && legible maxEventPathBytes e.secondaryPath) .path
  require (legible maxEventError e.error) .error
  require (e.attributes.entries.length ≤ maxEventAttrs) .attributes
  require (e.attributes.entries.all attributeOk) .attribute
  return e

structure Hook where
  operation : Operation
  phase : Phase
  priority : ℤ
  mode : Mode
  timeout : Duration
  maxParallel : ℤ
  handler : Option ℕ
deriving DecidableEq, Repr

inductive HookErr where
  | operation (name : Text)
  | phase (name : Text)
  | handler
  | mode (mode : Mode)
  | enforce
  | timeout
  | parallel
  | registry
deriving DecidableEq, Repr

def Hook.defaults (raw : Hook) : Hook :=
  { raw with
    phase := if raw.phase = .other [] then .before else raw.phase
    mode := if raw.mode = .other [] then .observe else raw.mode
    timeout := if raw.timeout ≤ 0 then 2 * second else raw.timeout
    maxParallel := if raw.maxParallel ≤ 0 then 1 else raw.maxParallel }

def normalizeHook (raw : Hook) : Except HookErr Hook := do
  let hook := raw.defaults
  require hook.operation.valid (.operation hook.operation.name)
  require hook.phase.valid (.phase hook.phase.name)
  require hook.handler.isSome .handler
  require hook.mode.valid (.mode hook.mode)
  require (!(hook.mode = .enforce && hook.phase ≠ .before)) .enforce
  require (hook.timeout ≤ 60 * second) .timeout
  require (hook.maxParallel ≤ 64) .parallel
  return hook

def maxHooks : ℕ := 128

/-- The hooks, in the order in which they run. -/
structure Registry where
  hooks : List Hook
  normal : ∀ hook ∈ hooks, normalizeHook hook = .ok hook

/-- A hook goes behind those of its priority. -/
def insertHook (hook : Hook) : List Hook → List Hook
  | [] => [hook]
  | other :: rest =>
    if hook.priority < other.priority then hook :: other :: rest
    else other :: insertHook hook rest

variable {hook : Hook}

variable {hooks : List Hook}

lemma mem_insertHook {other : Hook} :
    other ∈ insertHook hook hooks ↔ other = hook ∨ other ∈ hooks := by
  induction hooks with
  | nil => simp [insertHook]
  | cons first rest ih =>
    unfold insertHook
    split_ifs
    · simp
    · simp only [List.mem_cons, ih]
      tauto

lemma ite_default {α : Type} (unset : α → Prop) [DecidablePred unset] {default : α}
    (h : ¬ unset default) (value : α) :
    (if unset (if unset value then default else value) then default
      else if unset value then default else value) = if unset value then default else value := by
  by_cases hunset : unset value
  · rw [if_pos hunset, if_neg h]
  · rw [if_neg hunset, if_neg hunset]

lemma Hook.defaults_defaults (raw : Hook) : raw.defaults.defaults = raw.defaults := by
  unfold Hook.defaults
  rw [Hook.mk.injEq]
  exact ⟨rfl, ite_default (· = Phase.other []) (by decide) _, rfl,
    ite_default (· = Mode.other []) (by decide) _, ite_default (· ≤ 0) (by decide) _,
    ite_default (· ≤ 0) (by decide) _, rfl⟩

lemma normalizeHook_normalizeHook {raw : Hook} (h : normalizeHook raw = .ok hook) :
    normalizeHook hook = .ok hook := by
  have heq : hook = raw.defaults := by
    simp only [normalizeHook, checks_ok] at h
    obtain ⟨_, -, _, -, _, -, _, -, _, -, _, -, _, -, rfl⟩ := h
    rfl
  subst heq
  unfold normalizeHook at h ⊢
  rw [Hook.defaults_defaults]
  exact h

def Registry.register (r : Registry) (raw : Hook) : Except HookErr Registry :=
  match hnormal : normalizeHook raw with
  | .error e => .error e
  | .ok hook =>
    if maxHooks ≤ r.hooks.length then .error .registry
    else .ok ⟨insertHook hook r.hooks, fun other hother => by
      rcases mem_insertHook.mp hother with rfl | hold
      · exact normalizeHook_normalizeHook hnormal
      · exact r.normal other hold⟩

/-- The hooks for an operation in a phase; a service may have no registry. -/
def entries (registry : Option Registry) (operation : Operation) (phase : Phase) : List Hook :=
  (registry.elim [] Registry.hooks).filter fun hook =>
    hook.operation = operation && hook.phase = phase

variable {phase : Phase}

lemma not_enforcing {registry : Option Registry} {operation : Operation}
    (h : hook ∈ entries registry operation phase) (hphase : phase ≠ .before) :
    hook.mode ≠ .enforce := by
  cases registry with
  | none => cases h
  | some r =>
    simp only [entries, Option.elim_some, List.mem_filter, checks_ok] at h
    obtain ⟨hmem, -, hin⟩ := h
    have hnormal := r.normal hook hmem
    simp only [normalizeHook, checks_ok] at hnormal
    obtain ⟨-, -, -, -, henforce, -, -, hdefaults⟩ := hnormal
    rw [hdefaults] at henforce
    intro hmode
    rw [hmode, hin] at henforce
    simp [hphase] at henforce

/-- What comes of invoking a hook. -/
inductive Answer where
  /-- The context was over before there was a slot. -/
  | noSlot (cancelled : Bool)
  | returned (err : Option Text)
  | panicked (value : Text)
  /-- The context was over before the handler was done. -/
  | overran (cancelled : Bool)
deriving DecidableEq, Repr

/-- `ctx.Err()`. -/
def contextErr (cancelled : Bool) : Text :=
  if cancelled then "context canceled" else "context deadline exceeded"

def Answer.err : Answer → Option Text
  | .noSlot cancelled => some (contextErr cancelled)
  | .returned err => err
  | .panicked value => some (text "panic: " ++ value)
  | .overran cancelled => some (contextErr cancelled)

def Answer.started : Answer → Bool
  | .noSlot _ => false
  | _ => true

structure Failure where
  operation : Operation
  phase : Phase
  mode : Mode
  err : Text
deriving DecidableEq, Repr

/-- What came of running hooks: the handlers run, the failures reported, and the error. -/
structure HookRun where
  started : List Hook := []
  failures : List Failure := []
  err : Option Text := none
deriving DecidableEq, Repr

def vetoMessage (event : Event) (err : Text) : Text :=
  text "filebackend: " ++ event.operation.name ++ text " " ++ event.phase.name ++
    text " hook vetoed operation: " ++ err

/-- The loop of `Registry.Run`, with the answers of the hooks from the `k`-th on. -/
def invokeHooks (event : Event) (answers : ℕ → Answer) : ℕ → List Hook → HookRun
  | _, [] => {}
  | k, hook :: rest =>
    let answer := answers k
    let started := if answer.started then [hook] else []
    match answer.err with
    | none =>
      let run := invokeHooks event answers (k + 1) rest
      { run with started := started ++ run.started }
    | some err =>
      let failure : Failure := ⟨event.operation, event.phase, hook.mode, err⟩
      if hook.mode = .enforce then ⟨started, [failure], some (vetoMessage event err)⟩
      else
        let run := invokeHooks event answers (k + 1) rest
        { run with
          started := started ++ run.started
          failures := failure :: run.failures }

/-- `Registry.Run`. -/
def runHooks (registry : Option Registry) (now : ℤ) (event : Event) (answers : ℕ → Answer) :
    HookRun :=
  match registry with
  | none => {}
  | some _ =>
    match normalizeEvent now event with
    | .error e => { err := some e.message }
    | .ok event => invokeHooks event answers 0 (entries registry event.operation event.phase)

variable {event : Event} {answers : ℕ → Answer}

lemma started_invokeHooks (h : ∀ hook ∈ hooks, hook.mode ≠ .enforce) (k : ℕ) :
    (invokeHooks event answers k hooks).started =
      ((hooks.zipIdx k).filter fun entry => (answers entry.2).started).map Prod.fst := by
  induction hooks generalizing k with
  | nil => rfl
  | cons hook rest ih =>
    have hrest := ih (fun other hother => h other (List.mem_cons_of_mem _ hother)) (k + 1)
    have hmode := h hook List.mem_cons_self
    unfold invokeHooks
    rw [List.zipIdx_cons, List.filter_cons]
    cases answers k with
    | noSlot cancelled => simp [Answer.err, Answer.started, hmode, hrest]
    | returned err => cases err <;> simp [Answer.err, Answer.started, hmode, hrest]
    | panicked value | overran cancelled => simp [Answer.err, Answer.started, hmode, hrest]

lemma started_invokeHooks_eq_iff (h : ∀ hook ∈ hooks, hook.mode ≠ .enforce) :
    (invokeHooks event answers 0 hooks).started = hooks ↔
      ∀ k < hooks.length, (answers k).started = true := by
  rw [started_invokeHooks h]
  constructor
  · intro heq k hk
    have hlength := congrArg List.length heq
    rw [List.length_map] at hlength
    have hall := List.length_filter_eq_length_iff.mp
      (hlength.trans (@List.length_zipIdx _ hooks 0).symm)
    apply hall (hooks[k], k)
    rw [List.mem_zipIdx_iff_getElem?]
    exact List.getElem?_eq_getElem hk
  · intro hall
    rw [List.filter_eq_self.mpr, List.zipIdx_map_fst]
    intro entry hentry
    exact hall entry.2 (by simpa using List.snd_lt_of_mem_zipIdx hentry)

/-! ## Events that pass -/

lemma normalizeEvent_eq_ok {now : ℤ} {raw e : Event} : normalizeEvent now raw = .ok e ↔
      ((raw.stamp now).version = eventVersion ∧ raw.operation.valid = true) ∧
        raw.phase.valid = true ∧ (legible maxEventPathBytes raw.path = true ∧
          legible maxEventPathBytes raw.secondaryPath = true) ∧
        legible maxEventError raw.error = true ∧ raw.attributes.entries.length ≤ maxEventAttrs ∧
        raw.attributes.entries.all attributeOk = true ∧ raw.stamp now = e := by
  simp only [normalizeEvent, checks_ok]
  rfl

def Event.final (e : Event) (phase : Phase) (duration : ℤ) (err : Text) : Event :=
  { e with phase, durationNanos := duration, error := err }

/-- After an event that passed, the one that ends the operation passes exactly where its error is
legible. -/
lemma normalizeEvent_final {now now' : ℤ} {raw e : Event} (h : normalizeEvent now raw = .ok e)
    (hphase : phase.valid = true) {duration : ℤ} {err : Text} {e' : Event} :
    normalizeEvent now' (e.final phase duration err) = .ok e' ↔
      legible maxEventError err = true ∧ (e.final phase duration err).stamp now' = e' := by
  obtain ⟨⟨hversion, hoperation⟩, -, hpaths, -, hlength, hattributes, rfl⟩ :=
    normalizeEvent_eq_ok.mp h
  have hversion' : (((raw.stamp now).final phase duration err).stamp now').version =
      eventVersion := by
    show (if (raw.stamp now).version = [] then eventVersion else (raw.stamp now).version) = _
    rw [hversion]
    rfl
  constructor
  · intro hok
    obtain ⟨-, -, -, hlegible, -, -, heq⟩ := normalizeEvent_eq_ok.mp hok
    exact ⟨hlegible, heq⟩
  · rintro ⟨hlegible, heq⟩
    apply normalizeEvent_eq_ok.mpr
    exact ⟨⟨hversion', hoperation⟩, hphase, hpaths, hlegible, hlength, hattributes, heq⟩

end WeaverSSH.FileBackend
