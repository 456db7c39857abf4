import WeaverSSH.Framework.Checks
import WeaverSSH.Framework.Text

/-!
# The supervisor of the socket engine

A supervisor runs one engine and replaces it when it is told to read its configuration again. Where
the listeners of the two configurations are apart, the new engine starts before the old one is
stopped; where they share an address the old one goes first, and is started again if the new one
does not come up.

Engines are kept in the order they were made, with what has happened to each. What an engine does
when it is started or stopped is given with the step (`Startup`, `Stopping`), and so is the clock.
-/

namespace WeaverSSH.SocketControl

/-- An error: its text, and whether `context.Canceled` is in its chain. -/
structure Failure where
  text : Text
  canceled : Bool
deriving DecidableEq, Repr

/-- `fmt.Errorf` with `%w` at the end. -/
def Failure.wrap (note : Text) (e : Failure) : Failure := ⟨note ++ e.text, e.canceled⟩

def normalEngineStop : Option Failure → Bool
  | none => true
  | some e => e.canceled

structure Engine (κ : Type) where
  config : κ
  started : Bool
  cancelled : Bool
  stopped : Bool
deriving DecidableEq, Repr

def Engine.running {κ : Type} (e : Engine κ) : Bool := e.started && !e.cancelled && !e.stopped

/-- `engineSlot`; `engine` is a place in the list of engines. -/
structure Slot (κ π : Type) where
  generation : UInt64
  path : Text
  config : κ
  plan : π
  digest : Text
  engine : ℕ
  startedAt : ℤ
deriving DecidableEq, Repr

/-- `SupervisorConfig` and the functions of `socketengine` that `load` calls; `sum` is the digest of
a plan in hexadecimal. -/
structure Env (κ π : Type) where
  configPath : Text
  readConfig : Text → Except Failure κ
  inspect : κ → Except Failure π
  addresses : π → List Text
  sum : π → Text

structure Supervisor (κ π : Type) where
  engines : List (Engine κ)
  /-- Whether it has a context: `Start` gives it one. -/
  root : Bool
  current : Option (Slot κ π)
  lastReload : ℤ
  lastReloadError : Text
  stopping : Bool
deriving DecidableEq, Repr

/-- `Status`, but for the counters of the engine. -/
structure Status (π : Type) where
  generation : UInt64
  configPath : Text
  configSHA256 : Text
  startedAt : ℤ
  reloadedAt : ℤ
  lastReloadError : Text
  plan : Option π
  stopping : Bool
deriving DecidableEq, Repr

/-- What becomes of an engine that `startSlot` makes. Left out is one whose `Run` fails between
`ready` and `done`, which `startSlot` returns all the same. -/
inductive Startup where
  /-- `NewEngine` fails. -/
  | refused (e : Failure)
  | bootError (e : Failure)
  /-- `Run` returns, after the engine was ready or before. -/
  | finished (ready : Bool) (runErr : Option Failure)
  | parentDone (e : Failure)
  | up
deriving DecidableEq, Repr

/-- What `stopSlot` sees: the result of `Stop`, and that of `Run` if it returns before the context
is done with `ctxErr`. -/
structure Stopping where
  stop : Option Failure
  finished : Option (Option Failure)
  ctxErr : Failure
deriving DecidableEq, Repr

/-- What the steps of one `Reload` meet: starting the new engine and stopping the old one, the same
for the two steps back, and the clock. -/
structure Outcomes where
  start : Startup
  stop : Stopping
  startAgain : Startup
  stopAgain : Stopping
  startedAt : ℤ
  now : ℤ
deriving DecidableEq, Repr

/-- The error `startSlot` returns. -/
def Startup.error : Startup → Option Failure
  | .refused e => some e
  | .bootError e => some e
  | .finished true runErr =>
    some (runErr.getD ⟨"socketcontrol: engine stopped during startup", false⟩)
  | .finished false runErr =>
    some (runErr.getD ⟨"socketcontrol: engine stopped before ready", false⟩)
  | .parentDone e => some e
  | .up => none

/-- The engine `startSlot` makes, as it leaves it: cancelled if it did not come up. -/
def Startup.engine {κ : Type} (o : Startup) (config : κ) : Option (Engine κ) :=
  match o with
  | .refused _ => none
  | .finished .. => some ⟨config, true, true, true⟩
  | .bootError _ | .parentDone _ => some ⟨config, true, true, false⟩
  | .up => some ⟨config, true, false, false⟩

/-- The error `stopSlot` returns. -/
def Stopping.error (o : Stopping) : Option Failure :=
  match o.finished with
  | some runErr => if o.stop.isNone && !normalEngineStop runErr then runErr else o.stop
  | none => if o.stop.isNone then some o.ctxErr else o.stop

def addressesDisjoint (left right : List Text) : Bool := right.all fun address => address ∉ left

variable {κ π : Type}

/-- `Supervisor.load`. -/
def Env.load (env : Env κ π) (path : Text) : Except Failure (κ × π × Text) := do
  let config ← env.readConfig path
  let plan ← env.inspect config
  return (config, plan, env.sum plan)

namespace Supervisor

/-- `NewSupervisor`, once its configuration has been accepted. -/
def new : Supervisor κ π := ⟨[], false, none, 0, [], false⟩

def status (s : Supervisor κ π) : Status π :=
  match s.current with
  | none => ⟨0, [], [], 0, s.lastReload, s.lastReloadError, none, s.stopping⟩
  | some slot =>
    ⟨slot.generation, slot.path, slot.digest, slot.startedAt, s.lastReload, s.lastReloadError,
      some slot.plan, s.stopping⟩

def startSlot (s : Supervisor κ π) (generation : UInt64) (path : Text) (config : κ) (plan : π)
    (digest : Text) (o : Startup) (now : ℤ) : Except Failure (Slot κ π) × Supervisor κ π :=
  (match o.error with
    | some e => .error e
    | none => .ok ⟨generation, path, config, plan, digest, s.engines.length, now⟩,
   { s with engines := s.engines ++ (o.engine config).toList })

/-- `stopSlot`: the context of the engine is cancelled before anything else. -/
def stopSlot (s : Supervisor κ π) (slot : Slot κ π) (o : Stopping) :
    Option Failure × Supervisor κ π :=
  (o.error, { s with engines := s.engines.modify slot.engine fun e =>
    { e with cancelled := true, stopped := e.stopped || o.finished.isSome } })

def recordReloadError (s : Supervisor κ π) (e : Failure) : Supervisor κ π :=
  { s with lastReloadError := e.text }

/-- `Supervisor.Start`, up to the goroutine that waits for the end of its context. -/
def start (env : Env κ π) (s : Supervisor κ π) (o : Startup) (now : ℤ) :
    Option Failure × Supervisor κ π :=
  if s.root then (some ⟨"socketcontrol: supervisor already started", false⟩, s) else
  let s := { s with root := true }
  match env.load env.configPath with
  | .error e => (some e, s)
  | .ok (config, plan, digest) =>
    match s.startSlot 1 env.configPath config plan digest o now with
    | (.error e, s) => (some e, s)
    | (.ok slot, s) => (none, { s with current := some slot })

/-- The first branch of `Reload`: the new engine starts, then the old one is retired. -/
def replaceDisjoint (s : Supervisor κ π) (current : Slot κ π) (path : Text)
    (loaded : κ × π × Text) (o : Outcomes) : Except Failure (Slot κ π) × Supervisor κ π :=
  match s.startSlot (current.generation + 1) path loaded.1 loaded.2.1 loaded.2.2 o.start
      o.startedAt with
  | (.error e, s) => (.error e, s)
  | (.ok replacement, s) =>
    match s.stopSlot current o.stop with
    | (none, s) => (.ok replacement, s)
    | (some e, s) =>
      (.error (e.wrap "retire previous generation: "), (s.stopSlot replacement o.stopAgain).2)

/-- The second branch: the old engine is stopped, then the new one starts, and the old
configuration is started again after an error. -/
def replaceOverlapping (s : Supervisor κ π) (current : Slot κ π) (path : Text)
    (loaded : κ × π × Text) (o : Outcomes) : Except Failure (Slot κ π) × Supervisor κ π :=
  let replaced : Except Failure (Slot κ π) × Supervisor κ π :=
    match s.stopSlot current o.stop with
    | (some e, s) => (.error e, s)
    | (none, s) => s.startSlot (current.generation + 1) path loaded.1 loaded.2.1 loaded.2.2 o.start
        o.startedAt
  match replaced with
  | (.ok replacement, s) => (.ok replacement, s)
  | (.error e, s) =>
    match s.startSlot current.generation current.path current.config current.plan current.digest
        o.startAgain o.startedAt with
    | (.ok rollback, s) => (.error e, { s with current := some rollback })
    | (.error e', s) =>
      (.error (e'.wrap ("reload failed: " ++ e.text ++ "; rollback failed: ")), s)

/-- `Supervisor.Reload`: its status, its error, and the supervisor after it. -/
def reload (env : Env κ π) (s : Supervisor κ π) (requestedPath : Text) (o : Outcomes) :
    Option (Status π) × Option Failure × Supervisor κ π :=
  match s.root, s.current with
  | true, some current =>
    let path := if trimSpace requestedPath = [] then current.path else trimSpace requestedPath
    match env.load path with
    | .error e => let s := s.recordReloadError e; (s.status, some e, s)
    | .ok loaded =>
      if loaded.2.2 = current.digest then (s.status, none, s) else
      let replace :=
        if addressesDisjoint (env.addresses current.plan) (env.addresses loaded.2.1)
        then replaceDisjoint else replaceOverlapping
      match replace s current path loaded o with
      | (.error e, s) => let s := s.recordReloadError e; (s.status, some e, s)
      | (.ok replacement, s) =>
        let s := { s with current := some replacement, lastReload := o.now, lastReloadError := [] }
        (s.status, none, s)
  | _, _ => (none, some ⟨"socketcontrol: supervisor not started", false⟩, s)

end Supervisor

end WeaverSSH.SocketControl
