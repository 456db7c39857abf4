import WeaverSSH.SessionLink.Types

/-!
# The manager of logical links

The manager keeps one slot for each link: what is known about the transport that carries it, and the
value that transport published. Every method takes the lock once and is one step here; each pass of
the loop of `Wait` is a step; `Publish` is a `Begin` and a `Ready`. Each step has its own reading of
the clock, and nothing relates them.

`log` is a history that the source does not keep: the successes of `Begin`, `Ready`, `Drain` and
`Withdraw`, and each time a lease was seen to have run out.
-/

namespace WeaverSSH.SessionLink

variable {T : Type*}

/-- What happened to a link. -/
inductive Event (T : Type*) where
  | began (token : Token)
  | readied (token : Token) (value : T)
  | drained (token : Token)
  | withdrawn (token : Token)
  | expired (id : ID)
deriving DecidableEq, Repr

def Event.link : Event T → ID
  | .began token | .readied token _ | .drained token | .withdrawn token => token.linkID
  | .expired id => id

/-- What is known about a link. `value` and `hasValue` of the source are one field. -/
structure Slot (T : Type*) where
  snapshot : Snapshot
  value : Option T
deriving DecidableEq, Repr

/-- `known` lists the keys of `links` in the order they were made. -/
structure Manager (T : Type*) where
  links : ID → Option (Slot T) := fun _ => none
  known : List ID := []
  log : List (Event T) := []

/-- `matches`. -/
def fits (snapshot : Snapshot) (token : Token) : Bool :=
  snapshot.linkID = token.linkID && snapshot.transportID = token.transportID &&
    snapshot.generation = token.generation

/-- `boundedError`: the text of an error, at most 4096 bytes of it. -/
def boundedError (message : Text) : Text :=
  let value := trimSpace message
  if 4096 < len value then ofBytes ((bytes value).take 4096) else value

/-- The text of `ErrLeaseExpired`. -/
def leaseExpiredText : Text := "sessionlink: transport lease expired"

/-- `disconnectLocked`. -/
def Slot.disconnect (s : Slot T) (now : Time) (cause : Option Text) : Slot T where
  snapshot := { s.snapshot with
    state := .disconnected
    updatedAt := now
    lastError := (cause.map boundedError).getD [] }
  value := none

namespace Manager

def put (m : Manager T) (id : ID) (s : Slot T) : Manager T :=
  { m with links := Function.update m.links id (some s) }

def note (m : Manager T) (e : Event T) : Manager T := { m with log := m.log ++ [e] }

/-- `slotLocked`: the slot of a link, made if there is none. -/
def slotLocked (m : Manager T) (id : ID) (created : Time) : Manager T × Slot T :=
  match m.links id with
  | some s => (m, s)
  | none =>
    let s : Slot T :=
      ⟨{ version := idVersion, linkID := id, state := .disconnected, updatedAt := created }, none⟩
    ({ m with links := Function.update m.links id (some s), known := m.known ++ [id] }, s)

/-- A lease was seen to have run out: `disconnectLocked` with `ErrLeaseExpired`. -/
def expire (m : Manager T) (id : ID) (s : Slot T) (now : Time) : Manager T × Slot T :=
  let s := s.disconnect now (some leaseExpiredText)
  ((m.put id s).note (.expired id), s)

def expireLocked (m : Manager T) (id : ID) (s : Slot T) (now : Time) : Manager T × Slot T :=
  if s.snapshot.state = .disconnected || isZero s.snapshot.leaseUntil ||
      now < s.snapshot.leaseUntil then (m, s)
  else m.expire id s now

section

variable [Unicode] [SHA256]

def begin (m : Manager T) (descriptor : Descriptor) (transportID : TransportID) (lease : Duration)
    (now created : Time) : Manager T × Except LinkErr (Token × Snapshot) :=
  match deriveID descriptor with
  | .error e => (m, .error e)
  | .ok id =>
    match validateTransportID transportID with
    | .error e => (m, .error e)
    | .ok () =>
      match validateLease lease with
      | .error e => (m, .error e)
      | .ok () =>
        match normalizeDescriptor descriptor with
        | .error e => (m, .error e)
        | .ok (normalized, _, _) =>
          let (m, s) := m.slotLocked id created
          let (m, s) := m.expireLocked id s now
          let generation := s.snapshot.generation + 1
          let snapshot : Snapshot :=
            { version := idVersion
              linkID := id
              transportID := trimSpace transportID
              generation
              localNode := normalized.localNode
              peerNode := normalized.peerNode
              state := .connecting
              leaseUntil := now + lease
              updatedAt := now }
          let token : Token := ⟨id, snapshot.transportID, generation⟩
          ((m.put id ⟨snapshot, none⟩).note (.began token), .ok (token, snapshot))

end

/-- `Ready`. A failure may still report the snapshot. -/
def ready (m : Manager T) (token : Token) (value : T) (now : Time) :
    Manager T × Except (LinkErr × Option Snapshot) Snapshot :=
  match m.links token.linkID with
  | none => (m, .error (.generationMismatch, none))
  | some s =>
    if !fits s.snapshot token then (m, .error (.generationMismatch, none))
    else if !(now < s.snapshot.leaseUntil) then
      let (m, s) := m.expire token.linkID s now
      (m, .error (.leaseExpired, some s.snapshot))
    else if s.snapshot.state ≠ .connecting then
      (m, .error (.generationMismatch, some s.snapshot))
    else
      let snapshot := { s.snapshot with state := .ready, lastError := [], updatedAt := now }
      ((m.put token.linkID ⟨snapshot, some value⟩).note (.readied token value), .ok snapshot)

def renew (m : Manager T) (token : Token) (lease : Duration) (now : Time) :
    Manager T × Except (LinkErr × Option Snapshot) Snapshot :=
  match validateLease lease with
  | .error e => (m, .error (e, none))
  | .ok () =>
    match m.links token.linkID with
    | none => (m, .error (.generationMismatch, none))
    | some s =>
      if !fits s.snapshot token then (m, .error (.generationMismatch, none))
      else if !(now < s.snapshot.leaseUntil) then
        let (m, s) := m.expire token.linkID s now
        (m, .error (.leaseExpired, some s.snapshot))
      else if s.snapshot.state = .disconnected then (m, .error (.notReady, some s.snapshot))
      else
        let snapshot := { s.snapshot with leaseUntil := now + lease, updatedAt := now }
        (m.put token.linkID { s with snapshot }, .ok snapshot)

def drain (m : Manager T) (token : Token) (now : Time) :
    Manager T × Except (LinkErr × Option Snapshot) Snapshot :=
  match m.links token.linkID with
  | none => (m, .error (.generationMismatch, none))
  | some s =>
    if !fits s.snapshot token then (m, .error (.generationMismatch, none))
    else
      let (m, s) := m.expireLocked token.linkID s now
      if s.snapshot.state ≠ .ready then (m, .error (.notReady, some s.snapshot))
      else
        let snapshot := { s.snapshot with state := .draining, updatedAt := now }
        ((m.put token.linkID { s with snapshot }).note (.drained token), .ok snapshot)

def withdraw (m : Manager T) (token : Token) (cause : Option Text) (now : Time) :
    Manager T × Bool :=
  match m.links token.linkID with
  | none => (m, false)
  | some s =>
    if !fits s.snapshot token then (m, false)
    else ((m.put token.linkID (s.disconnect now cause)).note (.withdrawn token), true)

/-- `Current`: the value and the snapshot, or the snapshot alone where there is a slot. -/
def current [Unicode] (m : Manager T) (id : ID) (now : Time) :
    Manager T × Option T × Option Snapshot :=
  match validateID id with
  | .error _ => (m, none, none)
  | .ok () =>
    match m.links id with
    | none => (m, none, none)
    | some s =>
      let (m, s) := m.expireLocked id s now
      if !s.snapshot.readyAt now then (m, none, some s.snapshot)
      else (m, s.value, some s.snapshot)

/-- A pass of the loop of `Wait`: the value and the snapshot, or nothing where `Wait` goes on to
wait. -/
def wait [Unicode] (m : Manager T) (id : ID) (now created : Time) :
    Manager T × Except LinkErr (Option (T × Snapshot)) :=
  match validateID id with
  | .error e => (m, .error e)
  | .ok () =>
    let (m, s) := m.slotLocked id created
    let (m, s) := m.expireLocked id s now
    if s.snapshot.readyAt now then (m, .ok (s.value.map (·, s.snapshot))) else (m, .ok none)

def snapshot [Unicode] (m : Manager T) (id : ID) (now : Time) : Manager T × Option Snapshot :=
  match validateID id with
  | .error _ => (m, none)
  | .ok () =>
    match m.links id with
    | none => (m, none)
    | some s =>
      let (m, s) := m.expireLocked id s now
      (m, some s.snapshot)

/-- The body of the loop of `List`. -/
def listOne (now : Time) : Manager T × List Snapshot → ID → Manager T × List Snapshot
  | (m, out), id =>
    match m.links id with
    | none => (m, out)
    | some s =>
      let (m, s) := m.expireLocked id s now
      (m, out ++ [s.snapshot])

/-- `List`: every link, in the order of the identifiers. -/
def list (m : Manager T) (now : Time) : Manager T × List Snapshot :=
  let (m, out) := m.known.foldl (listOne now) (m, [])
  (m, out.mergeSort fun a b => decide (bytes a.linkID ≤ bytes b.linkID))

/-- `Publish`: its `Begin`, then its `Ready`. -/
def publish [Unicode] [SHA256] (m : Manager T) (descriptor : Descriptor) (transportID : TransportID)
    (lease : Duration) (value : T) (now created later : Time) :
    Manager T × Except LinkErr (Token × Snapshot) :=
  match m.begin descriptor transportID lease now created with
  | (m, .error e) => (m, .error e)
  | (m, .ok (token, _)) =>
    match m.ready token value later with
    | (m, .error (e, _)) => (m, .error e)
    | (m, .ok snapshot) => (m, .ok (token, snapshot))

/-- The steps of the methods. -/
inductive Call (T : Type*) where
  | begin (descriptor : Descriptor) (transportID : TransportID) (lease : Duration)
      (now created : Time)
  | ready (token : Token) (value : T) (now : Time)
  | publish (descriptor : Descriptor) (transportID : TransportID) (lease : Duration) (value : T)
      (now created later : Time)
  | renew (token : Token) (lease : Duration) (now : Time)
  | drain (token : Token) (now : Time)
  | withdraw (token : Token) (cause : Option Text) (now : Time)
  | current (id : ID) (now : Time)
  | wait (id : ID) (now created : Time)
  | snapshot (id : ID) (now : Time)
  | list (now : Time)

def step [Unicode] [SHA256] (m : Manager T) : Call T → Option (Manager T)
  | .begin descriptor transportID lease now created =>
    some (m.begin descriptor transportID lease now created).1
  | .ready token value now => some (m.ready token value now).1
  | .publish descriptor transportID lease value now created later =>
    some (m.publish descriptor transportID lease value now created later).1
  | .renew token lease now => some (m.renew token lease now).1
  | .drain token now => some (m.drain token now).1
  | .withdraw token cause now => some (m.withdraw token cause now).1
  | .current id now => some (m.current id now).1
  | .wait id now created => some (m.wait id now created).1
  | .snapshot id now => some (m.snapshot id now).1
  | .list now => some (m.list now).1

end Manager

end WeaverSSH.SessionLink
