import WeaverSSH.Evidence.Anchor
import WeaverSSH.Framework.Lines
import WeaverSSH.Framework.OrderedMap

/-!
# The remote anchor queue

`agent_remote_queue.go` of the package `evidencebinding`. A queue keeps heads until enough remote
providers have anchored them, in memory and in a file that is written anew whenever they change;
`load` reads and validates it.

`mu` is held through `Enqueue`, the choice of the next item and the handling of an answer, which are
steps here; `Flush` lets go of it while it waits for the providers. A closed queue may go on after
the next one was opened; `World` has all of them.

How far operations on files come (`Disk`), the clock and the providers' answers are part of an
action. `saved`, `promised` and `marked` are kept for the results.
-/

namespace WeaverSSH.Evidence

open Json

def agentRemoteQueueVersion : Text := "weaverssh.agent-remote-anchor-queue.v1"

inductive QueueErr where
  | anchor (err : AnchorErr)
  | undecodable
  | io
deriving DecidableEq, Repr

structure AgentRemoteDelivery where
  version : Text := []
  head : Head := ⟨[], 0, []⟩
  receipts : List AnchorReceipt := []
  enqueuedAtUnix : ℤ := 0
  attempts : ℤ := 0
  lastAttemptUnix : ℤ := 0
  nextAttemptUnix : ℤ := 0
  deliveredAtUnix : ℤ := 0
  lastError : Text := []
deriving DecidableEq, Repr

def AgentRemoteDelivery.delivered (d : AgentRemoteDelivery) : Bool := 0 < d.deliveredAtUnix

structure AgentRemoteQueueState where
  version : Text := []
  items : List AgentRemoteDelivery := []
deriving DecidableEq, Repr

/-! ## JSON -/

def AgentRemoteDelivery.json (d : AgentRemoteDelivery) : Json :=
  .obj ([(text "version", .str d.version), (text "head", d.head.json)] ++
    ((if d.receipts = [] then []
      else [(text "receipts", .arr (d.receipts.map AnchorReceipt.json))]) ++
    ([(text "enqueued_at_unix", .int d.enqueuedAtUnix), (text "attempts", .int d.attempts)] ++
    (optionalInt "last_attempt_unix" d.lastAttemptUnix ++
    (optionalInt "next_attempt_unix" d.nextAttemptUnix ++
    (optionalInt "delivered_at_unix" d.deliveredAtUnix ++
    optional "last_error" d.lastError))))))

/-- The state in JSON; no items are a slice that is nil. -/
def AgentRemoteQueueState.json (s : AgentRemoteQueueState) : Json :=
  .obj [("version", .str s.version),
    ("items", if s.items = [] then .null else .arr (s.items.map AgentRemoteDelivery.json))]

def AgentRemoteDelivery.member (d : AgentRemoteDelivery) (key : Text) (j : Json) :
    Option AgentRemoteDelivery :=
  if named key "version" then (readText d.version j).map fun v => { d with version := v }
  else if named key "head" then
    (decode Head.member d.head j).map fun v => { d with head := v }
  else if named key "receipts" then
    (readList {} (decode AnchorReceipt.member) d.receipts j).map fun v => { d with receipts := v }
  else if named key "enqueued_at_unix" then
    (readInt64 d.enqueuedAtUnix j).map fun v => { d with enqueuedAtUnix := v }
  else if named key "attempts" then
    (readInt64 d.attempts j).map fun v => { d with attempts := v }
  else if named key "last_attempt_unix" then
    (readInt64 d.lastAttemptUnix j).map fun v => { d with lastAttemptUnix := v }
  else if named key "next_attempt_unix" then
    (readInt64 d.nextAttemptUnix j).map fun v => { d with nextAttemptUnix := v }
  else if named key "delivered_at_unix" then
    (readInt64 d.deliveredAtUnix j).map fun v => { d with deliveredAtUnix := v }
  else if named key "last_error" then
    (readText d.lastError j).map fun v => { d with lastError := v }
  else none

def AgentRemoteQueueState.member (s : AgentRemoteQueueState) (key : Text) (j : Json) :
    Option AgentRemoteQueueState :=
  if named key "version" then (readText s.version j).map fun v => { s with version := v }
  else if named key "items" then
    (readList {} (decode AgentRemoteDelivery.member) s.items j).map fun v => { s with items := v }
  else none

/-- `cloneRemoteDelivery`. -/
def AgentRemoteDelivery.clone (d : AgentRemoteDelivery) : AgentRemoteDelivery :=
  ((parse (ofBytes (marshal d.json))).bind (decode AgentRemoteDelivery.member {})).getD {}

/-- A number with zeros before it, twenty digits in all. -/
def digits20 (n : UInt64) : Text :=
  List.replicate (20 - (decimal n.toNat).length) (.char '0') ++ decimal n.toNat

def remoteHeadKey (head : Head) : Text :=
  head.streamID ++ (text ":" ++ (digits20 head.sequence ++ (text ":" ++ head.statementSHA256)))

/-! ## Files -/

/-- How far the operations of `persistState` come. -/
structure Disk where
  /-- The temporary file is written, synced and closed. -/
  prepared : Bool
  renamed : Bool
  /-- The file is removed, or was not there. -/
  removed : Bool
  renamedAgain : Bool
  chmod : Bool
deriving DecidableEq, Repr

/-- `persistState`: what becomes of the file, and whether no error is returned. The blanks that
`MarshalIndent` sets, which are skipped when the file is read, are left out. -/
def persistState (file : Option (List UInt8)) (items : List AgentRemoteDelivery) (disk : Disk) :
    Option (List UInt8) × Bool :=
  let payload := marshal (⟨agentRemoteQueueVersion, items⟩ : AgentRemoteQueueState).json ++
    [newline]
  if !disk.prepared then (file, false)
  else if disk.renamed then (some payload, disk.chmod)
  else if !disk.removed then (file, false)
  else if disk.renamedAgain then (some payload, disk.chmod)
  else (none, false)

section

variable [Unicode]

/-- The loop of `load`. -/
def validateItems : List Text → ℕ → List AgentRemoteDelivery → Except QueueErr Unit
  | _, _, [] => .ok ()
  | seen, index, item :: rest => do
    require (item.version = agentRemoteQueueVersion && 0 < item.enqueuedAtUnix)
      (.anchor (.invalidAnchor (text "remote queue item " ++ decimal index)))
    let _ ← (newAnchorStatement item.head).mapError .anchor
    let key := remoteHeadKey item.head
    require (key ∉ seen) (.anchor (.invalidAnchor (text "duplicate remote head " ++ key)))
    item.receipts.forM fun receipt =>
      (receipt.validateFor receipt.provider item.head).mapError .anchor
    require (!item.delivered || item.receipts ≠ [])
      (.anchor (.invalidAnchor "delivered remote head without receipts"))
    validateItems (key :: seen) (index + 1) rest

/-- `load`, of a file that is there. -/
def loadState (data : List UInt8) : Except QueueErr (List AgentRemoteDelivery) := do
  let state ← ((parse (ofBytes data)).bind (decode AgentRemoteQueueState.member {})).elim
    (.error .undecodable) .ok
  require (state.version = agentRemoteQueueVersion)
    (.anchor (.invalidAnchor "remote queue version"))
  validateItems [] 0 state.items
  return state.items

/-! ## Queues -/

structure AgentRemoteQueueConfig where
  minBackoff : Duration
  maxBackoff : Duration

/-- The loop of `backoff`. -/
def backoffFrom (maxBackoff : Duration) : ℕ → Duration → Duration
  | 0, backoff => backoff
  | n + 1, backoff =>
    if backoff < maxBackoff then
      if maxBackoff.tdiv 2 < backoff then maxBackoff else backoffFrom maxBackoff n (2 * backoff)
    else backoff

def AgentRemoteQueueConfig.backoff (c : AgentRemoteQueueConfig) (attempt : ℤ) : Duration :=
  let backoff := backoffFrom c.maxBackoff (attempt - 1).toNat c.minBackoff
  if c.maxBackoff < backoff then c.maxBackoff else backoff

/-- `t.Unix()`, in the 64 bits it is kept in. -/
def stamp (t : Time) : ℤ := int64 (unix t)

structure AgentRemoteFlushReport where
  attempted : ℕ := 0
  delivered : ℕ := 0
  failures : OrderedMap Text Text := OrderedMap.empty

/-- A `Flush`: the keys of the heads it has met, what it has to report, and the heads that it gave
to the providers. -/
structure Flight where
  force : Bool
  attemptedHeads : List Text := []
  report : AgentRemoteFlushReport := {}
  tried : List Head := []

inductive Flush where
  | idle
  | looping (flight : Flight)
  /-- Waiting for the providers, with a copy of an item. -/
  | anchoring (flight : Flight) (index : ℕ) (item : AgentRemoteDelivery)

structure Queue where
  items : List AgentRemoteDelivery
  closed : Bool := false
  flush : Flush := .idle

def Queue.nextDue (q : Queue) (force : Bool) (now : Time) (attempted : List Text) :
    Option (ℕ × AgentRemoteDelivery) :=
  if q.closed then none
  else (q.items.zipIdx.find? fun entry =>
    !entry.1.delivered && remoteHeadKey entry.1.head ∉ attempted &&
      (force || entry.1.nextAttemptUnix = 0 || entry.1.nextAttemptUnix ≤ stamp now)).map
        fun entry =>
        (entry.2, entry.1.clone)

/-- `mergeAnchorReceipts`: one receipt for each provider, in the order of their names. -/
def mergeAnchorReceipts (existing incoming : List AnchorReceipt) : List AnchorReceipt :=
  let byProvider : OrderedMap Text AnchorReceipt :=
    (existing ++ incoming).foldl (fun m receipt => m.put receipt.provider receipt) OrderedMap.empty
  (byProvider.entries.insertionSort fun a b => bytesLE a.1 b.1).map Prod.snd

/-- What a provider did to a head at one time. -/
structure Providers where
  answers : Text → Except Text AnchorReceipt
  accepts : Text → Head → AnchorReceipt → Bool

/-- An item after an attempt, and whether it was marked as delivered. -/
def AgentRemoteDelivery.attempt (policy : AnchorThresholdPolicy) (config : AgentRemoteQueueConfig)
    (providers : Providers) (attemptedAt settledAt : Time) (d : AgentRemoteDelivery)
    (receipts : List AnchorReceipt) (anchorErr : Option Text) : AgentRemoteDelivery × Bool :=
  let current := { d with
    attempts := int64 (d.attempts + 1)
    lastAttemptUnix := stamp attemptedAt
    receipts := mergeAnchorReceipts d.receipts receipts }
  match policy.verify providers.accepts current.head current.receipts with
  | .ok _ =>
    ({ current with deliveredAtUnix := stamp settledAt, nextAttemptUnix := 0, lastError := [] },
      true)
  | .error verifyErr =>
    ({ current with
      lastError := List.intercalate "\n" (anchorErr.toList ++ [verifyErr.message])
      nextAttemptUnix := stamp (settledAt + config.backoff current.attempts) }, false)

/-! ## Runs -/

/-- A head that was marked as delivered, with its receipts and what the providers accepted. -/
structure Mark where
  head : Head
  receipts : List AnchorReceipt
  accepts : Text → Head → AnchorReceipt → Bool

structure World where
  file : Option (List UInt8) := none
  queues : List Queue := []
  saved : Option (List AgentRemoteDelivery) := none
  promised : List Head := []
  marked : List Mark := []

inductive QueueOp where
  | enqueue (queue : ℕ) (head : Head) (now : Time) (disk : Disk)
  /-- A caller of `Flush` gets `flushMu`. -/
  | flush (queue : ℕ) (force : Bool)
  /-- The next item is chosen, unless the context is done. -/
  | due (queue : ℕ) (now : Time) (cancelled : Bool)
  /-- The providers have answered. -/
  | settle (queue : ℕ) (providers : Providers) (attemptedAt settledAt : Time) (disk : Disk)
  /-- `Status` and `Export`, which only read. -/
  | observe (queue : ℕ)
  | close (queue : ℕ)
  /-- `OpenAgentRemoteAnchorQueue`, once the queues before are closed. -/
  | reopen (readable : Bool) (disk : Disk)

/-- The items of a queue are written, as its `persistLocked` does. -/
def World.persistLocked (w : World) (items : List AgentRemoteDelivery) (disk : Disk) :
    World × Bool :=
  let cloned := items.map AgentRemoteDelivery.clone
  let (file, ok) := persistState w.file cloned disk
  ({ w with file := file, saved := if ok then some cloned else w.saved }, ok)

def World.enqueue (w : World) (i : ℕ) (q : Queue) (head : Head) (now : Time) (disk : Disk) :
    Except QueueErr Unit × World :=
  match newAnchorStatement head with
  | .error e => (.error (.anchor e), w)
  | .ok _ =>
    if q.closed then (.error (.anchor (.invalidAnchor "remote queue is closed")), w)
    else if q.items.any fun item => item.head = head then
      (.ok (), { w with promised := w.promised ++ [head] })
    else
      let items := q.items ++ [{
        version := agentRemoteQueueVersion
        head := head
        enqueuedAtUnix := stamp now
        nextAttemptUnix := stamp now }]
      match w.persistLocked items disk with
      | (w, true) => (.ok (), { w with
          queues := w.queues.set i { q with items := items }
          promised := w.promised ++ [head] })
      | (w, false) => (.error .io, w)

def Queue.due (q : Queue) (flight : Flight) (now : Time) (cancelled : Bool) : Queue :=
  match q.nextDue flight.force now flight.attemptedHeads with
  | none => { q with flush := .idle }
  | some (index, item) =>
    if cancelled then { q with flush := .idle }
    else { q with flush := .anchoring { flight with
      attemptedHeads := remoteHeadKey item.head :: flight.attemptedHeads
      report := { flight.report with attempted := flight.report.attempted + 1 }
      tried := flight.tried ++ [item.head] } index item }

/-- `Flush` from the answer of the providers on. -/
def World.settle (policy : AnchorThresholdPolicy) (config : AgentRemoteQueueConfig)
    (w : World) (i : ℕ)
    (q : Queue) (flight : Flight) (index : ℕ) (item : AgentRemoteDelivery) (providers : Providers)
    (attemptedAt settledAt : Time) (disk : Disk) : World :=
  let (receipts, anchorErr) := policy.anchor providers.answers item.head
  match q.items[index]? with
  | none => { w with queues := w.queues.set i { q with flush := .looping flight } }
  | some current =>
    if current.head ≠ item.head then
      { w with queues := w.queues.set i { q with flush := .looping flight } }
    else
      let (next, delivered) :=
        current.attempt policy config providers attemptedAt settledAt receipts anchorErr
      let items := q.items.set index next
      let report := if delivered then
        { flight.report with delivered := flight.report.delivered + 1 }
        else { flight.report with
          failures := flight.report.failures.put (remoteHeadKey item.head) next.lastError }
      let marked := if delivered then w.marked ++ [⟨next.head, next.receipts, providers.accepts⟩]
        else w.marked
      let (w, ok) := w.persistLocked items disk
      { w with
        queues := w.queues.set i { q with
          items := items
          flush := if ok then .looping { flight with report := report } else .idle }
        marked := marked }

/-- `OpenAgentRemoteAnchorQueue`. -/
def World.reopen (w : World) (readable : Bool) (disk : Disk) : World :=
  match w.file with
  | none =>
    let (file, ok) := persistState none [] disk
    if ok then { w with file := file, saved := some [], queues := w.queues ++ [{ items := [] }] }
    else { w with file := file }
  | some data =>
    if !readable then w
    else match loadState data with
      | .error _ => w
      | .ok items => { w with queues := w.queues ++ [{ items := items }] }

/-- A step; a lock that is held, or a queue that is not there, lets none happen. -/
def World.step (policy : AnchorThresholdPolicy) (config : AgentRemoteQueueConfig) (w : World) :
    QueueOp → Option World
  | .enqueue i head now disk => (w.queues[i]?).map fun q => (w.enqueue i q head now disk).2
  | .flush i force => (w.queues[i]?).bind fun q =>
    match q.flush with
    | .idle =>
      some { w with queues := w.queues.set i { q with flush := .looping { force := force } } }
    | _ => none
  | .due i now cancelled => (w.queues[i]?).bind fun q =>
    match q.flush with
    | .looping flight => some { w with queues := w.queues.set i (q.due flight now cancelled) }
    | _ => none
  | .settle i providers attemptedAt settledAt disk => (w.queues[i]?).bind fun q =>
    match q.flush with
    | .anchoring flight index item =>
      some (w.settle policy config i q flight index item providers attemptedAt settledAt disk)
    | _ => none
  | .observe i => (w.queues[i]?).map fun _ => w
  | .close i =>
    (w.queues[i]?).map fun q => { w with queues := w.queues.set i { q with closed := true } }
  | .reopen readable disk =>
    if w.queues.all Queue.closed then some (w.reopen readable disk) else none

end

end WeaverSSH.Evidence
