import WeaverSSH.Framework.Json
import WeaverSSH.SessionRoute.Lease

/-!
# Routing a request along a chain

A node holds a session with each of its neighbours, in processes that know each other by the entries
of `Store` and the leases of `LeaseStore`. A request starts with `openLocal` and is passed on by
`openForward`. Both resolve the name of the target with the context of the node they are at, and
look for a session with the neighbour in its direction; what they pass on is that name (`Sent`).

What the files hold is given (`Disk`) for each time they are read, and so is what becomes of a
connection to a broker (`Dial`). Among entries that are equally new the source takes any; here it is
the first.
-/

namespace WeaverSSH.SessionRoute

open AuthProof SessionControl SessionLink SessionMux List

structure Entry where
  version : Text
  binding : Text
  socket : Text
  localNode : Text
  peerNode : Text
  chainID : Text
  chainSHA256 : Text
  topology : List Text
  localIndex : ℤ
  peerIndex : ℤ
  pid : ℤ
  startedAt : Time
deriving DecidableEq, Repr

/-- `Registry`, as the file of `Store` has it. -/
structure RouteRegistry where
  version : Text
  entries : List Entry
deriving DecidableEq, Repr

def registryVersion : Text := "weaverssh.route-registry.v1"

/-- `indexOf`: minus one where the text is not there. -/
def indexOf (values : List Text) (want : Text) : ℤ := (values.idxOf? want).elim (-1) (fun i => i)

/-- An entry as it is read back from the file. -/
def Entry.scrub (e : Entry) : Entry :=
  { e with
    version := WeaverSSH.scrub e.version
    binding := WeaverSSH.scrub e.binding
    socket := WeaverSSH.scrub e.socket
    localNode := WeaverSSH.scrub e.localNode
    peerNode := WeaverSSH.scrub e.peerNode
    chainID := WeaverSSH.scrub e.chainID
    chainSHA256 := WeaverSSH.scrub e.chainSHA256
    topology := e.topology.map WeaverSSH.scrub }

def LeaseEntry.legacyEntry (e : LeaseEntry) : Entry :=
  { version := registryVersion, binding := e.binding, socket := e.socket, localNode := e.localNode
    peerNode := e.peerNode, chainID := e.chainID, chainSHA256 := e.chainSHA256
    topology := e.topology, localIndex := e.localIndex, peerIndex := e.peerIndex, pid := e.pid
    startedAt := e.startedAt }

def validateEntry (entry : Entry) : Except RouteErr Unit := do
  require (entry.version = registryVersion && entry.binding ≠ [] && entry.socket ≠ [] &&
    entry.localNode ≠ [] && entry.peerNode ≠ [] && entry.chainID ≠ [] &&
    len entry.chainSHA256 = 64 && 2 ≤ entry.topology.length && 0 < entry.pid &&
    !isZero entry.startedAt) .invalidEntry
  require (standsAt entry.topology entry.localIndex entry.localNode &&
    standsAt entry.topology entry.peerIndex entry.peerNode &&
    (entry.localIndex - entry.peerIndex).natAbs = 1) .invalidEntry

/-- Why a file cannot be read. -/
inductive ReadErr where
  | storage
  | tooLarge
  | decode
deriving DecidableEq, Repr

def ReadErr.route : ReadErr → RouteErr
  | .storage => .storage
  | .tooLarge => .tooLarge
  | .decode => .decode

/-- The files a node's sessions share, and the clock at which they are read. -/
structure Disk where
  routes : Except ReadErr (Option RouteRegistry)
  leases : Except ReadErr (Option LeaseRegistry)
  now : Time

/-- How a connection to a broker ends. -/
inductive Dial where
  | connected
  | unavailable
  | failed
deriving DecidableEq, Repr

/-- What a request meets with at one node: the files as a plan reads them and as each attempt does,
and what becomes of each connection. -/
structure Surroundings where
  planned : Disk
  disk : ℕ → Disk
  dial : ℕ → Entry → Dial

/-- `Router`, at one session of a node. -/
structure Router where
  leased : Bool
  context : NodeContext
  currentBinding : Text
  currentMux : Bool
  peerNode : Text

inductive Direction where
  | here
  | previous
  | next
deriving DecidableEq, Repr

structure Plan where
  targetNode : Text
  targetIndex : ℤ
  direction : Direction
  nextHop : Text := []
  nextBinding : Text := []
  available : Bool := false
  usesCurrent : Bool := false
deriving DecidableEq, Repr

/-- What leaves a node: the neighbour it goes to, and the name it is for. -/
structure Sent where
  peer : Text
  target : Text
deriving DecidableEq, Repr

structure Candidate where
  entry : Entry
  lease : Option LeaseEntry := none
deriving DecidableEq, Repr

def routableService (service : ServiceID) : Bool :=
  service = serviceFS || service = serviceTCP || service = serviceUDP || service = serviceExec ||
    service = serviceEvents

/-- The index next to one, on the side of another. -/
def towards (current target : ℤ) : ℤ := if current < target then current + 1 else current - 1

/-- The name of a target at the node it was sent to: it goes there as JSON. -/
def received (target : Text) : Text := trimSpace (scrub target)

/-- The first of some entries when the newest is first. -/
def newest {α : Type} (newer : α → α → Bool) (candidates : List α) : Option α :=
  (candidates.insertionSort fun a b => !newer b a).head?

section

variable [Unicode]

def normalizeEntry (entry : Entry) : Entry :=
  { entry with
    version := orElse entry.version registryVersion
    binding := trimSpace entry.binding
    socket := trimSpace entry.socket
    localNode := trimSpace entry.localNode
    peerNode := trimSpace entry.peerNode
    chainID := trimSpace entry.chainID
    chainSHA256 := toLower (trimSpace entry.chainSHA256)
    topology := entry.topology.map trimSpace }

def newEntry (nodeContext : NodeContext) (binding socket peerNode : Text) (pid : ℤ)
    (startedAt : Time) : Except RouteErr Entry := do
  let ctx := nodeContext.normalized
  ctx.validate.mapError .context
  let entry := normalizeEntry
    { version := registryVersion, binding := trimSpace binding, socket := trimSpace socket
      localNode := ctx.currentNode, peerNode := trimSpace peerNode, chainID := ctx.chainID
      chainSHA256 := ctx.chainSHA256, topology := ctx.nodes
      localIndex := indexOf ctx.nodes ctx.currentNode
      peerIndex := indexOf ctx.nodes (trimSpace peerNode), pid, startedAt }
  validateEntry entry
  return entry

def storeSnapshot (disk : Disk) : Except RouteErr (List Entry) := do
  match ← disk.routes.mapError ReadErr.route with
  | none => return []
  | some registry =>
    require (registry.version = registryVersion) (.unsupportedVersion registry.version)
    let validated := (registry.entries.map normalizeEntry).filter (validateEntry · = .ok ())
    return validated.insertionSort fun a b => bytes a.binding ≤ bytes b.binding

/-- `LeaseStore.Snapshot`. -/
def leaseSnapshot [SHA256] (disk : Disk) : Except RouteErr (List LeaseEntry) := do
  let registry ← disk.leases.mapError ReadErr.route >>= snapshotUnlocked
  let validated := (registry.entries.map normalizeLeaseEntry).filter fun entry =>
    !(expiredLease entry disk.now || validateLeaseEntry entry disk.now ≠ .ok ())
  return validated.insertionSort fun a b =>
    if a.linkID = b.linkID then b.generation ≤ a.generation else bytes a.linkID ≤ bytes b.linkID

/-- An entry of another session than the current one, between two given nodes of a context. -/
def leadsTo (currentBinding : Text) (ctx : NodeContext) (currentIndex desiredPeer : ℤ)
    (entry : Entry) : Bool :=
  entry.binding ≠ currentBinding && entry.localNode = ctx.currentNode &&
    entry.chainID = ctx.chainID && entry.chainSHA256 = ctx.chainSHA256 &&
    entry.topology = ctx.nodes && entry.localIndex = currentIndex && entry.peerIndex = desiredPeer

/-- `ResolveAdjacent`, of either store: the newest entry in the direction of the target, the target
and its index. -/
def resolveIn {α : Type} (entry : α → Entry) (newer : α → α → Bool)
    (snapshot : Except RouteErr (List α)) (currentBinding : Text) (nodeContext : NodeContext)
    (target : Text) : Except RouteErr (α × Text × ℕ) := do
  let ctx := nodeContext.normalized
  ctx.validate.mapError .context
  let currentIndex := indexOf ctx.nodes ctx.currentNode
  let (targetNode, targetIndex) ← resolveNode ctx target
  require ((targetIndex : ℤ) ≠ currentIndex) .targetLocal
  let desiredPeer := towards currentIndex targetIndex
  let entries ← snapshot
  let candidate ← (newest newer (entries.filter fun a =>
    leadsTo (trimSpace currentBinding) ctx currentIndex desiredPeer (entry a))).elim
      (.error .noRoute) .ok
  return (candidate, targetNode, targetIndex)

variable [SHA256]

/-- `Router.resolveAdjacent`: the entries without a lease are looked at where no lease leads
there. -/
def Router.resolveAdjacent (r : Router) (nodeContext : NodeContext) (disk : Disk) (target : Text) :
    Except RouteErr Candidate :=
  let unleased := (resolveIn id (fun a b => b.startedAt < a.startedAt) (storeSnapshot disk)
    r.currentBinding nodeContext target).map fun found => ⟨found.1, none⟩
  if r.leased then
    match resolveIn LeaseEntry.legacyEntry
        (fun a b => if a.generation = b.generation then b.updatedAt < a.updatedAt
          else b.generation < a.generation)
        (leaseSnapshot disk) r.currentBinding nodeContext target with
    | .ok found => .ok ⟨found.1.legacyEntry, some found.1⟩
    | .error .noRoute => unleased
    | .error e => .error e
  else unleased

/-- `Router.Prepare`; a plan without a route to the next node is none that is available. -/
def Router.prepare (r : Router) (disk : Disk) (target : Text) : Except RouteErr Plan := do
  let ctx := r.context.normalized
  let currentIndex := indexOf ctx.nodes ctx.currentNode
  let (targetNode, targetIndex) ← resolveNode ctx target
  if (targetIndex : ℤ) = currentIndex then
    return { targetNode, targetIndex, direction := .here, nextHop := ctx.currentNode
             available := true }
  else
    let wanted := towards currentIndex targetIndex
    let direction := if currentIndex < targetIndex then Direction.next else .previous
    require (0 ≤ wanted && wanted < ctx.nodes.length) .noRoute
    let plan : Plan :=
      { targetNode, targetIndex, direction, nextHop := ctx.nodes.getD wanted.toNat [] }
    if trimSpace r.peerNode = plan.nextHop ∧ r.currentMux then
      return { plan with
        nextBinding := trimSpace r.currentBinding, available := true, usesCurrent := true }
    else
      match r.resolveAdjacent ctx disk targetNode with
      | .ok candidate =>
        return { plan with
          nextHop := candidate.entry.peerNode, nextBinding := candidate.entry.binding
          available := true }
      | .error .noRoute => return plan
      | .error e => .error e

def Candidate.key (c : Candidate) : Text :=
  match c.lease with
  | none => c.entry.binding
  | some lease => lease.linkID ++ text "/" ++ Json.decimal lease.generation.toNat

/-- The attempts of `dialRegistered` that are left. -/
def Router.attempt (r : Router) (env : Surroundings) (target : Text) :
    ℕ → List Text → Except RouteErr Candidate
  | 0, _ => .error .noRoute
  | left + 1, seen => do
    let candidate ← r.resolveAdjacent r.context (env.disk seen.length) target
    require (candidate.key ∉ seen) .noRoute
    match env.dial seen.length candidate.entry with
    | .connected => return candidate
    | .failed => .error .broker
    | .unavailable => r.attempt env target left (candidate.key :: seen)

/-- `dialRegistered`: sixteen attempts at most. -/
def Router.dialRegistered (r : Router) (env : Surroundings) (target : Text) :
    Except RouteErr Candidate := r.attempt env target 16 []

def Router.openLocal (r : Router) (env : Surroundings) (target : Text) (service : ServiceID) :
    Except RouteErr Sent := do
  require (routableService service) .notRoutable
  let plan ← r.prepare env.planned target
  require (plan.direction ≠ .here) .targetLocal
  require plan.available .noRoute
  if plan.usesCurrent then return ⟨trimSpace r.peerNode, plan.targetNode⟩
  else
    let candidate ← r.dialRegistered env plan.targetNode
    return ⟨candidate.entry.peerNode, plan.targetNode⟩

def Router.openForward (r : Router) (env : Surroundings) (nodeRef : Text) (service : ServiceID) :
    Except RouteErr Sent := do
  require (routableService service) .notRoutable
  let ctx := r.context.normalized
  let currentIndex := indexOf ctx.nodes ctx.currentNode
  let peerIndex := indexOf ctx.nodes (trimSpace r.peerNode)
  let (targetNode, targetIndex) ← resolveNode ctx nodeRef
  require ((targetIndex : ℤ) ≠ currentIndex) .targetLocal
  require (0 ≤ peerIndex && (targetIndex - currentIndex) * (peerIndex - currentIndex) ≤ 0) .noRoute
  let candidate ← r.dialRegistered env targetNode
  return ⟨candidate.entry.peerNode, targetNode⟩

/-! ## What is found

A session that is found leads from the node of the context to the next one on the side of the
target, as the context reads its name (`Faces`).
-/

variable {nodes : List Text} {node : Text}

omit [Unicode] [SHA256] in
lemma indexOf_eq_iff {i : ℕ} : indexOf nodes node = i ↔ nodes.idxOf? node = some i := by
  unfold indexOf
  cases nodes.idxOf? node with
  | none => simp only [Option.elim_none, reduceCtorEq]
  | some j => simp only [Option.elim_some, Nat.cast_inj, Option.some.injEq]

variable {α : Type} {currentBinding target name : Text} {ctx : NodeContext} {disk : Disk}
  {entry : Entry} {r : Router} {env : Surroundings} {service : ServiceID} {index : ℕ}
  {newer : α → α → Bool} {snapshot : Except RouteErr (List α)} {candidates : List α} {a : α}

omit [Unicode] [SHA256] in
lemma mem_of_newest (h : newest newer candidates = some a) : a ∈ candidates :=
  (perm_insertionSort _ candidates).mem_iff.mp (mem_of_head? h)

omit [Unicode] [SHA256] in
lemma exists_newest (newer : α → α → Bool)
    (h : a ∈ candidates) : ∃ found, newest newer candidates = some found := by
  have hmem := (perm_insertionSort (fun a b => (!newer b a) = true) candidates).mem_iff.mpr h
  unfold newest
  exact ⟨_, List.head?_eq_some_head (ne_nil_of_mem hmem)⟩

omit [SHA256] in
@[simp]
lemma resolveNode_normalized (ctx : NodeContext) (raw : Text) :
    resolveNode ctx.normalized raw = resolveNode ctx raw := by
  simp [resolveNode, nameIn]

omit [SHA256] in
def position (ctx : NodeContext) : ℤ := indexOf ctx.normalized.nodes ctx.normalized.currentNode

omit [SHA256] in
/-- A node next to that of a context, on the side of a target. -/
def Faces (ctx : NodeContext) (target peer : Text) : Prop :=
  ∃ name index, resolveNode ctx target = .ok (name, index) ∧ (index : ℤ) ≠ position ctx ∧
    standsAt ctx.normalized.nodes (towards (position ctx) index) peer = true

variable {found : α × Text × ℕ}

omit [SHA256] in
lemma resolveIn_ok {entry : α → Entry}
    (h : resolveIn entry newer snapshot currentBinding ctx target = .ok found) :
    resolveNode ctx target = .ok found.2 ∧ (found.2.2 : ℤ) ≠ position ctx ∧
      ∃ entries, snapshot = .ok entries ∧ found.1 ∈ entries ∧
        leadsTo (trimSpace currentBinding) ctx.normalized (position ctx)
          (towards (position ctx) found.2.2) (entry found.1) = true := by
  simp only [resolveIn, checks_ok, mapError_eq_ok, elim_eq_ok] at h
  obtain ⟨⟨⟩, -, ⟨name, index⟩, hname, hne, entries, hentries, a, ha, rfl⟩ := h
  rw [resolveNode_normalized] at hname
  obtain ⟨hmem, hleads⟩ := mem_filter.mp (mem_of_newest ha)
  exact ⟨hname, hne, entries, hentries, hmem, hleads⟩

variable {entries : List Entry}

omit [SHA256] in
lemma mem_storeSnapshot (h : storeSnapshot disk = .ok entries) (hmem : entry ∈ entries) :
    validateEntry entry = .ok () ∧ ∃ registry, disk.routes = .ok (some registry) ∧
      ∃ raw ∈ registry.entries, normalizeEntry raw = entry := by
  simp only [storeSnapshot, bind_eq_ok, mapError_eq_ok] at h
  obtain ⟨file, hfile, h⟩ := h
  cases file with
  | none =>
    cases h
    cases hmem
  | some registry =>
    simp only [checks_ok] at h
    obtain ⟨-, rfl⟩ := h
    obtain ⟨hread, hvalid⟩ := mem_filter.mp ((perm_insertionSort _ _).mem_iff.mp hmem)
    exact ⟨of_decide_eq_true hvalid, registry, hfile, mem_map.mp hread⟩

lemma validate_of_leaseSnapshot {entries : List LeaseEntry}
    (h : leaseSnapshot disk = .ok entries) {entry : LeaseEntry} (hmem : entry ∈ entries) :
    validateLeaseEntry entry disk.now = .ok () := by
  simp only [leaseSnapshot, checks_ok] at h
  obtain ⟨registry, -, rfl⟩ := h
  have hfilter := (perm_insertionSort _ _).mem_iff.mp hmem
  have hvalid := (mem_filter.mp hfilter).2
  rw [Bool.not_eq_true', Bool.or_eq_false_iff, decide_eq_false_iff_not, not_not] at hvalid
  exact hvalid.2

omit [Unicode] [SHA256] in
lemma standsAt_of_validateEntry (h : validateEntry entry = .ok ()) :
    standsAt entry.topology entry.peerIndex entry.peerNode = true := by
  simp only [validateEntry, checks_ok] at h
  exact h.2.1.2

lemma standsAt_of_validateLeaseEntry {entry : LeaseEntry} {now : Time}
    (h : validateLeaseEntry entry now = .ok ()) :
    standsAt entry.topology entry.peerIndex entry.peerNode = true := by
  simp only [validateLeaseEntry, checks_ok] at h
  exact h.2.2.1.1.2

omit [SHA256] in
lemma faces_of_resolveIn {entry : α → Entry}
    (hstands : ∀ entries, snapshot = .ok entries → ∀ a ∈ entries,
      standsAt (entry a).topology (entry a).peerIndex (entry a).peerNode = true)
    (h : resolveIn entry newer snapshot currentBinding ctx target = .ok found) :
    Faces ctx target (entry found.1).peerNode := by
  obtain ⟨hname, hne, entries, hentries, hmem, hleads⟩ := resolveIn_ok h
  have hat := hstands entries hentries found.1 hmem
  simp only [leadsTo, checks_ok] at hleads
  rw [hleads.1.1.2, hleads.2] at hat
  exact ⟨found.2.1, found.2.2, hname, hne, hat⟩

variable {candidate : Candidate}

lemma Router.resolveAdjacent_ok (h : r.resolveAdjacent ctx disk target = .ok candidate) :
    Faces ctx target candidate.entry.peerNode := by
  have hstore : ∀ found, resolveIn id (fun a b => b.startedAt < a.startedAt) (storeSnapshot disk)
      r.currentBinding ctx target = .ok found → Faces ctx target found.1.peerNode :=
    fun found => faces_of_resolveIn fun entries hentries a ha =>
      standsAt_of_validateEntry (mem_storeSnapshot hentries ha).1
  have hunleased : ∀ candidate, (resolveIn id (fun a b => b.startedAt < a.startedAt)
      (storeSnapshot disk) r.currentBinding ctx target).map (fun found => (⟨found.1, none⟩ :
        Candidate)) = .ok candidate → Faces ctx target candidate.entry.peerNode := by
    intro candidate hcandidate
    cases hfound : resolveIn id (fun a b => b.startedAt < a.startedAt) (storeSnapshot disk)
      r.currentBinding ctx target with
    | error e => rw [hfound] at hcandidate; cases hcandidate
    | ok found =>
      rw [hfound] at hcandidate
      cases hcandidate
      exact hstore found hfound
  unfold Router.resolveAdjacent at h
  dsimp only at h
  split at h
  · split at h
    · next found hfound =>
      cases h
      exact faces_of_resolveIn (fun entries hentries a ha =>
        standsAt_of_validateLeaseEntry (validate_of_leaseSnapshot hentries ha)) hfound
    · exact hunleased candidate h
    · cases h
  · exact hunleased candidate h

lemma Router.attempt_ok
    {left : ℕ} {seen : List Text} (h : r.attempt env target left seen = .ok candidate) :
    ∃ attempt, r.resolveAdjacent r.context (env.disk attempt) target = .ok candidate := by
  induction left generalizing seen with
  | zero => cases h
  | succ left ih =>
    simp only [Router.attempt, checks_ok] at h
    obtain ⟨found, hfound, -, h⟩ := h
    split at h
    · cases h
      exact ⟨_, hfound⟩
    · cases h
    · exact ih h

lemma Router.prepare_ok {plan : Plan} (h : r.prepare disk target = .ok plan) :
    ∃ index, resolveNode r.context target = .ok (plan.targetNode, index) ∧
      (plan.direction ≠ .here → (index : ℤ) ≠ position r.context) ∧
      (plan.usesCurrent = true → r.currentMux = true ∧ standsAt r.context.normalized.nodes
        (towards (position r.context) index) (trimSpace r.peerNode) = true) := by
  simp only [Router.prepare, bind_eq_ok] at h
  obtain ⟨⟨name, index⟩, hname, h⟩ := h
  rw [resolveNode_normalized] at hname
  split at h
  · cases h
    exact ⟨index, hname, fun hdirection => absurd rfl hdirection, fun huses => by cases huses⟩
  · next hne =>
    simp only [checks_ok] at h
    obtain ⟨hwanted, h⟩ := h
    split at h
    · next hcurrent =>
      cases h
      refine ⟨index, hname, fun _ => hne, fun _ => ⟨hcurrent.2, ?_⟩⟩
      have hlt : (towards (position r.context) index).toNat <
          r.context.normalized.nodes.length := by
        have := hwanted.2
        unfold position
        omega
      unfold position at hlt ⊢
      rw [hcurrent.1, standsAt, Bool.and_eq_true, Bool.and_eq_true, decide_eq_true_eq,
        decide_eq_true_eq, decide_eq_true_eq]
      refine ⟨hwanted, ?_⟩
      rw [getD_eq_getElem?_getD, List.getElem?_eq_getElem hlt, Option.getD_some]
    · split at h
      · cases h
        exact ⟨index, hname, fun _ => hne, fun huses => by cases huses⟩
      · cases h
        exact ⟨index, hname, fun _ => hne, fun huses => by cases huses⟩
      · cases h

variable {sent : Sent}

lemma Router.openLocal_ok (h : r.openLocal env target service = .ok sent) :
    ∃ index, resolveNode r.context target = .ok (sent.target, index) ∧
      (index : ℤ) ≠ position r.context ∧ (r.currentMux = true ∧ standsAt r.context.normalized.nodes
          (towards (position r.context) index) sent.peer = true ∨
        ∃ attempt candidate, candidate.entry.peerNode = sent.peer ∧
          r.resolveAdjacent r.context (env.disk attempt) sent.target = .ok candidate) := by
  simp only [Router.openLocal, checks_ok] at h
  obtain ⟨-, plan, hplan, hdirection, -, h⟩ := h
  obtain ⟨index, hname, hne, hcurrent⟩ := Router.prepare_ok hplan
  split at h
  · next huses =>
    cases h
    exact ⟨index, hname, hne hdirection, .inl (hcurrent huses)⟩
  · simp only [checks_ok] at h
    obtain ⟨candidate, hcandidate, rfl⟩ := h
    obtain ⟨attempt, hfound⟩ := Router.attempt_ok hcandidate
    exact ⟨index, hname, hne hdirection, .inr ⟨attempt, candidate, rfl, hfound⟩⟩

variable {nodeRef : Text}

lemma Router.openForward_ok (h : r.openForward env nodeRef service = .ok sent) :
    ∃ index, resolveNode r.context nodeRef = .ok (sent.target, index) ∧
      (index : ℤ) ≠ position r.context ∧ Faces r.context sent.target sent.peer := by
  simp only [Router.openForward, checks_ok] at h
  obtain ⟨-, ⟨name, index⟩, hname, hne, -, candidate, hcandidate, rfl⟩ := h
  rw [resolveNode_normalized] at hname
  obtain ⟨attempt, hfound⟩ := Router.attempt_ok hcandidate
  exact ⟨index, hname, hne, Router.resolveAdjacent_ok hfound⟩

/-! ## What is local

`targetLocal` is said of the node of the context, and of no failure to read a file.
-/

omit [SHA256] in
lemma storeSnapshot_ne_targetLocal (disk : Disk) : storeSnapshot disk ≠ .error .targetLocal := by
  intro h
  simp only [storeSnapshot, bind_eq_error, mapError_eq_error] at h
  rcases h with ⟨e, -, he⟩ | ⟨file, -, h⟩
  · cases e <;> cases he
  · cases file with
    | none => cases h
    | some registry =>
      simp only [bind_eq_error, require_eq_error, reduceCtorEq, and_false, false_or] at h
      obtain ⟨⟨⟩, -, h⟩ := h
      cases h

lemma leaseSnapshot_ne_targetLocal (disk : Disk) : leaseSnapshot disk ≠ .error .targetLocal := by
  intro h
  simp only [leaseSnapshot, bind_eq_error, mapError_eq_error] at h
  rcases h with (⟨e, -, he⟩ | ⟨file, -, h⟩) | ⟨registry, -, h⟩
  · cases e <;> cases he
  · unfold snapshotUnlocked at h
    split at h
    · cases h
    · split at h <;> cases h
  · cases h

omit [SHA256] in
lemma resolveIn_ne_targetLocal {entry : α → Entry}
    (hname : resolveNode ctx target = .ok (name, index))
    (hne : (index : ℤ) ≠ position ctx) (hsnapshot : snapshot ≠ .error .targetLocal) :
    resolveIn entry newer snapshot currentBinding ctx target ≠ .error .targetLocal := by
  intro h
  simp only [resolveIn, bind_eq_error, mapError_eq_error, elim_eq_error, require_eq_error,
    resolveNode_normalized, hname, reduceCtorEq, and_false, exists_false, false_or, hsnapshot,
    decide_eq_false_iff_not, Except.ok.injEq] at h
  obtain ⟨⟨⟩, -, found, rfl, h⟩ := h
  rcases h with ⟨hindex, -⟩ | ⟨⟨⟩, -, entries, -, a, -, h⟩
  · exact hindex hne
  · cases h

lemma Router.resolveAdjacent_ne_targetLocal (hname : resolveNode ctx target = .ok (name, index))
    (hne : (index : ℤ) ≠ position ctx) (disk : Disk) :
    r.resolveAdjacent ctx disk target ≠ .error .targetLocal := by
  have hunleased : (resolveIn id (fun a b => b.startedAt < a.startedAt) (storeSnapshot disk)
      r.currentBinding ctx target).map (fun found => (⟨found.1, none⟩ : Candidate)) ≠
        .error .targetLocal := by
    have hstore := @resolveIn_ne_targetLocal _ _ r.currentBinding _ _ _ _
      (fun a b => b.startedAt < a.startedAt) _ id hname hne (storeSnapshot_ne_targetLocal disk)
    cases hfound : resolveIn id (fun a b => b.startedAt < a.startedAt) (storeSnapshot disk)
      r.currentBinding ctx target with
    | error e =>
      rw [hfound] at hstore
      intro h
      cases h
      exact hstore rfl
    | ok found => nofun
  unfold Router.resolveAdjacent
  dsimp only
  split
  · split
    · nofun
    · exact hunleased
    · next e _ hfound =>
      intro h
      cases h
      exact resolveIn_ne_targetLocal hname hne (leaseSnapshot_ne_targetLocal disk) hfound
  · exact hunleased

lemma Router.attempt_ne_targetLocal (hname : resolveNode r.context target = .ok (name, index))
    (hne : (index : ℤ) ≠ position r.context) (left : ℕ) (seen : List Text) :
    r.attempt env target left seen ≠ .error .targetLocal := by
  induction left generalizing seen with
  | zero => nofun
  | succ left ih =>
    intro h
    simp only [Router.attempt, bind_eq_error, require_eq_error, reduceCtorEq, and_false,
      false_or] at h
    rcases h with h | ⟨candidate, -, ⟨⟩, -, h⟩
    · exact Router.resolveAdjacent_ne_targetLocal hname hne _ h
    · split at h
      · cases h
      · cases h
      · exact ih _ h

lemma Router.openForward_targetLocal_iff (hservice : routableService service = true)
    (href : resolveNode r.context nodeRef = .ok (target, index))
    (htarget : resolveNode r.context target = .ok (target, index)) :
    r.openForward env nodeRef service = .error .targetLocal ↔ (index : ℤ) = position r.context := by
  simp only [Router.openForward, hservice, require_of_true, ok_bind, resolveNode_normalized, href]
  by_cases hlocal : (index : ℤ) = position r.context
  · simp only [hlocal, iff_true]
    rw [require_of_false (by simp [position]), error_bind]
  · simp only [hlocal, iff_false]
    rw [require_of_true (by simpa [position] using hlocal), ok_bind]
    simp only [bind_eq_error, require_eq_error, reduceCtorEq, and_false, false_or, not_exists,
      not_and, not_or]
    exact fun _ _ => ⟨Router.attempt_ne_targetLocal htarget hlocal _ _, fun _ _ => nofun⟩

/-! ## What a registered session is found by -/

omit [SHA256] in
lemma resolveIn_eq {entry : α → Entry} {entries : List α} (hvalid : ctx.validate = .ok ())
    (hname : resolveNode ctx target = .ok (name, index)) (hne : (index : ℤ) ≠ position ctx)
    (hsnapshot : snapshot = .ok entries) :
    resolveIn entry newer snapshot currentBinding ctx target =
      (newest newer (entries.filter fun a => leadsTo (trimSpace currentBinding) ctx.normalized
        (position ctx) (towards (position ctx) index) (entry a))).elim
          (.error .noRoute) fun a => .ok (a, name, index) := by
  have hchecked : ctx.normalized.validate.mapError RouteErr.context = .ok () := by
    rw [(NodeContext.normalized_of_validate hvalid).2.1]
    rfl
  simp only [resolveIn, hchecked, resolveNode_normalized, hname, hsnapshot, ok_bind]
  rw [require_of_true (by simpa [position] using hne), ok_bind]
  unfold position
  cases newest newer (entries.filter fun a => leadsTo (trimSpace currentBinding) ctx.normalized
    (indexOf ctx.normalized.nodes ctx.normalized.currentNode)
    (towards (indexOf ctx.normalized.nodes ctx.normalized.currentNode) index) (entry a)) with
  | none | some a => rfl

lemma Router.exists_resolveAdjacent
    (hvalid : ctx.validate = .ok ()) (hname : resolveNode ctx target = .ok (name, index))
    (hne : (index : ℤ) ≠ position ctx) (hstore : storeSnapshot disk = .ok entries)
    (hlease : ∃ leases, leaseSnapshot disk = .ok leases) (hmem : entry ∈ entries)
    (hleads : leadsTo (trimSpace r.currentBinding) ctx.normalized (position ctx)
      (towards (position ctx) index) entry = true) :
    ∃ candidate, r.resolveAdjacent ctx disk target = .ok candidate := by
  obtain ⟨leases, hleases⟩ := hlease
  have hunleased := @resolveIn_eq _ _ r.currentBinding _ _ _ _ (fun a b =>
      b.startedAt < a.startedAt)
    _ id _ hvalid hname hne hstore
  obtain ⟨found, hfound⟩ := exists_newest (fun a b : Entry => b.startedAt < a.startedAt)
    (mem_filter.mpr ⟨hmem, hleads⟩)
  simp only [id_eq, hfound, Option.elim_some] at hunleased
  unfold Router.resolveAdjacent
  dsimp only
  simp only [hunleased, resolveIn_eq hvalid hname hne hleases]
  cases hleased : r.leased with
  | false => exact ⟨_, rfl⟩
  | true =>
    rw [if_pos rfl]
    cases newest (fun a b : LeaseEntry => if a.generation = b.generation then
      decide (b.updatedAt < a.updatedAt) else decide (b.generation < a.generation)) (leases.filter
        fun a => leadsTo (trimSpace r.currentBinding) ctx.normalized (position ctx)
          (towards (position ctx) index) a.legacyEntry) with
    | none | some a => exact ⟨_, rfl⟩

lemma exists_leaseSnapshot {file : Option LeaseRegistry} {registry : LeaseRegistry}
    (hfile : disk.leases = .ok file) (hregistry : snapshotUnlocked file = .ok registry) :
    ∃ leases, leaseSnapshot disk = .ok leases := by
  unfold leaseSnapshot
  rw [hfile]
  change ∃ leases, (snapshotUnlocked file >>= _) = .ok leases
  rw [hregistry]
  exact ⟨_, rfl⟩

omit [SHA256] in
lemma mem_storeSnapshot_of_mem {registry : RouteRegistry}
    (hfile : disk.routes = .ok (some registry)) (hversion : registry.version = registryVersion)
    (hmem : entry ∈ registry.entries) (hvalid : validateEntry (normalizeEntry entry) = .ok ()) :
    ∃ entries, storeSnapshot disk = .ok entries ∧ normalizeEntry entry ∈ entries := by
  unfold storeSnapshot
  rw [hfile]
  change ∃ entries, (require _ _ >>= _) = .ok entries ∧ _
  rw [require_of_true (by simpa using hversion), ok_bind]
  refine ⟨_, rfl, (perm_insertionSort _ _).mem_iff.mpr ?_⟩
  exact mem_filter.mpr ⟨mem_map_of_mem hmem, by simpa using hvalid⟩

omit [Unicode] [SHA256] in
lemma standsAt_iff (hnodup : nodes.Nodup) {i : ℤ} :
    standsAt nodes i node = true ↔ node ∈ nodes ∧ indexOf nodes node = i := by
  simp only [standsAt, checks_ok]
  constructor
  · rintro ⟨⟨hpos, -⟩, hget⟩
    obtain ⟨hlt, hnode⟩ := List.getElem?_eq_some_iff.mp hget
    subst hnode
    have hindex := indexOf_eq_iff.mpr
      (List.idxOf?_eq_some_iff.mpr ⟨hlt, rfl, fun j hj => by simp [hnodup.getElem_inj_iff]; omega⟩)
    exact ⟨getElem_mem hlt, by omega⟩
  · rintro ⟨hmem, rfl⟩
    obtain ⟨j, hj⟩ : ∃ j, nodes.idxOf? node = some j := by
      rw [← Option.isSome_iff_exists, isSome_idxOf?]
      exact hmem
    obtain ⟨hlt, hget, -⟩ := List.idxOf?_eq_some_iff.mp hj
    rw [indexOf_eq_iff.mpr hj]
    refine ⟨⟨by omega, by omega⟩, ?_⟩
    rw [Int.toNat_natCast, List.getElem?_eq_getElem hlt, hget]

omit [SHA256] in
lemma newEntry_ok {binding socket peer : Text} {pid : ℤ} {startedAt : Time}
    (h : newEntry ctx binding socket peer pid startedAt = .ok entry) :
    normalizeEntry entry = entry ∧ validateEntry entry = .ok () ∧
      entry.localNode = ctx.normalized.currentNode ∧ entry.chainID = ctx.normalized.chainID ∧
      entry.chainSHA256 = ctx.normalized.chainSHA256 ∧ entry.topology = ctx.normalized.nodes ∧
      entry.localIndex = position ctx ∧
      entry.peerIndex = indexOf ctx.normalized.nodes (trimSpace peer) := by
  simp only [newEntry, checks_ok, mapError_eq_ok] at h
  obtain ⟨⟨⟩, -, ⟨⟩, hvalid, rfl⟩ := h
  have hnodes : ctx.normalized.nodes.map trimSpace = ctx.normalized.nodes :=
    map_congr_left (fun node hnode => (NodeContext.mem_nodes hnode).1) |>.trans (map_id _)
  have hcurrent : trimSpace ctx.normalized.currentNode = ctx.normalized.currentNode :=
    trimSpace_trimSpace _
  have hchain : trimSpace ctx.normalized.chainID = ctx.normalized.chainID := trimSpace_trimSpace _
  have hhash : toLower (trimSpace ctx.normalized.chainSHA256) = ctx.normalized.chainSHA256 := by
    simp [NodeContext.normalized]
  refine ⟨?_, hvalid, hcurrent, hchain, hhash, hnodes, rfl, rfl⟩
  simp [normalizeEntry, hnodes, hcurrent, hchain, hhash]

lemma Router.resolveAdjacent_normalized
    (hvalid : ctx.validate = .ok ()) (disk : Disk) (target : Text) :
    r.resolveAdjacent ctx.normalized disk target = r.resolveAdjacent ctx disk target := by
  simp only [Router.resolveAdjacent, resolveIn, (NodeContext.normalized_of_validate hvalid).1]

lemma Router.exists_dialRegistered
    (hfound : ∃ candidate, r.resolveAdjacent r.context (env.disk 0) target = .ok candidate)
    (hdial : ∀ entry, env.dial 0 entry = .connected) :
    ∃ candidate, r.dialRegistered env target = .ok candidate := by
  obtain ⟨candidate, hcandidate⟩ := hfound
  refine ⟨candidate, ?_⟩
  simp only [Router.dialRegistered, Router.attempt, length_nil, hcandidate, ok_bind, hdial]
  rfl

lemma Router.exists_openLocal (hservice : routableService service = true)
    (hvalid : r.context.validate = .ok ())
    (hname : resolveNode r.context target = .ok (name, index))
    (hne : (index : ℤ) ≠ position r.context) (hwanted : 0 ≤ towards (position r.context) index ∧
      towards (position r.context) index < r.context.normalized.nodes.length)
    (hplanned : ∃ candidate, r.resolveAdjacent r.context env.planned name = .ok candidate)
    (hfound : ∃ candidate, r.resolveAdjacent r.context (env.disk 0) name = .ok candidate)
    (hdial : ∀ entry, env.dial 0 entry = .connected) :
    ∃ sent, r.openLocal env target service = .ok sent := by
  obtain ⟨planned, hplanned⟩ := hplanned
  obtain ⟨candidate, hcandidate⟩ := Router.exists_dialRegistered hfound hdial
  have hdirection : (if position r.context < index then Direction.next else .previous) ≠ .here := by
    split <;> decide
  obtain ⟨plan, hplan, hname, hhere, havailable⟩ : ∃ plan, r.prepare env.planned target = .ok plan ∧
      plan.targetNode = name ∧ plan.direction ≠ .here ∧ plan.available = true := by
    unfold position at hne hwanted hdirection
    unfold Router.prepare
    simp only [resolveNode_normalized, hname, ok_bind]
    rw [if_neg hne, require_of_true (by simpa using hwanted), ok_bind]
    split
    · exact ⟨_, rfl, rfl, hdirection, rfl⟩
    · simp only [Router.resolveAdjacent_normalized hvalid, hplanned]
      exact ⟨_, rfl, rfl, hdirection, rfl⟩
  unfold Router.openLocal
  rw [require_of_true hservice, ok_bind, hplan, ok_bind, require_of_true (by simpa using hhere),
    ok_bind, require_of_true havailable, ok_bind]
  split
  · exact ⟨_, rfl⟩
  · rw [hname, hcandidate]
    exact ⟨_, rfl⟩

lemma Router.exists_openForward (hservice : routableService service = true)
    (hname : resolveNode r.context nodeRef = .ok (name, index))
    (hne : (index : ℤ) ≠ position r.context)
    (hpeer : 0 ≤ indexOf r.context.normalized.nodes (trimSpace r.peerNode))
    (hside : (index - position r.context) *
      (indexOf r.context.normalized.nodes (trimSpace r.peerNode) - position r.context) ≤ 0)
    (hfound : ∃ candidate, r.resolveAdjacent r.context (env.disk 0) name = .ok candidate)
    (hdial : ∀ entry, env.dial 0 entry = .connected) :
    ∃ sent, r.openForward env nodeRef service = .ok sent := by
  obtain ⟨candidate, hcandidate⟩ := Router.exists_dialRegistered hfound hdial
  unfold Router.openForward
  simp only [resolveNode_normalized, hname, hcandidate, require_of_true hservice, ok_bind]
  rw [require_of_true (by simpa [position] using hne), ok_bind,
    require_of_true (by simpa [position] using ⟨hpeer, hside⟩), ok_bind]
  exact ⟨_, rfl⟩

end

end WeaverSSH.SessionRoute
