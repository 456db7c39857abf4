import WeaverSSH.FsOps.Server
import WeaverSSH.P9.Server

/-!
# Exports that are only read

A server that exports a directory only for reading leaves the host as it is. The 9P server refuses
in each handler that changes something, so every action up to there is shown to look only (`Keeps`).
-/

namespace WeaverSSH

open HostTree WeaverSSH.Action

/-! ## The 9P server -/

namespace P9

def SameHost (w w' : World) : Prop := w'.host = w.host

instance : Std.Refl SameHost := ⟨fun _ => rfl⟩

instance : IsTrans World SameHost := ⟨fun _ _ _ h h' => h'.trans h⟩

lemma keeps_touch (deed : Deed) (rel path : Text) : Keeps SameHost (touch deed rel path) :=
  keeps_modify fun _ => rfl

lemma keeps_setFid (fid : UInt32) (st : Option FidState) : Keeps SameHost (setFid fid st) :=
  keeps_modify fun _ => rfl

lemma keeps_statted (sys : Sys) (said : PathErr → Text) (rel path : Text) :
    Keeps SameHost (statted sys said rel path) :=
  keeps_bind (keeps_touch _ _ _) fun _ => keeps_reads _

lemma keeps_handleVersion (msg : Message) : Keeps SameHost (handleVersion msg) := by
  unfold handleVersion
  refine keeps_demand_bind fun _ => ?_
  refine keeps_reads_bind fun _ _ _ => ?_
  refine keeps_bind (keeps_modify fun _ => rfl) fun _ => ?_
  exact keeps_pure _

lemma keeps_handleAttach (srv : Server) (sys : Sys) (msg : Message) :
    Keeps SameHost (handleAttach srv sys msg) := by
  unfold handleAttach
  refine keeps_demand_bind fun _ => ?_
  refine keeps_reads_bind fun _ _ _ => ?_
  refine keeps_bind (keeps_statted _ _ _ _) fun _ => ?_
  refine keeps_bind (keeps_setFid _ _) fun _ => ?_
  exact keeps_pure _

lemma keeps_walkNames (srv : Server) (sys : Sys) (rel : Text) (names : List Text) :
    Keeps SameHost (walkNames srv sys rel names) := by
  induction names generalizing rel with
  | nil => exact keeps_pure _
  | cons name rest ih =>
    unfold walkNames
    refine keeps_demand_bind fun _ => ?_
    refine keeps_ite (fun _ => ih rel) fun _ => ?_
    refine keeps_reads_bind fun _ _ _ => ?_
    refine keeps_bind (keeps_statted _ _ _ _) fun _ => ?_
    refine keeps_bind (ih _) fun _ => ?_
    exact keeps_pure _

lemma keeps_handleWalk (srv : Server) (sys : Sys) (msg : Message) :
    Keeps SameHost (handleWalk srv sys msg) := by
  unfold handleWalk
  refine keeps_demand_bind fun _ => ?_
  refine keeps_reads_bind fun _ _ _ => ?_
  refine keeps_reads_bind fun _ _ _ => ?_
  refine keeps_ite (fun _ => ?_) fun _ => ?_
  · exact keeps_bind (keeps_setFid _ _) fun _ => keeps_pure _
  · refine keeps_bind (keeps_walkNames _ _ _ _) fun _ => ?_
    refine keeps_reads_bind fun _ _ _ => ?_
    refine keeps_bind (keeps_statted _ _ _ _) fun _ => ?_
    refine keeps_bind (keeps_setFid _ _) fun _ => ?_
    exact keeps_pure _

lemma wantsWrite_of_truncates {mode : UInt8} (h : truncates mode = true) :
    wantsWrite mode = true := by
  unfold wantsWrite
  rw [Bool.or_eq_true]
  exact .inr h

lemma keeps_emptied (sys : Sys) (st : FidState) {mode : UInt8} (hmode : wantsWrite mode = false)
    (info : Info) : Keeps SameHost (emptied sys st mode info) := by
  unfold emptied
  refine keeps_ite (fun htrunc => ?_) fun _ => keeps_pure _
  rw [Bool.and_eq_true] at htrunc
  rw [wantsWrite_of_truncates htrunc.1] at hmode
  cases hmode

variable {srv : Server}

lemma keeps_handleOpen (hsrv : srv.readOnly = true) (sys : Sys) (msg : Message) :
    Keeps SameHost (handleOpen srv sys msg) := by
  unfold handleOpen
  refine keeps_demand_bind fun _ => ?_
  refine keeps_reads_bind fun _ _ _ => ?_
  refine keeps_demand_bind fun hgate => ?_
  refine keeps_bind (keeps_statted _ _ _ _) fun info => ?_
  have hmode : wantsWrite (msg.payload.getD 4 0) = false := by
    rwa [hsrv, Bool.true_and, Bool.not_eq_true'] at hgate
  refine keeps_bind (keeps_emptied _ _ hmode _) fun _ => ?_
  refine keeps_bind (keeps_setFid _ _) fun _ => ?_
  exact keeps_pure _

lemma keeps_childStat (srv : Server) (sys : Sys) (rel name : Text) :
    Keeps SameHost (childStat srv sys rel name) := by
  unfold childStat
  refine keeps_bind (keeps_gets _) fun path => ?_
  cases path with
  | error e => exact keeps_pure _
  | ok path =>
    refine keeps_bind (keeps_touch _ _ _) fun _ => ?_
    refine keeps_bind (keeps_gets _) fun info => ?_
    cases info with
    | error e | ok info => exact keeps_pure _

lemma keeps_listEntries (srv : Server) (sys : Sys) (rel : Text) (names : List Text) :
    Keeps SameHost (listEntries srv sys rel names) := by
  induction names with
  | nil => exact keeps_pure _
  | cons name rest ih =>
    unfold listEntries
    refine keeps_bind (keeps_childStat _ _ _ _) fun _ => ?_
    exact keeps_bind ih fun _ => keeps_pure _

lemma keeps_readData (srv : Server) (sys : Sys) (st : FidState) (info : Info) (offset count : ℕ) :
    Keeps SameHost (readData srv sys st info offset count) := by
  unfold readData
  refine keeps_ite (fun _ => ?_) fun _ => ?_
  · refine keeps_bind ?_ fun _ => keeps_pure _
    refine keeps_bind (keeps_touch _ _ _) fun _ => ?_
    exact keeps_reads_bind fun _ _ _ => keeps_listEntries _ _ _ _
  · exact keeps_bind (keeps_touch _ _ _) fun _ => keeps_reads _

lemma keeps_handleRead (srv : Server) (sys : Sys) (msg : Message) :
    Keeps SameHost (handleRead srv sys msg) := by
  unfold handleRead
  refine keeps_demand_bind fun _ => ?_
  refine keeps_reads_bind fun _ _ _ => ?_
  refine keeps_bind (keeps_statted _ _ _ _) fun _ => ?_
  exact keeps_bind (keeps_readData _ _ _ _ _ _) fun _ => keeps_pure _

lemma keeps_of_writable {α : Type} (hsrv : srv.readOnly = true) (e : Text) (f : Unit → Handler α) :
    Keeps SameHost (Action.demand (!srv.readOnly) e >>= f) := by
  refine keeps_demand_bind fun hwritable => ?_
  rw [hsrv] at hwritable
  cases hwritable

lemma keeps_handleRemove (hsrv : srv.readOnly = true) (sys : Sys) (msg : Message) :
    Keeps SameHost (handleRemove srv sys msg) := by
  unfold handleRemove
  refine keeps_demand_bind fun _ => ?_
  refine keeps_bind (keeps_gets _) fun st => ?_
  refine keeps_bind (keeps_setFid _ _) fun _ => ?_
  cases st with
  | none => exact keeps_fail _
  | some st => exact keeps_of_writable hsrv _ _

lemma keeps_handleClunk (msg : Message) : Keeps SameHost (handleClunk msg) := by
  unfold handleClunk
  refine keeps_demand_bind fun _ => ?_
  exact keeps_bind (keeps_setFid _ _) fun _ => keeps_pure _

lemma keeps_handleStat (sys : Sys) (msg : Message) : Keeps SameHost (handleStat sys msg) := by
  unfold handleStat
  refine keeps_demand_bind fun _ => ?_
  refine keeps_reads_bind fun _ _ _ => ?_
  exact keeps_bind (keeps_statted _ _ _ _) fun _ => keeps_pure _

/-- **The step**: every handler, for a request of any type. -/
lemma keeps_handle (hsrv : srv.readOnly = true) (sys : Sys) (msg : Message) :
    Keeps SameHost (handle srv sys msg) := by
  unfold handle
  split
  · exact keeps_handleVersion msg
  · exact keeps_handleAttach srv sys msg
  · exact keeps_handleWalk srv sys msg
  · exact keeps_handleOpen hsrv sys msg
  · exact keeps_of_writable hsrv _ _
  · exact keeps_handleRead srv sys msg
  · exact keeps_of_writable hsrv _ _
  · exact keeps_handleClunk msg
  · exact keeps_handleRemove hsrv sys msg
  · exact keeps_handleStat sys msg
  · exact keeps_fail _

/-- A server's host, and its connections: the sessions of those that are open. -/
structure Exported where
  host : Host
  sessions : ℕ → Option Session

/-- Bytes that come on a connection, and what the system does while they are served. -/
structure Incoming where
  connection : ℕ
  sys : Sys
  stream : List UInt8

/-- A connection is closed where its bytes are no message. -/
def Server.step (srv : Server) (x : Exported) (incoming : Incoming) : Exported :=
  match x.sessions incoming.connection with
  | none => x
  | some session =>
    match srv.receive incoming.sys { session, host := x.host } incoming.stream with
    | none => { x with sessions := Function.update x.sessions incoming.connection none }
    | some (_, w, _) =>
      ⟨w.host, Function.update x.sessions incoming.connection (some w.session)⟩

def Server.run (srv : Server) (x : Exported) (incoming : List Incoming) : Exported :=
  incoming.foldl srv.step x

lemma Server.host_step (hsrv : srv.readOnly = true) (x : Exported)
    (incoming : Incoming) : (srv.step x incoming).host = x.host := by
  unfold Server.step
  cases x.sessions incoming.connection with
  | none => rfl
  | some session =>
    dsimp only
    unfold Server.receive
    cases readMessage incoming.stream with
    | none => rfl
    | some received =>
      have hkept := keeps_handle hsrv incoming.sys received.1 { session, host := x.host }
      simp only [Option.map_some, Server.respond]
      cases hrun : handle srv incoming.sys received.1 { session, host := x.host } with
      | mk result w =>
        rw [hrun] at hkept
        cases result with
        | error e | ok payload => exact hkept

lemma Server.host_run (hsrv : srv.readOnly = true) (x : Exported)
    (incoming : List Incoming) : (srv.run x incoming).host = x.host := by
  induction incoming generalizing x with
  | nil => rfl
  | cons first rest ih => exact (ih (srv.step x first)).trans (srv.host_step hsrv x first)

end P9

/-! ## The file operations service -/

namespace FsOps

instance : Std.Refl fun h h' : Host => h' = h := ⟨fun _ => rfl⟩

instance : IsTrans Host fun h h' => h' = h := ⟨fun _ _ _ h h' => h'.trans h⟩

abbrev Looks {α : Type} (m : Handler α) : Prop := Keeps (fun h h' : Host => h' = h) m

lemma looks_resolveFinal (srv : Server) (env : Surroundings) (raw : Text) :
    Looks (resolveFinal srv env raw) := by
  unfold resolveFinal
  refine keeps_reads_bind fun _ _ _ => ?_
  refine keeps_demand_bind fun _ => ?_
  refine keeps_reads_bind fun _ _ _ => ?_
  refine keeps_demand_bind fun _ => ?_
  refine keeps_reads_bind fun _ _ _ => ?_
  exact keeps_demand_bind fun _ => keeps_pure _

lemma looks_fileMetadata (env : Surroundings) (relative absolute : Text) (info : Info) :
    Looks (fileMetadata env relative absolute info) := by
  unfold fileMetadata
  refine keeps_bind ?_ fun _ => keeps_pure _
  exact keeps_ite (fun _ => keeps_reads _) fun _ => keeps_pure _

lemma looks_lstat (srv : Server) (env : Surroundings) (request : Request) :
    Looks (lstat srv env request) := by
  unfold lstat
  refine keeps_bind (looks_resolveFinal _ _ _) fun _ => ?_
  refine keeps_reads_bind fun _ _ _ => ?_
  exact keeps_bind (looks_fileMetadata _ _ _ _) fun _ => keeps_pure _

lemma looks_listMetadata (env : Surroundings) (relative absolute : Text) (names : List Text) :
    Looks (listMetadata env relative absolute names) := by
  induction names with
  | nil => exact keeps_pure _
  | cons name rest ih =>
    unfold listMetadata
    refine keeps_reads_bind fun _ _ _ => ?_
    refine keeps_bind (looks_fileMetadata _ _ _ _) fun _ => ?_
    exact keeps_bind ih fun _ => keeps_pure _

lemma looks_list (srv : Server) (env : Surroundings) (request : Request) :
    Looks (list srv env request) := by
  unfold list
  refine keeps_bind (looks_resolveFinal _ _ _) fun _ => ?_
  refine keeps_reads_bind fun _ _ _ => ?_
  refine keeps_demand_bind fun _ => ?_
  refine keeps_reads_bind fun _ _ _ => ?_
  exact keeps_bind (looks_listMetadata _ _ _ _) fun _ => keeps_pure _

lemma looks_dispatch (srv : Server) (env : Surroundings) {request : Request}
    (h : mutatingOperation request.operation = false) : Looks (dispatch srv env request) := by
  unfold mutatingOperation at h
  unfold dispatch
  split at h
  · next hname =>
    rw [hname]
    exact looks_lstat srv env request
  · next hname =>
    rw [hname]
    exact looks_list srv env request
  · cases h

/-- The requests of some streams, one after another. -/
def Server.run (srv : Server) (h : Host) (incoming : List (Surroundings × List UInt8)) : Host :=
  incoming.foldl (fun h request => (srv.serve request.1 h request.2).2) h

lemma Server.host_serve {srv : Server} (hsrv : srv.readOnly = true) (env : Surroundings) (h : Host)
    (stream : List UInt8) : (srv.serve env h stream).2 = h := by
  unfold Server.serve
  cases readRequest stream with
  | error e => rfl
  | ok request =>
    dsimp only
    cases hmutating : mutatingOperation request.operation with
    | true => rw [hsrv]; rfl
    | false =>
      rw [Bool.and_false, if_neg Bool.false_ne_true]
      have hlooks := looks_dispatch srv env hmutating h
      split
      · rfl
      · exact hlooks

end FsOps

/-- **Exports that are only read change nothing**: neither the 9P server, on any number of
connections and for messages of any kind, nor the file operations service. -/
theorem read_only_exports (root : Text) : (∀ (x : P9.Exported) (incoming : List P9.Incoming),
      (P9.Server.run ⟨root, true⟩ x incoming).host = x.host) ∧
    (∀ (h : Host) (incoming : List (FsOps.Surroundings × List UInt8)),
      FsOps.Server.run ⟨root, true⟩ h incoming = h) := by
  constructor
  · intro x incoming
    exact P9.Server.host_run rfl x incoming
  · intro h incoming
    induction incoming generalizing h with
    | nil => rfl
    | cons first rest ih =>
      have hfirst : (FsOps.Server.serve ⟨root, true⟩ first.1 h first.2).2 = h :=
        FsOps.Server.host_serve rfl first.1 h first.2
      calc FsOps.Server.run ⟨root, true⟩ h (first :: rest)
          = FsOps.Server.run ⟨root, true⟩
              (FsOps.Server.serve ⟨root, true⟩ first.1 h first.2).2 rest := rfl
        _ = FsOps.Server.run ⟨root, true⟩ h rest := by rw [hfirst]
        _ = h := ih h

end WeaverSSH
