import WeaverSSH.P9.History
import WeaverSSH.P9.Results

/-!
# Fids that are read and written without being opened

A fid is to be opened before it is read or written. The server notes that a fid was opened and never
looks at it again: it asks only that the fid is there (`bound`). So wherever the root can be listed,
two more requests break the discipline, whatever was served before (`open_discipline`).
-/

namespace WeaverSSH.P9

open HostTree WeaverSSH.Action

/-- The two ways to use a file. -/
inductive Direction where
  | reading
  | writing
deriving DecidableEq, Repr

def Direction.kind : Direction → Kind
  | .reading => .read
  | .writing => .write

/-- A mode of 9P is to read (0), to write (1), both (2) or to execute (3), which is to read as
well. -/
def Direction.permits (d : Direction) (mode : UInt8) : Bool :=
  match d with
  | .reading => mode &&& 0x03 ≠ 1
  | .writing => mode &&& 0x03 = 1 || mode &&& 0x03 = 2

/-- The mode in which a fid was opened, where it was. -/
def Served.opens (s : Served) (fid : UInt32) : Option UInt8 :=
  if s.ok = true ∧ uint32At s.msg.payload 0 = fid then
    match Kind.ofType s.msg.type with
    | some .open => s.msg.payload[4]?
    | some .create =>
      match unpackString s.msg.payload 4 with
      | .ok (_, offset) => s.msg.payload[offset + 4]?
      | .error _ => none
    | _ => none
  else none

/-- The fid was opened for a direction, and has neither been given up nor bound again since. -/
def openFor (d : Direction) (fid : UInt32) : List Served → Bool
  | [] => false
  | s :: past =>
    !(s.binds fid || s.unbinds fid) && ((s.opens fid).any d.permits || openFor d fid past)

def Message.uses (msg : Message) (d : Direction) (fid : UInt32) : Prop :=
  Kind.ofType msg.type = some d.kind ∧ uint32At msg.payload 0 = fid

/-- What a server asks of a use of a fid, apart from the fid: a message that is long enough, a host
that lets it happen and, to write, a server and a fid that are written to. -/
def Server.Lets (srv : Server) (sys : Sys) (h : Host) (msg : Message) (st : FidState) :
    Direction → Prop
  | .reading => 16 ≤ msg.payload.length ∧ ∃ info data, h.stat sys st.path = .ok info ∧
      srv.contents sys h st info (uint64At msg.payload 4).toNat
        (min (uint32At msg.payload 12).toNat 0x100000) = .ok data
  | .writing => 16 ≤ msg.payload.length ∧ srv.readOnly = false ∧ st.isDir = false ∧
      ∃ opened written, h.openFile sys st.path true false false 0x1a4 = .ok opened ∧
        opened.writeAt sys st.path (int64 (uint64At msg.payload 4).toNat) msg.data = .ok written ∧
        sys.call "close" st.path (.ok ()) = .ok ()

lemma uses_ok_iff {srv : Server} {sys : Sys} {w : World} {msg : Message} {d : Direction}
    {fid : UInt32} (huses : msg.uses d fid) : (srv.respond sys w msg).1.type ≠ rerror ↔
      ∃ st, w.session.fids fid = some st ∧ srv.Lets sys w.host msg st d := by
  obtain ⟨hkind, rfl⟩ := huses
  have hreply : (srv.respond sys w msg).1.type ≠ rerror ↔
      ∃ payload, (handle srv sys msg w).1 = .ok payload := by
    rcases respond_reply srv sys w msg with ⟨e, he, hreply⟩ | ⟨kind, payload, -, hok, hreply⟩
    · simp [he, hreply]
    · simp [hok, hreply, kind.reply_ne_rerror]
  rw [hreply]
  unfold handle
  rw [hkind]
  cases d with
  | reading =>
    simp only [Direction.kind, handleRead_ok, Server.Lets]
    constructor
    · rintro ⟨_, hlen, st, info, data, hst, hinfo, hdata, -⟩
      exact ⟨st, hst, hlen, info, data, hinfo, hdata⟩
    · rintro ⟨st, hst, hlen, info, data, hinfo, hdata⟩
      exact ⟨_, hlen, st, info, data, hst, hinfo, hdata, rfl⟩
  | writing =>
    have hok : (∃ payload, (handleWrite srv sys msg w).1 = .ok payload) ↔
        ∃ payload w', handleWrite srv sys msg w = (.ok payload, w') :=
      exists_congr fun payload => ⟨fun h => ⟨_, Prod.ext h rfl⟩, fun ⟨_, h⟩ => congrArg Prod.fst h⟩
    simp only [Direction.kind, hok, handleWrite_ok, Server.Lets]
    constructor
    · rintro ⟨_, _, hwritable, hlen, st, opened, written, hst, hfile, hopened, hwritten, hclosed, -⟩
      exact ⟨st, hst, hlen, hwritable, hfile, opened, written, hopened, hwritten, hclosed⟩
    · rintro ⟨st, hst, hlen, hwritable, hfile, opened, written, hopened, hwritten, hclosed⟩
      exact ⟨_, _, hwritable, hlen, st, opened, written, hst, hfile, hopened, hwritten,
        hclosed, rfl, rfl⟩

/-- The root is found, and is a directory that can be listed. -/
def Server.Browsable (srv : Server) (sys : Sys) (h : Host) : Prop :=
  ∃ root info names, srv.resolve sys h [] = .ok root ∧ h.stat sys root = .ok info ∧
    info.isDir = true ∧ h.readDir sys root = .ok names

/-- To attach the root under a fid. -/
def attachRequest (sys : Sys) (fid : UInt32) : Request :=
  ⟨⟨Kind.attach.request, 1, littleEndian 4 fid.toNat ++ littleEndian 4 0⟩, sys, id⟩

/-- To read from the beginning of what a fid stands for. -/
def readRequest (sys : Sys) (fid : UInt32) (count : ℕ) : Request :=
  ⟨⟨Kind.read.request, 1, littleEndian 4 fid.toNat ++ (littleEndian 8 0 ++ littleEndian 4 count)⟩,
    sys, id⟩

lemma uint32At_fid (fid : UInt32) (rest : List UInt8) :
    uint32At (littleEndian 4 fid.toNat ++ rest) 0 = fid := by
  refine UInt32.toNat_inj.mp ?_
  rw [toNat_uint32At_littleEndian fid.toNat_lt]

lemma handleAttach_eq {srv : Server} {sys : Sys} {w : World} {msg : Message} {root : Text}
    {info : Info} (hlen : 8 ≤ msg.payload.length) (hroot : srv.resolve sys w.host [] = .ok root)
    (hinfo : w.host.stat sys root = .ok info) :
    ∃ payload touched, handleAttach srv sys msg w = (.ok payload, ⟨{ w.session with
      fids := Function.update w.session.fids (uint32At msg.payload 0)
        (some ⟨[], root, false, true⟩) }, w.host, touched⟩) := by
  refine ⟨(qidFor [] info).bytes, w.touched ++ [⟨.stat, [], root⟩], ?_⟩
  simp only [handleAttach, resolved, statted, touch, look, setFid, Action.bind_eq_ok, demand_eq_ok,
    reads_eq_ok, modify_eq_ok, mapError_eq_ok, Action.pure_eq_ok, checks_ok]
  exact ⟨_, ⟨hlen, rfl⟩, root, _, ⟨hroot, rfl⟩, info, _, ⟨_, rfl, hinfo, rfl⟩, _, rfl, rfl, rfl⟩

/-- Where the root can be found, an attach of it is served, and the fid stands for it then. -/
lemma serve_attach {srv : Server} {sys : Sys} {c : Conversation} (fid : UInt32) {root : Text}
    {info : Info} (hroot : srv.resolve sys c.world.host [] = .ok root)
    (hinfo : c.world.host.stat sys root = .ok info) :
    ∃ payload touched, srv.serve c (attachRequest sys fid) = ⟨⟨{ c.world.session with
      fids := Function.update c.world.session.fids fid (some ⟨[], root, false, true⟩) },
      c.world.host, touched⟩,
      ⟨(attachRequest sys fid).msg, ⟨Kind.attach.request + 1, 1, payload⟩⟩ :: c.past⟩ := by
  obtain ⟨payload, touched, hattach⟩ := @handleAttach_eq srv sys (c.found (attachRequest sys fid))
    (attachRequest sys fid).msg root info (by simp [attachRequest]) hroot hinfo
  rw [attachRequest, uint32At_fid, ← attachRequest] at hattach
  have hhandle : handle srv sys (attachRequest sys fid).msg (c.found (attachRequest sys fid)) =
      handleAttach srv sys (attachRequest sys fid).msg (c.found (attachRequest sys fid)) := rfl
  refine ⟨payload, touched, ?_⟩
  unfold Server.serve Server.answer
  change Conversation.mk (srv.respond sys _ (attachRequest sys fid).msg).2
    (⟨_, (srv.respond sys _ (attachRequest sys fid).msg).1⟩ :: c.past) = _
  rw [Server.respond, hhandle, hattach]
  rfl

/-- **Open discipline**: in every session a fid that is read or written was bound and has not been
given up. But nothing more is asked: whatever was served, where the root can be listed a fid that is
attached to it is read without having been opened. -/
theorem open_discipline (srv : Server) (host : Host) (requests : List Request) :
    (∀ before q after, requests = before ++ q :: after → ∀ d fid, q.msg.uses d fid →
      (srv.answer (srv.converse host before) q).type ≠ rerror →
      bound fid (srv.converse host before).past = true) ∧
    ∀ sys fid count, srv.Browsable sys (srv.converse host requests).world.host →
      let attached := srv.converse host (requests ++ [attachRequest sys fid])
      (readRequest sys fid count).msg.uses .reading fid ∧
      (srv.answer attached (readRequest sys fid count)).type ≠ rerror ∧
      openFor .reading fid attached.past = false := by
  refine ⟨fun before q after _ d fid huses hok => ?_, fun sys fid count hroot => ?_⟩
  · obtain ⟨st, hst, -⟩ := (uses_ok_iff (w := (srv.converse host before).found q) huses).mp hok
    rw [← bound_converse, show (srv.converse host before).world.session.fids fid = some st from hst]
    rfl
  · obtain ⟨root, info, names, hresolve, hstat, hdir, hnames⟩ := hroot
    obtain ⟨payload, touched, hserve⟩ := serve_attach fid hresolve hstat
    rw [← Server.converse_concat] at hserve
    have huses : (readRequest sys fid count).msg.uses .reading fid := ⟨rfl, uint32At_fid fid _⟩
    intro attached
    refine ⟨huses, (uses_ok_iff (w := attached.found (readRequest sys fid count)) huses).mpr ?_, ?_⟩
    · have hcontents (offset count : ℕ) : ∃ data, srv.contents sys
          (srv.converse host requests).world.host ⟨[], root, false, true⟩ info offset count =
            .ok data := by
        rw [Server.contents, if_pos hdir, hnames]
        exact ⟨_, rfl⟩
      obtain ⟨data, hdata⟩ := hcontents _ _
      rw [show attached = _ from hserve]
      exact ⟨⟨[], root, false, true⟩, Function.update_self .., by simp [readRequest], info, data,
        hstat, hdata⟩
    · have hfid : uint32At (attachRequest sys fid).msg.payload 0 = fid := uint32At_fid fid _
      have hkind : Kind.ofType (attachRequest sys fid).msg.type = some .attach := rfl
      have hok : decide (Kind.attach.request + 1 ≠ rerror) = true := rfl
      rw [show attached = _ from hserve, openFor]
      simp only [Served.binds, Served.ok, hkind, hfid, hok, decide_true, Bool.and_true,
        Bool.true_or, Bool.not_true, Bool.false_and]

section Sample

/-- **A file is read and written without being opened**: it is enough to walk to it. And one that
was opened to be read is written. -/
theorem read_without_open :
    let srv : Server := ⟨text "/r", false⟩
    let read := requestOf .read (littleEndian 4 1 ++ littleEndian 8 0 ++ littleEndian 4 9)
    let write := requestOf .write (littleEndian 4 1 ++ littleEndian 8 0 ++ littleEndian 4 1 ++ [8])
    let opened := walkToFile ++ [requestOf .open (littleEndian 4 1 ++ [0])]
    srv.answer (srv.converse plainHost walkToFile) read =
        ⟨Kind.read.reply, 1, littleEndian 4 1 ++ [7]⟩ ∧
      openFor .reading 1 (srv.converse plainHost walkToFile).past = false ∧
      srv.answer (srv.converse plainHost walkToFile) write =
        ⟨Kind.write.reply, 1, littleEndian 4 1⟩ ∧
      openFor .writing 1 (srv.converse plainHost walkToFile).past = false ∧
      srv.answer (srv.converse plainHost opened) write = ⟨Kind.write.reply, 1, littleEndian 4 1⟩ ∧
      openFor .reading 1 (srv.converse plainHost opened).past = true ∧
      openFor .writing 1 (srv.converse plainHost opened).past = false := by
  decide +kernel

/-- A directory that was just attached is read after any walk. -/
theorem open_discipline_attached :
    let srv : Server := ⟨text "/r", false⟩
    let attached := srv.converse plainHost (walkToFile ++ [attachRequest plainSys 2])
    (srv.answer attached (readRequest plainSys 2 99)).type ≠ rerror ∧
      openFor .reading 2 attached.past = false := by
  refine ((open_discipline ⟨text "/r", false⟩ plainHost walkToFile).2 plainSys 2 99 ?_).2
  exact ⟨_, _, _, by rfl, by rfl, by rfl, by rfl⟩

end Sample

end WeaverSSH.P9
