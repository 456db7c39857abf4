import WeaverSSH.P9.Spec

/-!
# What reads and writes come to

When a request to read or to write succeeds, and what is in its reply. The bytes that are read are a
function of the host (`Server.contents`): the records of a directory in the order of their names, or
a part of a file.
-/

namespace WeaverSSH.P9

open HostTree FilePath WeaverSSH.Action Except

section

variable (srv : Server) (sys : Sys)

/-- The record of an entry of a directory, and nothing where it cannot be found. -/
def Server.told (h : Host) (rel name : Text) : List UInt8 :=
  match srv.resolve sys h (join [rel, name]) with
  | .error _ => []
  | .ok path =>
    match h.stat sys path with
    | .error _ => []
    | .ok info => statBytes (join [rel, name]) info

/-- The bytes that are read of an entry. -/
def Server.contents (h : Host) (st : FidState) (info : Info) (offset count : ℕ) :
    Except PathErr (List UInt8) :=
  if info.isDir then
    (h.readDir sys st.path).map fun names =>
      ((names.flatMap (srv.told sys h st.rel)).drop offset).take count
  else h.readAt sys st.path (int64 offset) count

lemma childStat_result (rel name : Text) (w : World) : wp (childStat srv sys rel name)
      (fun result w' => Looked w w' ∧ result = .ok (srv.told sys w.host rel name)) w := by
  unfold childStat Server.told
  refine wp_gets_bind ?_
  cases srv.resolve sys w.host (join [rel, name]) with
  | error e => exact wp_pure ⟨Looked.refl w, rfl⟩
  | ok path =>
    refine wp_modify_bind (wp_gets_bind ?_)
    have hlooked : Looked w { w with touched := w.touched ++ [⟨.stat, join [rel, name], path⟩] } :=
      ⟨rfl, rfl, _, rfl, fun touch h => by rw [List.mem_singleton.mp h]⟩
    dsimp only
    cases w.host.stat sys path with
    | error e | ok info => exact wp_pure ⟨hlooked, rfl⟩

lemma listEntries_result (rel : Text) (names : List Text) (w : World) :
    wp (listEntries srv sys rel names)
      (fun result w' => Looked w w' ∧
        result = .ok (names.flatMap (srv.told sys w.host rel))) w := by
  induction names generalizing w with
  | nil => exact wp_pure ⟨Looked.refl w, rfl⟩
  | cons name rest ih =>
    unfold listEntries
    refine wp_bind (childStat_result srv sys rel name w) (fun entry w₁ hentry => ?_)
      fun e w₁ hentry => by cases hentry.2
    refine wp_bind (ih w₁) (fun others w₂ hothers => ?_) fun e w₂ hothers => by cases hothers.2
    refine wp_pure ⟨hentry.1.trans hothers.1, ?_⟩
    rw [ok.inj hentry.2, ok.inj hothers.2, hentry.1.host, List.flatMap_cons]

lemma readData_result (st : FidState) (info : Info) (offset count : ℕ) (w : World) :
    wp (readData srv sys st info offset count) (fun result w' => w'.session = w.session ∧
      w'.host = w.host ∧
      result = (srv.contents sys w.host st info offset count).mapError PathErr.message) w := by
  unfold readData Server.contents
  by_cases hdir : info.isDir = true
  · rw [if_pos hdir, if_pos hdir]
    have hread : wp (readDir srv sys st.rel st.path) (fun result w' => w'.session = w.session ∧
        w'.host = w.host ∧ result = ((w.host.readDir sys st.path).map fun names =>
          names.flatMap (srv.told sys w.host st.rel)).mapError PathErr.message) w := by
      refine wp_modify_bind (wp_reads_bind (fun names hnames => ?_) fun e he => ⟨rfl, rfl, ?_⟩)
      · refine wp_mono (listEntries_result srv sys st.rel names _) fun result w' hseen => ?_
        refine ⟨hseen.1.session, hseen.1.host, ?_⟩
        rw [hseen.2, show w.host.readDir sys st.path = .ok names from mapError_eq_ok.mp hnames]
        rfl
      · dsimp only at he
        cases hnames : w.host.readDir sys st.path with
        | error e' =>
          rw [hnames] at he
          exact congrArg error (error.inj he).symm
        | ok names =>
          rw [hnames] at he
          cases he
    refine wp_bind hread (fun all w' hall => wp_pure ⟨hall.1, hall.2.1, ?_⟩)
      fun e w' hall => ⟨hall.1, hall.2.1, ?_⟩
    · have hread := hall.2.2
      cases hnames : w.host.readDir sys st.path with
      | error e' =>
        rw [hnames] at hread
        cases hread
      | ok names =>
        rw [hnames] at hread
        rw [ok.inj hread]
        rfl
    · have hfailed := hall.2.2
      cases hnames : w.host.readDir sys st.path with
      | error e' =>
        rw [hnames] at hfailed
        exact hfailed
      | ok names =>
        rw [hnames] at hfailed
        cases hfailed
  · rw [if_neg hdir, if_neg hdir]
    exact wp_modify_bind (wp_reads ⟨rfl, rfl, rfl⟩)

lemma handleRead_ok {msg : Message} {w : World} {payload : List UInt8} :
    (handleRead srv sys msg w).1 = .ok payload ↔ 16 ≤ msg.payload.length ∧
      ∃ st info data, w.session.fids (uint32At msg.payload 0) = some st ∧
        w.host.stat sys st.path = .ok info ∧
        srv.contents sys w.host st info (uint64At msg.payload 4).toNat
          (min (uint32At msg.payload 12).toNat 0x100000) = .ok data ∧
        payload = littleEndian 4 data.length ++ data := by
  have hspec : wp (handleRead srv sys msg) (fun result _ => result = .ok payload ↔
      16 ≤ msg.payload.length ∧ ∃ st info data, w.session.fids (uint32At msg.payload 0) = some st ∧
        w.host.stat sys st.path = .ok info ∧
        srv.contents sys w.host st info (uint64At msg.payload 4).toNat
          (min (uint32At msg.payload 12).toNat 0x100000) = .ok data ∧
        payload = littleEndian 4 data.length ++ data) w := by
    unfold handleRead
    refine wp_demand_bind (fun hlen => ?_) fun hshort => ?_
    case refine_2 =>
      rw [decide_eq_false_iff_not] at hshort
      simp [hshort]
    refine wp_reads_bind (fun st hst => ?_) fun e he => ?_
    case refine_2 =>
      have hnone : w.session.fids (uint32At msg.payload 0) = none := by
        cases hfid : w.session.fids (uint32At msg.payload 0) with
        | none => rfl
        | some st => rw [hfid] at he; cases he
      simp [hnone]
    have hknown : w.session.fids (uint32At msg.payload 0) = some st := elim_eq_ok.mp hst
    refine wp_bind (statted_result sys PathErr.message st.rel st.path w) (fun info w₁ hinfo => ?_)
      fun e w₁ hinfo => ?_
    case refine_2 =>
      have hfailed : ∀ info, w.host.stat sys st.path ≠ .ok info := by
        intro info hstat
        rw [hstat] at hinfo
        cases hinfo.2
      simp [hknown, hfailed]
    have hstat : w.host.stat sys st.path = .ok info := mapError_eq_ok.mp hinfo.2.symm
    refine wp_bind (readData_result srv sys st info _ _ w₁) (fun data w₂ hdata => wp_pure ?_)
      fun e w₂ hdata => ?_
    · have hcontents := mapError_eq_ok.mp hdata.2.2.symm
      rw [hinfo.1.host] at hcontents
      simp [of_decide_eq_true hlen, hknown, hstat, hcontents, eq_comm]
    · rw [hinfo.1.host] at hdata
      have hfailed : ∀ data, srv.contents sys w.host st info (uint64At msg.payload 4).toNat
          (min (uint32At msg.payload 12).toNat 0x100000) ≠ .ok data := by
        intro data hcontents
        rw [hcontents] at hdata
        cases hdata.2.2
      simp only [reduceCtorEq, false_iff, not_and, not_exists]
      rintro - st' info' data hst' hstat' hcontents -
      obtain rfl := Option.some.inj (hknown.symm.trans hst')
      obtain rfl := ok.inj (hstat.symm.trans hstat')
      exact hfailed data hcontents
  exact hspec

/-- The bytes that a request is to write. -/
def Message.data (msg : Message) : List UInt8 :=
  bytesAt msg.payload 16 (uint32At msg.payload 12).toNat

lemma change_eq_ok {said : PathErr → Text} {call : Host → Except PathErr Host} {w w' : World}
    {u : Unit} : change said call w = (.ok u, w') ↔
      ∃ host, call w.host = .ok host ∧ { w with host } = w' := by
  unfold change
  rw [tries_eq_ok]
  cases call w.host with
  | error e | ok host => simp [Except.mapError, Except.map]

lemma handleWrite_ok {msg : Message} {w w' : World} {payload : List UInt8} :
    handleWrite srv sys msg w = (.ok payload, w') ↔ srv.readOnly = false ∧
      16 ≤ msg.payload.length ∧ ∃ st opened written,
        w.session.fids (uint32At msg.payload 0) = some st ∧ st.isDir = false ∧
        w.host.openFile sys st.path true false false 0x1a4 = .ok opened ∧
        opened.writeAt sys st.path (int64 (uint64At msg.payload 4).toNat) msg.data = .ok written ∧
        sys.call "close" st.path (.ok ()) = .ok () ∧ payload = littleEndian 4 msg.data.length ∧
        w' = { w with host := written, touched := w.touched ++ [⟨.write, st.rel, st.path⟩] } := by
  simp only [handleWrite, Message.data, Action.bind_eq_ok, demand_eq_ok, getFid, reads_eq_ok, touch,
    modify_eq_ok, change_eq_ok, look, Action.pure_eq_ok, elim_eq_ok, mapError_eq_ok,
    Bool.not_eq_true', checks_ok]
  constructor
  · rintro ⟨_, ⟨hwritable, rfl⟩, _, ⟨hlen, rfl⟩, st, _, ⟨hst, rfl⟩, _, ⟨hfile, rfl⟩, _, rfl, _,
      ⟨opened, hopened, rfl⟩, _, ⟨written, hwritten, rfl⟩, _, _, ⟨hclosed, rfl⟩, rfl, rfl⟩
    exact ⟨hwritable, hlen, st, opened, written, hst, hfile, hopened, hwritten, hclosed, rfl, rfl⟩
  · rintro ⟨hwritable, hlen, st, opened, written, hst, hfile, hopened, hwritten, hclosed, rfl, rfl⟩
    exact ⟨_, ⟨hwritable, rfl⟩, _, ⟨hlen, rfl⟩, st, _, ⟨hst, rfl⟩, _, ⟨hfile, rfl⟩, _, rfl, _,
      ⟨opened, hopened, rfl⟩, _, ⟨written, hwritten, rfl⟩, _, _, ⟨hclosed, rfl⟩, rfl, rfl⟩

end

end WeaverSSH.P9
