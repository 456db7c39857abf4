import WeaverSSH.P9.Server

/-!
# What the handlers do

For every handler of the 9P server: which fids there are after it, as far as one can tell from
outside (`Session.shadows`), and what it did on the host beyond looking (`DidOnly`). What comes
before the last check only looks (`Looked`), so that a handler that fails leaves the fids as they
were, but for `handleRemove`.
-/

namespace WeaverSSH.P9

open HostTree FilePath WeaverSSH.Action List Function

def decodeWalk (payload : List UInt8) : Except Text (UInt32 × UInt32 × List Text) := do
  require (10 ≤ payload.length) (text "short_twalk")
  let names ← unpackStrings payload (uint16At payload 8).toNat 10
  return (uint32At payload 0, uint32At payload 4, names)

/-- What can be told of a fid from outside. -/
structure TrackedFid where
  path : Text := []
  directory : Bool := false
deriving DecidableEq, Repr

def FidState.shadow (st : FidState) : TrackedFid := ⟨st.rel, st.isDir⟩

def Session.shadows (s : Session) : UInt32 → Option TrackedFid :=
  fun fid => (s.fids fid).map FidState.shadow

/-- The session and the host are the same, and the host was only looked at. -/
structure Looked (w w' : World) : Prop where
  session : w'.session = w.session
  host : w'.host = w.host
  touched : ∃ seen, w'.touched = w.touched ++ seen ∧ ∀ touch ∈ seen, touch.deed = .stat

/-- What was done on the host, apart from looking, is something with `P`. -/
def DidOnly (P : Touch → Prop) (w w' : World) : Prop :=
  ∃ new, w'.touched = w.touched ++ new ∧ ∀ touch ∈ new, touch.deed ≠ .stat → P touch

lemma Looked.refl (w : World) : Looked w w :=
  ⟨rfl, rfl, [], (append_nil _).symm, fun _ h => absurd h not_mem_nil⟩

variable {w w' : World} {P : Touch → Prop}

variable {w'' : World}

lemma Looked.trans (h : Looked w w') (h' : Looked w' w'') : Looked w w'' := by
  obtain ⟨seen, hseen, hstat⟩ := h.touched
  obtain ⟨seen', hseen', hstat'⟩ := h'.touched
  refine ⟨h'.session.trans h.session, h'.host.trans h.host, seen ++ seen', ?_, ?_⟩
  · rw [hseen', hseen, append_assoc]
  · intro touch htouch
    rcases mem_append.mp htouch with htouch | htouch
    · exact hstat touch htouch
    · exact hstat' touch htouch

lemma Looked.didOnly (h : Looked w w') : DidOnly P w w' := by
  obtain ⟨seen, hseen, hstat⟩ := h.touched
  exact ⟨seen, hseen, fun touch htouch hdeed => absurd (hstat touch htouch) hdeed⟩

lemma DidOnly.trans (h : DidOnly P w w') (h' : DidOnly P w' w'') : DidOnly P w w'' := by
  obtain ⟨new, hnew, hP⟩ := h
  obtain ⟨new', hnew', hP'⟩ := h'
  refine ⟨new ++ new', by rw [hnew', hnew, append_assoc], ?_⟩
  intro touch htouch
  rcases mem_append.mp htouch with htouch | htouch
  · exact hP touch htouch
  · exact hP' touch htouch

lemma Looked.shadows (h : Looked w w') : w'.session.shadows = w.session.shadows := by
  rw [h.session]

lemma Looked.unchanged (h : Looked w w') :
    DidOnly P w w' ∧ w'.session.shadows = w.session.shadows :=
  ⟨h.didOnly, h.shadows⟩

lemma unchanged (w : World) : DidOnly P w w ∧ w.session.shadows = w.session.shadows :=
  (Looked.refl w).unchanged

lemma didOnly_touch {touch : Touch}
    (h : w'.touched = w.touched ++ [touch]) (hP : P touch) : DidOnly P w w' := by
  refine ⟨[touch], h, fun other hother _ => ?_⟩
  rw [mem_singleton.mp hother]
  exact hP

lemma shadows_update (s : Session) (fid : UInt32) (st : Option FidState) :
    ({ s with fids := update s.fids fid st } : Session).shadows =
      update s.shadows fid (st.map FidState.shadow) :=
  comp_update (Option.map FidState.shadow) s.fids fid st

/-- What an action leaves of a state that it only looked at. -/
def Sees {α : Type} (w : World) (P : α → Prop) (result : Except Text α) (w' : World) : Prop :=
  Looked w w' ∧ ∀ a, result = .ok a → P a

lemma wp_change {said : PathErr → Text} {call : Host → Except PathErr Host}
    {Q : Except Text Unit → World → Prop}
    (hok : ∀ host, call w.host = .ok host → Q (.ok ()) { w with host })
    (herror : ∀ e, call w.host = .error e → Q (.error (said e)) w) : wp (change said call) Q w := by
  unfold change wp tries
  cases hrun : call w.host with
  | error e =>
    simp only [hrun, Except.mapError, Except.map]
    exact herror e hrun
  | ok host =>
    simp only [hrun, Except.mapError, Except.map]
    exact hok host hrun

section

variable (srv : Server) (sys : Sys)

lemma statted_result (said : PathErr → Text) (rel path : Text) (w : World) :
    wp (statted sys said rel path)
      (fun result w' => Looked w w' ∧ result = (w.host.stat sys path).mapError said) w := by
  refine wp_modify_bind (wp_reads ⟨?_, rfl⟩)
  exact ⟨rfl, rfl, [⟨.stat, rel, path⟩], rfl, fun touch h => by rw [mem_singleton.mp h]⟩

lemma statted_spec (said : PathErr → Text) (rel path : Text) (w : World) :
    wp (statted sys said rel path) (Sees w fun info => w.host.stat sys path = .ok info) w := by
  refine wp_mono (statted_result sys said rel path w) fun result w' hseen => ⟨hseen.1, ?_⟩
  intro info hinfo
  exact mapError_eq_ok.mp (hseen.2.symm.trans hinfo)

/-- A request that failed before anything was done. -/
def Untouched (w w' : World) : Prop :=
  w'.session.shadows = w.session.shadows ∧ DidOnly (fun _ => False) w w'

lemma Looked.untouched (h : Looked w w') : Untouched w w' := ⟨h.shadows, h.didOnly⟩

lemma Untouched.refl (w : World) : Untouched w w := (Looked.refl w).untouched

/-! ## Attach, clunk, stat and version -/

lemma handleAttach_spec (msg : Message) (w : World) :
    wp (handleAttach srv sys msg) (fun result w' => DidOnly (fun _ => False) w w' ∧
      w'.session.shadows =
        match result with
        | .ok _ => update w.session.shadows (uint32At msg.payload 0) (some ⟨[], true⟩)
        | .error _ => w.session.shadows) w := by
  unfold handleAttach
  refine wp_demand_bind (fun _ => ?_) fun _ => unchanged w
  refine wp_reads_bind (fun root _ => ?_) fun _ _ => unchanged w
  refine wp_bind (statted_spec sys _ _ _ w) (fun info w' hseen => ?_)
    fun _ w' hseen => hseen.1.unchanged
  refine wp_modify_bind (wp_pure ⟨hseen.1.didOnly, ?_⟩)
  show ({ w'.session with fids := _ } : Session).shadows = _
  rw [shadows_update, hseen.1.shadows]
  rfl

variable {msg : Message}

lemma handleClunk_spec (hlen : 4 ≤ msg.payload.length) (w : World) :
    wp (handleClunk msg) (fun result w' => DidOnly (fun _ => False) w w' ∧ result = .ok [] ∧
      w'.session.shadows = update w.session.shadows (uint32At msg.payload 0) none) w := by
  unfold handleClunk
  refine wp_demand_bind (fun _ => ?_) fun hshort => ?_
  · refine wp_modify_bind (wp_pure ⟨(Looked.refl w).didOnly, rfl, ?_⟩)
    exact shadows_update w.session _ none
  · rw [decide_eq_false_iff_not] at hshort
    exact absurd hlen hshort

lemma handleStat_spec (msg : Message) (w : World) :
    wp (handleStat sys msg) (fun _ w' => Untouched w w') w := by
  unfold handleStat
  refine wp_demand_bind (fun _ => ?_) fun _ => Untouched.refl w
  refine wp_reads_bind (fun st _ => ?_) fun _ _ => Untouched.refl w
  refine wp_bind (statted_spec sys _ _ _ w) (fun info w' hseen => ?_) fun _ w' hseen =>
    hseen.1.untouched
  exact wp_pure hseen.1.untouched

lemma handleVersion_spec (msg : Message) (w : World) :
    wp (handleVersion msg) (fun _ w' => Untouched w w') w := by
  unfold handleVersion
  refine wp_demand_bind (fun _ => ?_) fun _ => Untouched.refl w
  refine wp_reads_bind (fun version _ => ?_) fun _ _ => Untouched.refl w
  exact wp_modify_bind (wp_pure ⟨rfl, [], (append_nil _).symm, by simp⟩)

/-! ## Walk -/

def walkedTo : Text → List Text → Text
  | rel, [] => rel
  | rel, name :: rest => if name = dot then walkedTo rel rest else walkedTo (join [rel, name]) rest

def leading (names : List Text) : List Text := names.filter (· ≠ dot)

lemma walkedTo_of_leading {names : List Text} (h : leading names = []) (rel : Text) :
    walkedTo rel names = rel := by
  induction names generalizing rel with
  | nil => rfl
  | cons name rest ih =>
    by_cases hdot : name = dot
    · have hrest : leading rest = [] := by simpa [leading, hdot] using h
      rw [walkedTo, if_pos hdot, ih hrest]
    · simp [leading, hdot] at h

/-- What comes of a walk: there is a qid for every name that leads on, and the last one is of what
the names lead to. -/
structure Walked (h : Host) (rel : Text) (names : List Text) (last : Text) (qids : List Qid) :
    Prop where
  valid : ∀ name ∈ names, validWalkName name = true
  last_eq : last = walkedTo rel names
  length : qids.length = (leading names).length
  kind : ∀ q ∈ qids.getLast?, ∃ path info, srv.resolve sys h last = .ok path ∧
    h.stat sys path = .ok info ∧ q.isDir = info.isDir

lemma walkNames_spec (rel : Text) (names : List Text) (w : World) : wp (walkNames srv sys rel names)
      (Sees w fun walk => Walked srv sys w.host rel names walk.1 walk.2) w := by
  induction names generalizing rel w with
  | nil =>
    refine wp_pure ⟨Looked.refl w, ?_⟩
    rintro walk hwalk
    rw [← Except.ok.inj hwalk]
    exact ⟨by simp, rfl, rfl, by simp⟩
  | cons name rest ih =>
    unfold walkNames
    refine wp_demand_bind (fun hvalid => ?_) fun _ => ⟨Looked.refl w, by simp⟩
    by_cases hdot : name = dot
    · rw [if_pos hdot]
      refine wp_mono (ih rel w) fun result w' hseen => ⟨hseen.1, fun walk hwalk => ?_⟩
      have hrest := hseen.2 walk hwalk
      refine ⟨?_, ?_, ?_, hrest.kind⟩
      · exact forall_mem_cons.mpr ⟨hvalid, hrest.valid⟩
      · rw [walkedTo, if_pos hdot]
        exact hrest.last_eq
      · rw [hrest.length]
        simp [leading, hdot]
    · rw [if_neg hdot]
      refine wp_reads_bind (fun path hpath => ?_) fun _ _ => ⟨Looked.refl w, by simp⟩
      refine wp_bind (statted_spec sys _ _ _ w) (fun info w₁ hseen => ?_)
        fun _ w₁ hseen => ⟨hseen.1, by simp⟩
      refine wp_bind (ih (join [rel, name]) w₁) (fun walk w₂ hwalk => ?_)
        fun _ w₂ hwalk => ⟨hseen.1.trans hwalk.1, by simp⟩
      refine wp_pure ⟨hseen.1.trans hwalk.1, ?_⟩
      rintro _ ⟨⟩
      have hrest := hwalk.2 walk rfl
      have hinfo := hseen.2 info rfl
      rw [hseen.1.host] at hrest
      refine ⟨?_, ?_, ?_, ?_⟩
      · exact forall_mem_cons.mpr ⟨hvalid, hrest.valid⟩
      · rw [walkedTo, if_neg hdot]
        exact hrest.last_eq
      · simp [leading, hdot, hrest.length]
      · -- The last qid is that of this name where no later one leads on.
        intro q hq
        cases hqids : walk.2 with
        | nil =>
          have hlast : walk.1 = join [rel, name] := by
            rw [hrest.last_eq]
            refine walkedTo_of_leading (eq_nil_of_length_eq_zero ?_) _
            rw [← hrest.length, hqids, length_nil]
          rw [hqids] at hq
          rw [hlast]
          refine ⟨path, info, hpath, hinfo, ?_⟩
          rw [← Option.some.inj hq]
          rfl
        | cons next others =>
          rw [hqids, List.getLast?_cons_cons, ← hqids] at hq
          exact hrest.kind q hq

/-- What comes of a walk that succeeds. -/
inductive WalkDone (msg : Message) (w w' : World) (payload : List UInt8) : Prop where
  | clone (st : FidState) (known : w.session.fids (uint32At msg.payload 0) = some st)
      (payload_eq : payload = walkReply [])
      (shadows : w'.session.shadows =
        update w.session.shadows (uint32At msg.payload 4) (some st.shadow))
      (names : decodeWalk msg.payload = .ok (uint32At msg.payload 0, uint32At msg.payload 4, []))
  | moved (st : FidState) (known : w.session.fids (uint32At msg.payload 0) = some st)
      (names : List Text) (decoded : decodeWalk msg.payload =
        .ok (uint32At msg.payload 0, uint32At msg.payload 4, names))
      (nonempty : names ≠ []) (rel path : Text) (qids : List Qid) (info : Info)
      (walked : Walked srv sys w.host st.rel names rel qids)
      (resolved : srv.resolve sys w.host rel = .ok path) (stat : w.host.stat sys path = .ok info)
      (payload_eq : payload = walkReply qids)
      (shadows : w'.session.shadows = update w.session.shadows (uint32At msg.payload 4)
        (some ⟨rel, info.isDir⟩))

lemma handleWalk_spec (msg : Message) (w : World) :
    wp (handleWalk srv sys msg) (fun result w' => DidOnly (fun _ => False) w w' ∧
      match result with
      | .ok payload => WalkDone srv sys msg w w' payload
      | .error _ => w'.session.shadows = w.session.shadows) w := by
  unfold handleWalk
  refine wp_demand_bind (fun hlen => ?_) fun _ => unchanged w
  refine wp_reads_bind (fun names hnames => ?_) fun _ _ => unchanged w
  have hdecoded : decodeWalk msg.payload =
      .ok (uint32At msg.payload 0, uint32At msg.payload 4, names) := by
    unfold decodeWalk
    rw [bind_eq_ok]
    refine ⟨(), require_eq_ok.mpr hlen, ?_⟩
    rw [mapError_eq_ok.mp hnames]
    rfl
  refine wp_reads_bind (fun st hst => ?_) fun _ _ => unchanged w
  have hknown : w.session.fids (uint32At msg.payload 0) = some st := elim_eq_ok.mp hst
  by_cases hnil : names = []
  · rw [if_pos hnil]
    refine wp_modify_bind (wp_pure ⟨(Looked.refl w).didOnly, ?_⟩)
    exact .clone st hknown rfl (shadows_update _ _ _) (hnil ▸ hdecoded)
  · rw [if_neg hnil]
    refine wp_bind (walkNames_spec srv sys st.rel names w) (fun walk w₁ hwalk => ?_)
      fun _ w₁ hwalk => hwalk.1.unchanged
    refine wp_reads_bind (fun path hpath => ?_) fun _ _ => hwalk.1.unchanged
    refine wp_bind (statted_spec sys _ _ _ w₁) (fun info w₂ hseen => ?_)
      fun _ w₂ hseen => (hwalk.1.trans hseen.1).unchanged
    have hlooked := hwalk.1.trans hseen.1
    have hstat := hseen.2 info rfl
    rw [hwalk.1.host] at hpath hstat
    refine wp_modify_bind (wp_pure ⟨hlooked.didOnly, ?_⟩)
    refine .moved st hknown names hdecoded hnil walk.1 path walk.2 info (hwalk.2 walk rfl) hpath
      hstat rfl ?_
    show ({ w₂.session with fids := _ } : Session).shadows = _
    rw [shadows_update, hlooked.shadows]
    rfl

/-! ## Open and create -/

lemma emptied_spec (st : FidState) (mode : UInt8) (info : Info) (w : World) :
    wp (emptied sys st mode info) (fun _ w' => w'.session = w.session ∧
      DidOnly (fun touch => touch.deed = .truncate ∧ touch.rel = st.rel ∧ truncates mode = true)
        w w') w := by
  unfold emptied
  by_cases hempties : (truncates mode && !info.isDir) = true
  · rw [if_pos hempties]
    rw [Bool.and_eq_true] at hempties
    refine wp_modify_bind ?_
    have hchange : wp (change (fun e => text "truncate: " ++ e.message) fun h =>
        h.truncate sys st.path) (fun _ w' => w'.session = w.session ∧
          w'.touched = w.touched ++ [⟨.truncate, st.rel, st.path⟩])
        { w with touched := w.touched ++ [⟨.truncate, st.rel, st.path⟩] } :=
      wp_change (fun _ _ => ⟨rfl, rfl⟩) fun _ _ => ⟨rfl, rfl⟩
    refine wp_bind hchange (fun _ w₁ hw₁ => ?_) fun _ w₁ hw₁ =>
      ⟨hw₁.1, didOnly_touch hw₁.2 ⟨rfl, rfl, hempties.1⟩⟩
    refine wp_mono (statted_spec sys _ _ _ w₁) fun result w' hseen => ?_
    refine ⟨hseen.1.session.trans hw₁.1, DidOnly.trans ?_ hseen.1.didOnly⟩
    exact didOnly_touch hw₁.2 ⟨rfl, rfl, hempties.1⟩
  · rw [if_neg hempties]
    exact wp_pure ⟨rfl, (Looked.refl w).didOnly⟩

def OpenTouch (msg : Message) (w : World) (touch : Touch) : Prop :=
  ∃ st, w.session.fids (uint32At msg.payload 0) = some st ∧ touch.rel = st.rel ∧
    touch.deed = .truncate ∧ truncates (msg.payload.getD 4 0) = true

lemma handleOpen_spec (msg : Message) (w : World) :
    wp (handleOpen srv sys msg) (fun result w' => DidOnly (OpenTouch msg w) w w' ∧
      match result with
      | .ok payload => ∃ st info, w.session.fids (uint32At msg.payload 0) = some st ∧
          payload = (qidFor st.rel info).bytes ++ littleEndian 4 0 ∧
          w'.session.shadows = update w.session.shadows (uint32At msg.payload 0)
            (some ⟨st.rel, info.isDir⟩)
      | .error _ => w'.session.shadows = w.session.shadows) w := by
  unfold handleOpen
  refine wp_demand_bind (fun _ => ?_) fun _ => unchanged w
  refine wp_reads_bind (fun st hst => ?_) fun _ _ => unchanged w
  have hknown : w.session.fids (uint32At msg.payload 0) = some st := elim_eq_ok.mp hst
  refine wp_demand_bind (fun _ => ?_) fun _ => unchanged w
  refine wp_bind (statted_spec sys _ _ _ w) (fun info w₁ hseen => ?_)
    fun _ w₁ hseen => hseen.1.unchanged
  -- What is done while the file is emptied is what the request asked for.
  have hdid {w' : World} (h : DidOnly (fun touch => touch.deed = .truncate ∧ touch.rel = st.rel ∧
      truncates (msg.payload.getD 4 0) = true) w₁ w') : DidOnly (OpenTouch msg w) w w' := by
    obtain ⟨new, hnew, hP⟩ := h
    refine hseen.1.didOnly.trans ⟨new, hnew, fun touch htouch hdeed => ?_⟩
    obtain ⟨htruncate, hrel, hmode⟩ := hP touch htouch hdeed
    exact ⟨st, hknown, hrel, htruncate, hmode⟩
  refine wp_bind (emptied_spec sys st _ info w₁) (fun info' w₂ hempty => ?_) fun _ w₂ hempty => ?_
  · refine wp_modify_bind (wp_pure ⟨hdid hempty.2, st, info', hknown, rfl, ?_⟩)
    show ({ w₂.session with fids := _ } : Session).shadows = _
    rw [shadows_update, hempty.1, hseen.1.shadows]
    rfl
  · refine ⟨hdid hempty.2, ?_⟩
    rw [hempty.1]
    exact hseen.1.shadows

def CreateTouch (msg : Message) (w : World) (touch : Touch) : Prop :=
  ∃ st name offset, w.session.fids (uint32At msg.payload 0) = some st ∧
    unpackString msg.payload 4 = .ok (name, offset) ∧ offset + 5 ≤ msg.payload.length ∧
    validCreateName name = true ∧ touch.deed = .create ∧ touch.rel = join [st.rel, name]

lemma created_spec (path : Text) (perm : UInt32) (w : World) :
    wp (created sys path perm) (fun result w' => w'.session = w.session ∧
      w'.touched = w.touched ∧ (result = .ok () →
        ∀ info, w'.host.stat sys path = .ok info → info.isDir = asksDir perm)) w := by
  unfold created
  by_cases hdir : asksDir perm = true
  · rw [if_pos hdir]
    refine wp_change (fun host hmade => ⟨rfl, rfl, fun _ info hstat => ?_⟩)
      fun _ _ => ⟨rfl, rfl, by simp⟩
    rw [hdir]
    exact isDir_of_mkdir hmade hstat
  · rw [if_neg hdir]
    refine wp_change (fun host hmade => ⟨rfl, rfl, fun _ info hstat => ?_⟩)
      fun _ _ => ⟨rfl, rfl, by simp⟩
    rw [Bool.eq_false_of_not_eq_true hdir]
    exact isDir_of_openFile hmade hstat

lemma handleCreate_spec (msg : Message) (w : World) :
    wp (handleCreate srv sys msg) (fun result w' => DidOnly (CreateTouch msg w) w w' ∧
      match result with
      | .ok payload => ∃ st name offset info, w.session.fids (uint32At msg.payload 0) = some st ∧
          unpackString msg.payload 4 = .ok (name, offset) ∧ offset + 5 ≤ msg.payload.length ∧
          validCreateName name = true ∧ info.isDir = asksDir (uint32At msg.payload offset) ∧
          payload = (qidFor (join [st.rel, name]) info).bytes ++ littleEndian 4 0 ∧
          w'.session.shadows = update w.session.shadows (uint32At msg.payload 0)
            (some ⟨join [st.rel, name], asksDir (uint32At msg.payload offset)⟩)
      | .error _ => w'.session.shadows = w.session.shadows) w := by
  unfold handleCreate
  refine wp_demand_bind (fun _ => ?_) fun _ => unchanged w
  refine wp_demand_bind (fun _ => ?_) fun _ => unchanged w
  refine wp_reads_bind (fun named hnamed => ?_) fun _ _ => unchanged w
  have hname : unpackString msg.payload 4 = .ok (named.1, named.2) := mapError_eq_ok.mp hnamed
  refine wp_demand_bind (fun hoffset => ?_) fun _ => unchanged w
  rw [decide_eq_true_eq] at hoffset
  refine wp_reads_bind (fun st hst => ?_) fun _ _ => unchanged w
  have hknown : w.session.fids (uint32At msg.payload 0) = some st := elim_eq_ok.mp hst
  refine wp_demand_bind (fun _ => ?_) fun _ => unchanged w
  refine wp_demand_bind (fun hvalid => ?_) fun _ => unchanged w
  refine wp_reads_bind (fun path _ => ?_) fun _ _ => unchanged w
  refine wp_modify_bind ?_
  have hdid {w' : World}
      (h : w'.touched = w.touched ++ [⟨.create, join [st.rel, named.1], path⟩]) :
      DidOnly (CreateTouch msg w) w w' :=
    didOnly_touch h ⟨st, named.1, named.2, hknown, hname, hoffset, hvalid, rfl, rfl⟩
  refine wp_bind (created_spec sys path _ _) (fun _ w₁ hmade => ?_) fun _ w₁ hmade => ?_
  · have hdid₁ := hdid hmade.2.1
    refine wp_bind (statted_spec sys _ _ _ w₁) (fun info w₂ hseen => ?_) fun _ w₂ hseen => ?_
    · refine wp_modify_bind (wp_pure ⟨hdid₁.trans hseen.1.didOnly, st, named.1, named.2, info,
        hknown, hname, hoffset, hvalid, hmade.2.2 rfl info (hseen.2 info rfl), rfl, ?_⟩)
      show ({ w₂.session with fids := _ } : Session).shadows = _
      rw [shadows_update, hseen.1.shadows, hmade.1]
      rfl
    · refine ⟨hdid₁.trans hseen.1.didOnly, ?_⟩
      dsimp only
      rw [hseen.1.shadows, hmade.1]
  · refine ⟨hdid hmade.2.1, ?_⟩
    dsimp only
    rw [hmade.1]

/-! ## Read, write and remove -/

instance : Std.Refl Looked := ⟨Looked.refl⟩

instance : IsTrans World Looked := ⟨fun _ _ _ => Looked.trans⟩

lemma looked_childStat (rel name : Text) : Keeps Looked (childStat srv sys rel name) := by
  unfold childStat
  refine keeps_bind (keeps_gets _) fun path => ?_
  cases path with
  | error e => exact keeps_pure _
  | ok path =>
    refine keeps_bind (keeps_modify fun w => ?_) fun _ => ?_
    · exact ⟨rfl, rfl, [⟨.stat, join [rel, name], path⟩], rfl, by simp⟩
    refine keeps_bind (keeps_gets _) fun info => ?_
    cases info with
    | error e | ok info => exact keeps_pure _

lemma looked_listEntries (rel : Text) (names : List Text) :
    Keeps Looked (listEntries srv sys rel names) := by
  induction names with
  | nil => exact keeps_pure _
  | cons name rest ih =>
    unfold listEntries
    refine keeps_bind (looked_childStat srv sys rel name) fun _ => ?_
    exact keeps_bind ih fun _ => keeps_pure _

def readDeed (info : Info) : Deed := if info.isDir then .list else .read

lemma readData_spec (st : FidState) (info : Info) (offset count : ℕ) (w : World) :
    wp (readData srv sys st info offset count) (fun _ w' => w'.session = w.session ∧
      ∃ seen, w'.touched = w.touched ++ ⟨readDeed info, st.rel, st.path⟩ :: seen ∧
        ∀ touch ∈ seen, touch.deed = .stat) w := by
  unfold readData readDeed
  by_cases hdir : info.isDir = true
  · rw [if_pos hdir, if_pos hdir]
    -- The directory is listed first, and then only looked at.
    have hlist : Keeps Looked (look PathErr.message (fun h => h.readDir sys st.path) >>=
        listEntries srv sys st.rel) :=
      keeps_bind (keeps_reads _) fun names => looked_listEntries srv sys st.rel names
    have hread : wp (readDir srv sys st.rel st.path) (fun _ w' => w'.session = w.session ∧
        ∃ seen, w'.touched = w.touched ++ ⟨.list, st.rel, st.path⟩ :: seen ∧
          ∀ touch ∈ seen, touch.deed = .stat) w := by
      refine wp_modify_bind ?_
      have hlooked := hlist { w with touched := w.touched ++ [⟨.list, st.rel, st.path⟩] }
      obtain ⟨seen, hseen, hstat⟩ := hlooked.touched
      refine ⟨hlooked.session, seen, ?_, hstat⟩
      rw [hseen, append_assoc]
      rfl
    exact wp_bind hread (fun _ _ hw => wp_pure hw) fun _ _ hw => hw
  · rw [if_neg hdir, if_neg hdir]
    exact wp_modify_bind (wp_reads ⟨rfl, [], rfl, by simp⟩)

def ReadTouch (msg : Message) (w : World) (touch : Touch) : Prop :=
  ∃ st info, w.session.fids (uint32At msg.payload 0) = some st ∧
    w.host.stat sys st.path = .ok info ∧ touch.rel = st.rel ∧ touch.deed = readDeed info

/-- A request to read leaves the fids as they are. What it does depends on what is found, and it
does it. -/
lemma handleRead_spec (hlen : 16 ≤ msg.payload.length) (w : World) :
    wp (handleRead srv sys msg) (fun _ w' => w'.session.shadows = w.session.shadows ∧
      DidOnly (ReadTouch sys msg w) w w' ∧
      ∀ st info, w.session.fids (uint32At msg.payload 0) = some st →
        w.host.stat sys st.path = .ok info → ∃ touch ∈ w'.touched.drop w.touched.length,
          touch.rel = st.rel ∧ touch.deed = readDeed info) w := by
  unfold handleRead
  refine wp_demand_bind (fun _ => ?_) fun hshort => ?_
  case refine_2 =>
    rw [decide_eq_false_iff_not] at hshort
    exact absurd hlen hshort
  refine wp_reads_bind (fun st hst => ?_) fun e he => ?_
  case refine_2 =>
    refine ⟨rfl, (Looked.refl w).didOnly, fun st info hst => ?_⟩
    rw [hst] at he
    cases he
  have hknown : w.session.fids (uint32At msg.payload 0) = some st := elim_eq_ok.mp hst
  refine wp_bind (statted_result sys _ _ _ w) (fun info w₁ hseen => ?_) fun e w₁ hseen => ?_
  case refine_2 =>
    refine ⟨hseen.1.shadows, hseen.1.didOnly, fun st' info hst' hinfo => ?_⟩
    obtain rfl := Option.some.inj (hknown.symm.trans hst')
    rw [hinfo] at hseen
    cases hseen.2
  have hstat : w.host.stat sys st.path = .ok info := mapError_eq_ok.mp hseen.2.symm
  obtain ⟨looks, hlooks, hlooked⟩ := hseen.1.touched
  -- Whether the data could be read or not, the request has done what it does.
  have hpost {w' : World} (h : w'.session = w₁.session ∧
      ∃ seen, w'.touched = w₁.touched ++ ⟨readDeed info, st.rel, st.path⟩ :: seen ∧
        ∀ touch ∈ seen, touch.deed = .stat) :
      w'.session.shadows = w.session.shadows ∧ DidOnly (ReadTouch sys msg w) w w' ∧
        ∀ st info, w.session.fids (uint32At msg.payload 0) = some st →
          w.host.stat sys st.path = .ok info → ∃ touch ∈ w'.touched.drop w.touched.length,
            touch.rel = st.rel ∧ touch.deed = readDeed info := by
    obtain ⟨hsession, seen, htouched, hseen'⟩ := h
    rw [hlooks, append_assoc] at htouched
    refine ⟨by rw [hsession, hseen.1.shadows], ⟨_, htouched, ?_⟩, ?_⟩
    · intro touch htouch hdeed
      rcases mem_append.mp htouch with htouch | htouch
      · exact absurd (hlooked touch htouch) hdeed
      rcases mem_cons.mp htouch with rfl | htouch
      · exact ⟨st, info, hknown, hstat, rfl, rfl⟩
      · exact absurd (hseen' touch htouch) hdeed
    · intro st' info' hst' hinfo'
      obtain rfl := Option.some.inj (hknown.symm.trans hst')
      obtain rfl := Except.ok.inj (hstat.symm.trans hinfo')
      refine ⟨⟨readDeed info, st.rel, st.path⟩, ?_, rfl, rfl⟩
      rw [htouched, drop_left]
      simp
  exact wp_bind (readData_spec srv sys st info _ _ w₁) (fun _ _ h => wp_pure (hpost h))
    fun _ _ h => hpost h

/-- What a request does that does one thing to a fid's entry. -/
def FidTouch (deed : Deed) (msg : Message) (w : World) (touch : Touch) : Prop :=
  ∃ st, w.session.fids (uint32At msg.payload 0) = some st ∧ touch.rel = st.rel ∧ touch.deed = deed

lemma handleWrite_spec (msg : Message) (w : World) :
    wp (handleWrite srv sys msg) (fun _ w' => w'.session.shadows = w.session.shadows ∧
      DidOnly (FidTouch .write msg w) w w') w := by
  have hsame : w.session.shadows = w.session.shadows ∧ DidOnly (FidTouch .write msg w) w w :=
    ⟨rfl, (Looked.refl w).didOnly⟩
  unfold handleWrite
  refine wp_demand_bind (fun _ => ?_) fun _ => hsame
  refine wp_demand_bind (fun _ => ?_) fun _ => hsame
  refine wp_reads_bind (fun st hst => ?_) fun _ _ => hsame
  have hknown : w.session.fids (uint32At msg.payload 0) = some st := elim_eq_ok.mp hst
  refine wp_demand_bind (fun _ => ?_) fun _ => hsame
  refine wp_modify_bind ?_
  -- From here on the host is changed, and nothing else.
  have hpost {w' : World} (h : w'.session = w.session ∧
      w'.touched = w.touched ++ [⟨.write, st.rel, st.path⟩]) :
      w'.session.shadows = w.session.shadows ∧ DidOnly (FidTouch .write msg w) w w' :=
    ⟨by rw [h.1], didOnly_touch h.2 ⟨st, hknown, rfl, rfl⟩⟩
  have hchange {said : PathErr → Text} {call : Host → Except PathErr Host} {w' : World}
      (h : w'.session = w.session ∧ w'.touched = w.touched ++ [⟨.write, st.rel, st.path⟩]) :
      wp (change said call) (fun _ w'' => w''.session = w.session ∧
        w''.touched = w.touched ++ [⟨.write, st.rel, st.path⟩]) w' :=
    wp_change (fun _ _ => h) fun _ _ => h
  refine wp_bind (hchange ⟨rfl, rfl⟩) (fun _ w₁ hw₁ => ?_) fun _ w₁ hw₁ => hpost hw₁
  refine wp_bind (hchange hw₁) (fun _ w₂ hw₂ => ?_) fun _ w₂ hw₂ => hpost hw₂
  exact wp_reads_bind (fun _ _ => wp_pure (hpost hw₂)) fun _ _ => hpost hw₂

lemma handleRemove_spec (hlen : 4 ≤ msg.payload.length) (w : World) :
    wp (handleRemove srv sys msg) (fun _ w' => DidOnly (FidTouch .remove msg w) w w' ∧
      w'.session.shadows = update w.session.shadows (uint32At msg.payload 0) none) w := by
  unfold handleRemove
  refine wp_demand_bind (fun _ => ?_) fun hshort => ?_
  case refine_2 =>
    rw [decide_eq_false_iff_not] at hshort
    exact absurd hlen hshort
  refine wp_gets_bind (wp_modify_bind ?_)
  have hclunked := shadows_update w.session (uint32At msg.payload 0) none
  have hlooked : DidOnly (FidTouch .remove msg w) w { w with session :=
      { w.session with fids := update w.session.fids (uint32At msg.payload 0) none } } :=
    ⟨[], (append_nil _).symm, by simp⟩
  cases hst : w.session.fids (uint32At msg.payload 0) with
  | none => exact wp_fail ⟨hlooked, hclunked⟩
  | some st =>
    refine wp_demand_bind (fun _ => ?_) fun _ => ⟨hlooked, hclunked⟩
    refine wp_demand_bind (fun _ => ?_) fun _ => ⟨hlooked, hclunked⟩
    refine wp_modify_bind ?_
    have hdone {w' : World} (h : w'.touched = w.touched ++ [⟨.remove, st.rel, st.path⟩]) :
        DidOnly (FidTouch .remove msg w) w w' := didOnly_touch h ⟨st, hst, rfl, rfl⟩
    refine @wp_bind _ _ _ _ _ _ _ _ (fun _ w' => DidOnly (FidTouch .remove msg w) w w' ∧
      w'.session.shadows = update w.session.shadows (uint32At msg.payload 0) none)
      ?_ (fun _ _ hw => wp_pure hw) fun _ _ hw => hw
    exact wp_change (fun _ _ => ⟨hdone rfl, hclunked⟩) fun _ _ => ⟨hdone rfl, hclunked⟩

end

end WeaverSSH.P9
