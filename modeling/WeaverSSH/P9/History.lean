import WeaverSSH.P9.Spec

/-!
# The history of a session

A session of the 9P server from its beginning: the requests that were served, each with its reply,
the latest first. A fid is there exactly if the history binds it (`bound_converse`).
-/

namespace WeaverSSH.P9

open HostTree WeaverSSH.Action Kind

/-- A request, with the system's part in it and what others did on the host before. -/
structure Request where
  msg : Message
  sys : Sys
  others : Host → Host := id

/-- A request that was served, with its reply. -/
structure Served where
  msg : Message
  reply : Message
deriving DecidableEq, Repr

/-- A session, with what was served in it, the latest first. -/
structure Conversation where
  world : World
  past : List Served := []

def Conversation.found (c : Conversation) (q : Request) : World :=
  { c.world with host := q.others c.world.host }

def Server.answer (srv : Server) (c : Conversation) (q : Request) : Message :=
  (srv.respond q.sys (c.found q) q.msg).1

def Server.serve (srv : Server) (c : Conversation) (q : Request) : Conversation :=
  ⟨(srv.respond q.sys (c.found q) q.msg).2, ⟨q.msg, srv.answer c q⟩ :: c.past⟩

def Server.converse (srv : Server) (host : Host) (requests : List Request) : Conversation :=
  requests.foldl srv.serve ⟨⟨{}, host, []⟩, []⟩

lemma Server.converse_concat (srv : Server) (host : Host) (requests : List Request) (q : Request) :
    srv.converse host (requests ++ [q]) = srv.serve (srv.converse host requests) q := by
  rw [Server.converse, List.foldl_append]
  rfl

/-! ## What a reply tells -/

def Served.ok (s : Served) : Bool := s.reply.type ≠ rerror

lemma request_of_ofType {type : UInt8} {kind : Kind} (h : ofType type = some kind) :
    kind.request = type := of_decide_eq_true (List.find?_some h :)

/-- A request fails where it is answered with `rerror`, and is answered with its own type of reply
otherwise. -/
lemma respond_reply (srv : Server) (sys : Sys) (w : World) (msg : Message) :
    (∃ e, (handle srv sys msg w).1 = .error e ∧ (srv.respond sys w msg).1.type = rerror) ∨
      ∃ kind payload, ofType msg.type = some kind ∧ (handle srv sys msg w).1 = .ok payload ∧
        (srv.respond sys w msg).1 = ⟨kind.reply, msg.tag, payload⟩ := by
  unfold Server.respond
  cases hrun : handle srv sys msg w with
  | mk result w' =>
    cases result with
    | error e => exact .inl ⟨e, rfl, rfl⟩
    | ok payload =>
      cases hkind : ofType msg.type with
      | none =>
        unfold handle at hrun
        rw [hkind] at hrun
        exact absurd hrun fail_eq_ok
      | some kind =>
        refine .inr ⟨kind, payload, rfl, rfl, ?_⟩
        rw [reply, request_of_ofType hkind]

lemma Kind.reply_ne_rerror (kind : Kind) : kind.reply ≠ rerror := by
  cases kind <;> decide

lemma respond_world (srv : Server) (sys : Sys) (w : World) (msg : Message) :
    (srv.respond sys w msg).2 = (handle srv sys msg w).2 := by
  unfold Server.respond
  cases handle srv sys msg w with
  | mk result w' => cases result <;> rfl

/-! ## The fids that there are -/

/-- A fid is made to stand for something by an attach or a walk. -/
def Served.binds (s : Served) (fid : UInt32) : Bool :=
  s.ok &&
    match ofType s.msg.type with
    | some .attach => uint32At s.msg.payload 0 = fid
    | some .walk => uint32At s.msg.payload 4 = fid
    | _ => false

/-- A fid is given up by a clunk, and by a remove also where that fails. -/
def Served.unbinds (s : Served) (fid : UInt32) : Bool :=
  match ofType s.msg.type with
  | some .clunk => s.ok && uint32At s.msg.payload 0 = fid
  | some .remove => 4 ≤ s.msg.payload.length && uint32At s.msg.payload 0 = fid
  | _ => false

/-- The fid was bound, and has not been given up since. -/
def bound (fid : UInt32) : List Served → Bool
  | [] => false
  | s :: past => s.binds fid || (!s.unbinds fid && bound fid past)

lemma isSome_shadows (s : Session) (fid : UInt32) : (s.shadows fid).isSome = (s.fids fid).isSome :=
  Option.isSome_map

lemma isSome_update (f : UInt32 → Option TrackedFid) (key fid : UInt32)
    (value : Option TrackedFid) :
    (Function.update f key value fid).isSome =
      if key = fid then value.isSome else (f fid).isSome := by
  by_cases heq : key = fid
  · rw [if_pos heq, heq, Function.update_self]
  · rw [if_neg heq, Function.update_of_ne (Ne.symm heq)]

lemma demand_short {n : ℕ} {payload : List UInt8} (h : ¬ n ≤ payload.length) (e : Text)
    (g : Unit → Handler (List UInt8)) (w : World) :
    (demand (n ≤ payload.length) e >>= g) w = (.error e, w) := by
  have hfalse : decide (n ≤ payload.length) = false := decide_eq_false h
  rw [hfalse]
  rfl

section

variable (srv : Server) (sys : Sys) (w : World) (msg : Message)

lemma shadows_of_error {e : Text} (h : (handle srv sys msg w).1 = .error e)
    (hremove : ¬ (ofType msg.type = some .remove ∧ 4 ≤ msg.payload.length)) :
    (handle srv sys msg w).2.session.shadows = w.session.shadows := by
  unfold handle at h ⊢
  cases hkind : ofType msg.type with
  | none => rfl
  | some kind =>
    rw [hkind] at h
    cases kind with
    | version => exact (handleVersion_spec msg w).1
    | attach =>
      have hspec := (handleAttach_spec srv sys msg w).2
      dsimp only at h hspec ⊢
      rwa [h] at hspec
    | walk =>
      have hspec := (handleWalk_spec srv sys msg w).2
      dsimp only at h hspec ⊢
      rwa [h] at hspec
    | «open» =>
      have hspec := (handleOpen_spec srv sys msg w).2
      dsimp only at h hspec ⊢
      rwa [h] at hspec
    | create =>
      have hspec := (handleCreate_spec srv sys msg w).2
      dsimp only at h hspec ⊢
      rwa [h] at hspec
    | read =>
      by_cases hlen : 16 ≤ msg.payload.length
      · exact (handleRead_spec srv sys hlen w).1
      · dsimp only
        rw [handleRead, demand_short hlen]
    | write => exact (handleWrite_spec srv sys msg w).1
    | clunk =>
      by_cases hlen : 4 ≤ msg.payload.length
      · have hok := (handleClunk_spec hlen w).2.1
        exact absurd (hok.symm.trans h) (by simp)
      · dsimp only
        rw [handleClunk, demand_short hlen]
    | remove =>
      have hlen : ¬ 4 ≤ msg.payload.length := fun hlen => hremove ⟨hkind, hlen⟩
      dsimp only
      rw [handleRemove, demand_short hlen]
    | stat => exact (handleStat_spec sys msg w).1

lemma isSome_fids_respond (fid : UInt32) : ((srv.respond sys w msg).2.session.fids fid).isSome =
      (Served.binds ⟨msg, (srv.respond sys w msg).1⟩ fid ||
        (!Served.unbinds ⟨msg, (srv.respond sys w msg).1⟩ fid && (w.session.fids fid).isSome)) := by
  rw [respond_world, ← isSome_shadows, ← isSome_shadows]
  rcases respond_reply srv sys w msg with ⟨e, herror, hreply⟩ | ⟨kind, payload, hkind, hok, hreply⟩
  · have hfailed : Served.ok ⟨msg, (srv.respond sys w msg).1⟩ = false := by
      unfold Served.ok
      rw [hreply]
      rfl
    have hbinds : Served.binds ⟨msg, (srv.respond sys w msg).1⟩ fid = false := by
      rw [Served.binds, hfailed, Bool.false_and]
    rw [hbinds, Bool.false_or]
    by_cases hremove : ofType msg.type = some .remove ∧ 4 ≤ msg.payload.length
    · have hspec := (handleRemove_spec srv sys hremove.2 w).2
      have hhandle : handle srv sys msg = handleRemove srv sys msg := by
        unfold handle
        rw [hremove.1]
      rw [hhandle, hspec, isSome_update, Served.unbinds]
      dsimp only
      rw [hremove.1, decide_eq_true hremove.2]
      by_cases heq : uint32At msg.payload 0 = fid <;> simp [heq]
    · have hunbinds : Served.unbinds ⟨msg, (srv.respond sys w msg).1⟩ fid = false := by
        unfold Served.unbinds
        rw [hfailed]
        dsimp only
        split
        · rfl
        · next hkind => simpa using fun hlen => absurd ⟨hkind, hlen⟩ hremove
        · rfl
      rw [shadows_of_error srv sys w msg herror hremove, hunbinds]
      rfl
  · have hsucceeded : Served.ok ⟨msg, (srv.respond sys w msg).1⟩ = true := by
      unfold Served.ok
      rw [hreply]
      exact decide_eq_true kind.reply_ne_rerror
    unfold Served.binds Served.unbinds
    rw [hsucceeded]
    dsimp only
    rw [hkind]
    unfold handle at hok ⊢
    rw [hkind] at hok ⊢
    cases kind with
    | version =>
      dsimp only
      rw [(handleVersion_spec msg w).1]
      rfl
    | attach =>
      have hspec := (handleAttach_spec srv sys msg w).2
      dsimp only at hok hspec ⊢
      rw [hok] at hspec
      rw [hspec, isSome_update]
      by_cases heq : uint32At msg.payload 0 = fid <;> simp [heq]
    | walk =>
      have hspec := (handleWalk_spec srv sys msg w).2
      dsimp only at hok hspec ⊢
      rw [hok] at hspec
      cases hspec with
      | clone st _ _ hshadows _ | moved st _ names _ _ rel path qids info _ _ _ _ hshadows =>
        rw [hshadows, isSome_update]
        by_cases heq : uint32At msg.payload 4 = fid <;> simp [heq]
    | «open» =>
      have hspec := (handleOpen_spec srv sys msg w).2
      dsimp only at hok hspec ⊢
      rw [hok] at hspec
      obtain ⟨st, info, hst, -, hshadows⟩ := hspec
      rw [hshadows, isSome_update]
      by_cases heq : uint32At msg.payload 0 = fid
      · rw [if_pos heq, isSome_shadows, ← heq, hst]
        rfl
      · rw [if_neg heq]
        rfl
    | create =>
      have hspec := (handleCreate_spec srv sys msg w).2
      dsimp only at hok hspec ⊢
      rw [hok] at hspec
      obtain ⟨st, name, offset, info, hst, -, -, -, -, -, hshadows⟩ := hspec
      rw [hshadows, isSome_update]
      by_cases heq : uint32At msg.payload 0 = fid
      · rw [if_pos heq, isSome_shadows, ← heq, hst]
        rfl
      · rw [if_neg heq]
        rfl
    | read =>
      by_cases hlen : 16 ≤ msg.payload.length
      · dsimp only
        rw [(handleRead_spec srv sys hlen w).1]
        rfl
      · dsimp only at hok ⊢
        rw [handleRead, demand_short hlen]
        rfl
    | write =>
      dsimp only
      rw [(handleWrite_spec srv sys msg w).1]
      rfl
    | clunk =>
      by_cases hlen : 4 ≤ msg.payload.length
      · dsimp only
        rw [(handleClunk_spec hlen w).2.2, isSome_update]
        by_cases heq : uint32At msg.payload 0 = fid <;> simp [heq]
      · dsimp only at hok
        rw [handleClunk, demand_short hlen] at hok
        cases hok
    | remove =>
      by_cases hlen : 4 ≤ msg.payload.length
      · dsimp only
        rw [(handleRemove_spec srv sys hlen w).2, isSome_update, decide_eq_true hlen]
        by_cases heq : uint32At msg.payload 0 = fid <;> simp [heq]
      · dsimp only at hok
        rw [handleRemove, demand_short hlen] at hok
        cases hok
    | stat =>
      dsimp only
      rw [(handleStat_spec sys msg w).1]
      rfl

end

lemma bound_converse (srv : Server) (host : Host) (requests : List Request) (fid : UInt32) :
    ((srv.converse host requests).world.session.fids fid).isSome =
      bound fid (srv.converse host requests).past := by
  induction requests using List.reverseRecOn with
  | nil => rfl
  | append_singleton requests q ih =>
    rw [Server.converse_concat]
    show ((srv.respond q.sys _ q.msg).2.session.fids fid).isSome = (_ || (_ && bound fid _))
    rw [isSome_fids_respond, ← ih]
    rfl

/-! ## A session on a small host -/

def plainHost : Host :=
  ⟨(OrderedMap.empty.put [text "r"] (.dir openMode)).put [text "r", text "a"] (.file [7] 0x1a4)⟩

/-- A system that lets everything happen. -/
def plainSys : Sys := ⟨fun _ _ => none, fun _ => 0, fun _ => 4096, fun _ _ _ => [], 0⟩

/-- A request of a kind, to a system that lets everything happen. -/
def requestOf (kind : Kind) (payload : List UInt8) : Request :=
  ⟨⟨kind.request, 1, payload⟩, plainSys, id⟩

/-- To attach a fid, and to walk from it to the file with a second one. -/
def walkToFile : List Request :=
  [requestOf .attach (littleEndian 4 0 ++ littleEndian 4 0 ++ packString [] ++ packString []),
    requestOf .walk (littleEndian 4 0 ++ littleEndian 4 1 ++ littleEndian 2 1 ++ packString "a")]

end WeaverSSH.P9
