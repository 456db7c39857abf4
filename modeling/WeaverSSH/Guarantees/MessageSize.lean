import WeaverSSH.Guarantees.OpenDiscipline

/-!
# The size of messages

A client that asks for a size of messages is told one, and no reply is to be longer. The server
never looks at it: a reply is as long as what was asked for makes it. So the root, wherever it can
be listed, is read in as many bytes as its listing has, up to the count of the request and a MiB.
-/

namespace WeaverSSH.P9

open HostTree WeaverSSH.Action List Kind Server

/-- The size that was told last. -/
def negotiated : List Served → Option ℕ
  | [] => none
  | s :: past =>
    if s.ok = true ∧ ofType s.msg.type = some .version then
      some (uint32At s.reply.payload 0).toNat
    else negotiated past

lemma version_told {srv : Server} {sys : Sys} {w : World} {msg : Message}
    (hkind : ofType msg.type = some .version) (hok : (srv.respond sys w msg).1.type ≠ rerror) :
    (uint32At (srv.respond sys w msg).1.payload 0).toNat ≤ (uint32At msg.payload 0).toNat ↔
      uint32At msg.payload 0 ≠ 0 := by
  rcases respond_reply srv sys w msg with ⟨e, -, hreply⟩ | ⟨kind, payload, -, hhandled, hreply⟩
  · exact absurd hreply hok
  have hrun : handleVersion msg w = (.ok payload, (handle srv sys msg w).2) := by
    have hhandle : handle srv sys msg = handleVersion msg := by
      unfold handle
      rw [hkind]
    rw [← hhandle]
    exact Prod.ext hhandled rfl
  simp only [handleVersion, Action.bind_eq_ok, demand_eq_ok, reads_eq_ok, modify_eq_ok,
    Action.pure_eq_ok] at hrun
  obtain ⟨_, _, -, _, _, -, _, _, -, hpayload, -⟩ := hrun
  rw [hreply, ← hpayload]
  rw [toNat_uint32At_littleEndian (by omega), ne_eq, ← UInt32.toNat_inj, UInt32.toNat_zero]
  split_ifs <;> omega

lemma count_readRequest (sys : Sys) (fid count : UInt32) :
    (uint64At (readRequest sys fid count.toNat).msg.payload 4).toNat = 0 ∧
      uint32At (readRequest sys fid count.toNat).msg.payload 12 = count := by
  have hafter : (readRequest sys fid count.toNat).msg.payload.drop 4 =
      littleEndian 8 0 ++ littleEndian 4 count.toNat := drop_left' (length_littleEndian 4 _)
  have hlast : (readRequest sys fid count.toNat).msg.payload.drop 12 =
      littleEndian 4 count.toNat := by
    rw [show 12 = 4 + 8 from rfl, ← drop_drop, hafter, drop_left' (length_littleEndian 8 _)]
  unfold uint64At uint32At bytesAt
  rw [hafter, hlast, take_left' (length_littleEndian 8 _),
    take_of_length_le (length_littleEndian 4 _).le,
    fromLittleEndian_littleEndian, fromLittleEndian_littleEndian,
    Nat.mod_eq_of_lt (show count.toNat < 256 ^ 4 from count.toNat_lt)]
  exact ⟨rfl, UInt32.ofNat_toNat⟩

/-- The reply to a request to read a directory is as long as its listing, as far as it is asked
for. -/
lemma length_read {srv : Server} {sys : Sys} {w : World} {fid count : UInt32} {st : FidState}
    {info : Info} {names : List Text} (hst : w.session.fids fid = some st)
    (hinfo : w.host.stat sys st.path = .ok info) (hdir : info.isDir = true)
    (hnames : w.host.readDir sys st.path = .ok names) :
    (srv.respond sys w (readRequest sys fid count.toNat).msg).1.encode.length =
      11 + min (min count.toNat 0x100000) (names.flatMap (srv.told sys w.host st.rel)).length := by
  obtain ⟨hoffset, hcount⟩ := count_readRequest sys fid count
  have hfid : uint32At (readRequest sys fid count.toNat).msg.payload 0 = fid := uint32At_fid fid _
  have hdata : srv.contents sys w.host st info
      (uint64At (readRequest sys fid count.toNat).msg.payload 4).toNat
      (min (uint32At (readRequest sys fid count.toNat).msg.payload 12).toNat 0x100000) =
        .ok ((names.flatMap (srv.told sys w.host st.rel)).take (min count.toNat 0x100000)) := by
    rw [contents, if_pos hdir, hnames, hoffset, hcount]
    rfl
  have hhandled := (handleRead_ok srv sys).mpr ⟨by simp [readRequest], st, info, _, hfid.symm ▸ hst,
    hinfo, hdata, rfl⟩
  have hrun : handle srv sys (readRequest sys fid count.toNat).msg w =
      handleRead srv sys (readRequest sys fid count.toNat).msg w := rfl
  unfold respond
  rw [hrun]
  cases hresult : handleRead srv sys (readRequest sys fid count.toNat).msg w with
  | mk result w' =>
    rw [hresult] at hhandled
    obtain rfl : result = _ := hhandled
    rw [Message.length_encode, length_append, length_littleEndian, length_take]
    omega

section Sample

def asked (msize : ℕ) : List Request :=
  [requestOf .version (littleEndian 4 msize ++ packString servedVersion)]

end Sample

end WeaverSSH.P9
