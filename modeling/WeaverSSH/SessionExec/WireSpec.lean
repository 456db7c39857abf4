import WeaverSSH.SessionExec.Wire

/-!
# What a request and a response become on the way

A request is read as it was sent, but for stray bytes of its texts (`readRequest_writeRequest`); a
response that is UTF-8 is read as it was written (`readResponse_writeResponse`). A response is
longer than its outputs by a third (`size_json`).
-/

namespace WeaverSSH.SessionExec

open List Response ExecErr Json

/-! ## Requests -/

def Request.scrub (r : Request) : Request :=
  { r with
    protocol := WeaverSSH.scrub r.protocol
    id := WeaverSSH.scrub r.id
    action := WeaverSSH.scrub r.action
    args := r.args.map WeaverSSH.scrub }

lemma Request.fits (d : ℕ) (r : Request) : Json.Fits (d + 2) r.json := by
  have hargs : Json.Fits (d + 1) (.arr (r.args.map .str)) := .arr (by simp)
  exact .obj (by simp [or_imp, forall_and, omitEmpty, blob, hargs])

lemma Request.scrub_json (r : Request) : r.json.scrub = r.scrub.json := by
  have hargs : Json.scrubItems (r.args.map .str) = r.scrub.args.map .str := by
    rw [Json.scrubItems_eq_map, map_map, Request.scrub, map_map]
    exact map_congr_left fun arg _ => by rw [Function.comp_apply, Function.comp_apply, Json.scrub]
  have hempty : r.scrub.args = [] ↔ r.args = [] := map_eq_nil_iff
  simp only [Request.json, Json.scrub, Json.scrubMembers_append, Json.scrubMembers,
    Json.scrubMembers_omitEmpty, hargs, Json.scrub_blob, Json.scrub_int, scrub_text]
  simp only [Json.omitEmpty, hempty]
  rfl

lemma Request.decode_json {r : Request} (hsized : IsInt64 r.timeoutMillis) :
    decode Request.member {} r.json = some r := by
  refine Json.Fills.append (.cons rfl <| .cons rfl <| .cons rfl (.nil rfl)) ?_
  refine Json.Fills.append (.omitted rfl (readList_map fun _ _ => rfl) rfl fun h => h) ?_
  refine Json.Fills.append (.omitted rfl (readBlob_blob _) rfl fun h => h) ?_
  exact .omitted rfl (readInt64_int 0 hsized) rfl fun h => h

/-! ## Responses -/

/-- The texts of a response are UTF-8. -/
structure Response.Legible (r : Response) : Prop where
  protocol : r.protocol = protocolVersion
  id : validUTF8 r.id = true
  sized : IsInt64 r.exitCode
  error : ∀ e, r.error = some e → validUTF8 e.code = true ∧ validUTF8 e.message = true

lemma ResponseError.fits (d : ℕ) (e : ResponseError) : Json.Fits (d + 1) e.json := .obj (by simp)

lemma Response.fits (d : ℕ) (r : Response) : Json.Fits (d + 2) r.json := by
  have herror : ∀ m ∈ errorMember r.error, Json.Fits (d + 1) m.2 := by
    cases r.error with
    | none => simp [errorMember]
    | some e => simpa [errorMember] using e.fits d
  exact .obj (by simpa [or_imp, forall_and, omitEmpty, blob] using herror)

variable {r : Response}

lemma Response.scrub_json (h : r.Legible) : r.json.scrub = r.json := by
  have herror : Json.scrubMembers (errorMember r.error) = errorMember r.error := by
    refine Json.scrubMembers_eq_self fun m hm => ?_
    cases hsome : r.error with
    | none =>
      rw [hsome] at hm
      cases hm
    | some e =>
      obtain ⟨hcode, hmessage⟩ := h.error e hsome
      rw [hsome] at hm
      rw [mem_singleton.mp hm]
      refine ⟨scrub_text _, ?_⟩
      simp only [ResponseError.json, Json.scrub, Json.scrubMembers, scrub_text,
        scrub_of_valid hcode, scrub_of_valid hmessage]
  have hprotocol : WeaverSSH.scrub r.protocol = r.protocol := h.protocol ▸ scrub_text _
  simp only [json, Json.scrub, Json.scrubMembers_append, Json.scrubMembers,
    Json.scrubMembers_omitEmpty, Json.scrub_blob, Json.scrub_int, scrub_text, hprotocol,
    scrub_of_valid h.id, herror]

lemma Response.decode_json (hsized : IsInt64 r.exitCode) :
    decode member {} r.json = some r := by
  obtain ⟨protocol, id, exitCode, stdout, stderr, stdoutTruncated, stderrTruncated, error⟩ := r
  refine Json.Fills.append (.cons rfl <| .cons rfl <|
    .field rfl (readInt64_int 0 hsized) (.nil rfl)) ?_
  refine Json.Fills.append (.omitted rfl (readBlob_blob _) rfl fun h => h) ?_
  refine Json.Fills.append (.omitted rfl (readBlob_blob _) rfl fun h => h) ?_
  refine Json.Fills.append (.flag (fun _ => rfl) rfl) ?_
  refine Json.Fills.append (.flag (fun _ => rfl) rfl) ?_
  cases error with
  | none => exact .nil rfl
  | some e => exact .cons rfl (.nil rfl)

lemma maxMessageBytes_lt : maxMessageBytes < 256 ^ 4 := by decide

section

variable [Json.DecodeErrors]

variable {frame : List UInt8}

/-- **A request is read** with the replacement character for its stray bytes. -/
lemma readRequest_writeRequest {r : Request} (hsized : IsInt64 r.timeoutMillis)
    (h : writeRequest r = .ok frame) (fresh : Text) : readRequest fresh frame =
      (validateRequest (normalizeRequest fresh r.scrub)).map fun _ =>
        normalizeRequest fresh r.scrub := by
  have hframe : readFrame maxMessageBytes frame = .ok (marshal r.json) := by
    have hread := readFrame_append maxMessageBytes_lt h []
    rwa [append_nil] at hread
  have hdecode : Json.decodeStrict Request.member {} (Json.marshal r.json) = .ok r.scrub := by
    rw [Json.decodeStrict, Json.parse_marshal (r.fits 9998), Option.bind_some, r.scrub_json,
      Request.decode_json (show IsInt64 r.scrub.timeoutMillis from hsized)]
    rfl
  rw [readRequest, hframe, Except.mapError, ok_bind, hdecode]
  rfl

lemma readResponse_writeResponse (hlegible : r.Legible) (h : writeResponse r = .ok frame) :
    readResponse frame = .ok r := by
  have hsame : { r with protocol := protocolVersion } = r := by rw [← hlegible.protocol]
  rw [writeResponse, hsame] at h
  have hframe : readFrame maxMessageBytes frame = .ok (Json.marshal r.json) := by
    have hread := readFrame_append maxMessageBytes_lt h []
    rwa [append_nil] at hread
  have hdecode : Json.decodeStrict member {} (Json.marshal r.json) = .ok r := by
    rw [Json.decodeStrict, Json.parse_marshal (r.fits 9998), Option.bind_some, scrub_json hlegible,
      decode_json hlegible.sized]
    rfl
  rw [readResponse, hframe, Except.mapError, ok_bind, hdecode, Except.mapError, ok_bind,
    require_of_true (decide_eq_true hlegible.protocol)]
  rfl

end

/-! ## How long a response is -/

/-- The bytes of an output in a response: its name and the signs around it, and its bytes in
Base64. -/
def outputSize (b : List UInt8) : ℕ := if b = [] then 0 else 12 + (b.length + 2) / 3 * 4

def Response.envelopeSize (r : Response) : ℕ := size { r with stdout := [], stderr := [] }.json

def Response.wireSize (r : Response) : ℕ :=
  r.envelopeSize + outputSize r.stdout + outputSize r.stderr

lemma sum_omitEmpty_blob {b : List UInt8} {name : String} (hname : len (quote (text name)) = 8) :
    ((omitEmpty (b = []) name (.blob b)).map fun m => 1 + memberSize m).sum = outputSize b := by
  unfold omitEmpty outputSize
  by_cases hnil : b = []
  · rw [if_pos hnil, if_pos hnil]
    rfl
  · rw [if_neg hnil, if_neg hnil, map_singleton, sum_singleton, memberSize, size_blob, hname]
    omega

lemma Response.size_json (r : Response) : size r.json = r.wireSize := by
  have hstdout := @sum_omitEmpty_blob r.stdout "stdout" (by decide +kernel)
  have hstderr := @sum_omitEmpty_blob r.stderr "stderr" (by decide +kernel)
  let first := (text "protocol", str r.protocol)
  let next := [(text "id", str r.id), (text "exit_code", int r.exitCode)]
  let last := omitEmpty (r.stdoutTruncated = false) "stdout_truncated" (.bool r.stdoutTruncated) ++
    (omitEmpty (r.stderrTruncated = false) "stderr_truncated" (.bool r.stderrTruncated) ++
      errorMember r.error)
  have hwhole : r.json =
      .obj (first :: (next ++ (omitEmpty (r.stdout = []) "stdout" (.blob r.stdout) ++
      (omitEmpty (r.stderr = []) "stderr" (.blob r.stderr) ++ last)))) := rfl
  have henvelope : r.envelopeSize = size (.obj (first :: (next ++ last))) := rfl
  rw [wireSize, henvelope, hwhole, size_obj, size_obj]
  simp only [map_append, sum_append, hstdout, hstderr]
  omega

lemma writeResponse_eq (hprotocol : r.protocol = protocolVersion) : writeResponse r =
    if r.wireSize ≤ maxMessageBytes then
      .ok (bigEndian 4 (Json.marshal r.json).length ++ Json.marshal r.json)
    else .error .invalidSize := by
  have hsame : { r with protocol := protocolVersion } = r := by rw [← hprotocol]
  have hsize : (Json.marshal r.json).length = r.wireSize := r.size_json
  have hne : Json.marshal r.json ≠ [] := by
    have hpositive : 0 < Json.size r.json := by
      rw [json, cons_append, Json.size_obj]
      omega
    exact length_pos_iff.mp hpositive
  rw [writeResponse, hsame, writeFrame, hsize]
  by_cases hle : r.wireSize ≤ maxMessageBytes
  · rw [if_pos hle, if_neg]
    rintro (hnil | hlt)
    · exact hne hnil
    · exact absurd hle (not_le.mpr hlt)
  · rw [if_neg hle, if_pos (.inr (not_le.mp hle))]

/-- **A response is read as it was written**, and not written where it is longer than a frame. -/
lemma Response.Legible.read [Json.DecodeErrors] (h : r.Legible) :
    readResponse (((writeResponse r).toOption).getD []) =
      if r.wireSize ≤ maxMessageBytes then .ok r else .error (.frame .eof) := by
  have hwritten := writeResponse_eq h.protocol
  by_cases hsize : r.wireSize ≤ maxMessageBytes
  · rw [if_pos hsize] at hwritten ⊢
    rw [hwritten]
    exact readResponse_writeResponse h hwritten
  · rw [if_neg hsize] at hwritten ⊢
    rw [hwritten]
    rfl

/-! ## Execution -/

/-- A chunk more: what is kept of it all, and whether that is less than it all. -/
lemma CappedBuffer.write_eq {max : ℤ} (hmax : 0 ≤ max) (total : List UInt8) {p : List UInt8}
    (hp : p ≠ []) : write max ⟨total.take max.toNat, decide (max < total.length)⟩ p =
      ⟨(total ++ p).take max.toNat, decide (max < (total ++ p).length)⟩ := by
  have hpos := length_pos_iff.mpr hp
  obtain ⟨n, rfl⟩ := Int.eq_ofNat_of_zero_le hmax
  unfold write
  simp only [length_take, length_append, Int.toNat_natCast]
  by_cases hfull : n ≤ total.length
  · have htruncated : decide ((n : ℤ) < (total.length + p.length : ℕ)) = true :=
      decide_eq_true (by omega)
    rw [if_pos (by omega), take_append_of_le_length hfull, htruncated]
  · have hkept : (total ++ p).take n = total ++ p.take (n - total.length) := by
      rw [take_append, take_of_length_le (by omega)]
    rw [if_neg (by omega), take_of_length_le (by omega), hkept]
    split_ifs with hlong
    · have htruncated : decide ((n : ℤ) < (total.length + p.length : ℕ)) = true :=
        decide_eq_true (by omega)
      rw [htruncated, show ((n : ℤ) - (min n total.length : ℕ)).toNat = n - total.length by omega]
    · have hbefore : decide ((n : ℤ) < total.length) = false := decide_eq_false (by omega)
      have hafter : decide ((n : ℤ) < (total.length + p.length : ℕ)) = false :=
        decide_eq_false (by omega)
      rw [hbefore, hafter, take_of_length_le (by omega : p.length ≤ n - total.length)]

/-- **A capped buffer holds the first bytes of an output**, and tells whether there were more. -/
lemma capped_eq {max : ℤ} (hmax : 0 ≤ max) {chunks : List (List UInt8)}
    (hchunks : ∀ chunk ∈ chunks, chunk ≠ []) : capped max chunks =
      ⟨chunks.flatten.take max.toNat, decide (max < chunks.flatten.length)⟩ := by
  -- the chunks so far, joined, carry the induction
  have hfold : ∀ total : List UInt8, chunks.foldl (CappedBuffer.write max)
      ⟨total.take max.toNat, decide (max < total.length)⟩ =
        ⟨(total ++ chunks.flatten).take max.toNat,
          decide (max < (total ++ chunks.flatten).length)⟩ := by
    induction chunks with
    | nil => simp
    | cons chunk rest ih =>
      intro total
      obtain ⟨hchunk, hrest⟩ := forall_mem_cons.mp hchunks
      rw [foldl_cons, CappedBuffer.write_eq hmax total hchunk, ih hrest, flatten_cons, append_assoc]
  have hempty : decide (max < (([] : List UInt8).length : ℤ)) = false :=
    decide_eq_false (not_lt.mpr hmax)
  have hstart := hfold []
  rw [take_nil, hempty] at hstart
  exact hstart

lemma boundedLimit_le {value default low high n : ℤ} {err : PolicyErr}
    (h : boundedLimit value default low high err = .ok n) : low ≤ n := by
  unfold boundedLimit at h
  dsimp only at h
  split_ifs at h <;> cases h <;> omega

lemma len_decimal_le {n : ℤ} (h : IsInt64 n) : len (decimal n) ≤ 20 := by
  have hdigits (k : ℕ) (hk : k < 10 ^ 19) : len ((Nat.toDigits 10 k).map Rune.char) ≤ 19 := by
    rw [len_of_ascii, length_map]
    · exact Nat.toDigits_length 10 k 19 (by decide) hk
    · intro r hr
      have hdigit := isDigit_of_mem_toDigits hr
      obtain ⟨c, -, rfl⟩ := mem_map.mp hr
      refine ⟨c, rfl, ?_⟩
      have hnumber : c.isDigit = true := hdigit
      exact (Char.isDigit_iff_toNat.mp hnumber).2.trans_lt (by decide)
  obtain ⟨hlo, hhi⟩ := h
  cases n with
  | ofNat k =>
    have hk : (k : ℤ) < 2 ^ 63 := hhi
    exact (hdigits k (by omega)).trans (by decide)
  | negSucc k =>
    rw [decimal, len_cons]
    have hk := hdigits (k + 1) (by omega)
    show 1 + len ((Nat.toDigits 10 (k + 1)).map Rune.char) ≤ 20
    omega

/-- Nothing is cut off the text of a status. -/
lemma mapError_exited {code : ℤ} (h : IsInt64 code) : mapError (.exited code) =
    ⟨"internal", text "sessionexec: command exited " ++ Json.decimal code⟩ := by
  have hlen : len (ExecErr.exited code).message ≤ 48 := by
    rw [message, len_append]
    have hcode := len_decimal_le h
    have htext : len "sessionexec: command exited " = 28 := by decide
    omega
  exact congrArg (ResponseError.mk "internal") (if_neg (by omega))

variable [Durations]

/-- The outputs of an action have limits that leave something of them. -/
lemma ActionRuntime.outputs_pos (a : ActionRuntime) :
    0 < a.limits.maxStdout ∧ 0 < a.limits.maxStderr := by
  have hchecked := a.checked
  simp only [ActionPolicy.limits, checks_ok] at hchecked
  obtain ⟨_, -, _, -, _, -, _, -, maxOut, hout, maxErr, herr, hlimits⟩ := hchecked
  rw [← hlimits]
  exact ⟨boundedLimit_le hout, boundedLimit_le herr⟩

end WeaverSSH.SessionExec
