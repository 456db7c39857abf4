import WeaverSSH.SessionExec.WireSpec

/-!
# Exec outcomes on their way to the caller

Whatever becomes of a request, the caller is to learn it, in a response with the request's
identifier: `Engine.report` says what, from the refusals of a policy and from what a command did.
But the limits of the two outputs add up to a response longer than a frame, which is not written at
all; a request that is refused when it is read is answered without its identifier; and stray bytes
of an identifier come back as replacement characters.
-/

namespace WeaverSSH.SessionExec

open Engine Except List

/-! ## Requests -/

/-- A request as `CallStream` sends it. -/
structure Request.Normal (r : Request) : Prop where
  protocol : r.protocol = protocolVersion
  id : trimSpace r.id = r.id
  named : r.id ≠ []
  action : trimSpace r.action = r.action
  sized : IsInt64 r.timeoutMillis

/-- What a server asks of a request. -/
@[mk_iff]
structure Request.Acceptable (r : Request) : Prop where
  id : len r.id ≤ 128
  action : validName r.action = true
  args : r.args.length ≤ maxArgs
  stdin : r.stdin.length ≤ maxInputBytes
  timeout : 0 ≤ r.timeoutMillis

variable {r : Request}

lemma Request.Normal.scrub (h : r.Normal) : r.scrub.Normal where
  protocol := by
    show WeaverSSH.scrub r.protocol = protocolVersion
    rw [h.protocol]
    exact scrub_text _
  id := by
    show trimSpace (WeaverSSH.scrub r.id) = WeaverSSH.scrub r.id
    rw [trimSpace_scrub, h.id]
  named hnil := h.named (scrub_eq_nil.mp hnil)
  action := by
    show trimSpace (WeaverSSH.scrub r.action) = WeaverSSH.scrub r.action
    rw [trimSpace_scrub, h.action]
  sized := h.sized

lemma Request.Normal.normalize (h : r.Normal) (fresh : Text) : normalizeRequest fresh r = r := by
  rw [normalizeRequest, h.id, if_neg h.named, h.action, ← h.protocol]

lemma Request.Normal.validate (h : r.Normal) : validateRequest r = .ok () ↔ r.Acceptable := by
  simp only [validateRequest, checks_ok]
  constructor
  · rintro ⟨⟨⟨⟨⟨⟨-, -⟩, hid⟩, haction⟩, hargs⟩, hstdin⟩, htimeout⟩
    exact ⟨hid, haction, hargs, hstdin, htimeout⟩
  · rintro ⟨hid, haction, hargs, hstdin, htimeout⟩
    exact ⟨⟨⟨⟨⟨⟨h.protocol, h.named⟩, hid⟩, haction⟩, hargs⟩, hstdin⟩, htimeout⟩

lemma validName_scrub (v : Text) : validName (WeaverSSH.scrub v) = validName v := by
  cases hvalid : validUTF8 v with
  | true => rw [scrub_of_valid hvalid]
  | false =>
    have hstray : ∃ b, Rune.raw b ∈ trimSpace v := by
      obtain ⟨r, hr, hraw⟩ := all_eq_false.mp hvalid
      cases r with
      | char c => exact absurd rfl hraw
      | raw b => exact ⟨b, (isSpace_or_mem_trimSpace hr).resolve_left nofun⟩
    obtain ⟨b, hb⟩ := hstray
    have hnot : (trimSpace v).all nameRune = false := all_eq_false.mpr ⟨_, hb, nofun⟩
    have hscrubbed : (trimSpace (WeaverSSH.scrub v)).all nameRune = false := by
      rw [trimSpace_scrub]
      exact all_eq_false.mpr ⟨_, mem_map_of_mem hb, show ¬ nameRune (.char '�') = true by decide⟩
    rw [validName, validName, hnot, hscrubbed, Bool.and_false, Bool.and_false]

lemma Request.acceptable_scrub (hid : validUTF8 r.id = true) :
    r.scrub.Acceptable ↔ r.Acceptable := by
  have hsame : r.scrub.id = r.id := scrub_of_valid hid
  have haction : validName r.scrub.action = validName r.action := validName_scrub r.action
  have hargs : r.scrub.args.length = r.args.length := length_map _
  rw [acceptable_iff, acceptable_iff, hsame, haction, hargs]
  rfl

/-! ## What a caller is to learn -/

/-- The error of a command: that its time was over, or else that there was more of an output than is
kept, or else the status that it ended with. -/
def CommandRun.complaint (run : CommandRun) (limits : ActionLimits) : Option ResponseError :=
  match run.context, run.failure with
  | some .deadlineExceeded, _ => some ⟨"deadline_exceeded", "context deadline exceeded"⟩
  | some .canceled, _ => some ⟨"canceled", "context canceled"⟩
  | none, failure =>
    if limits.maxStdout < run.stdout.flatten.length ∨
      limits.maxStderr < run.stderr.flatten.length then
      some ⟨"limit_exceeded", "sessionexec: limit exceeded"⟩
    else match failure with
      | none => none
      | some (.exited code _) =>
        some ⟨"internal", text "sessionexec: command exited " ++ Json.decimal code⟩
      | some .other => some ⟨"internal", "sessionexec: command exited -1"⟩

/-- What a caller is to learn of a command: its status, which is -1 where it could not be run, and
the first bytes of its outputs, as many as are kept, with a flag where there were more. -/
def CommandRun.report (run : CommandRun) (limits : ActionLimits) (id : Text) : Response where
  protocol := protocolVersion
  id := id
  exitCode := match run.failure with
    | none => 0
    | some (.exited code _) => code
    | some .other => -1
  stdout := run.stdout.flatten.take limits.maxStdout.toNat
  stderr := run.stderr.flatten.take limits.maxStderr.toNat
  stdoutTruncated := limits.maxStdout < run.stdout.flatten.length
  stderrTruncated := limits.maxStderr < run.stderr.flatten.length
  error := run.complaint limits

/-- A response to a request that nothing was run for. -/
def refusal (id : Text) (code message : String) : Response where
  protocol := protocolVersion
  id := id
  error := some ⟨code, message⟩

lemma validUTF8_text (s : String) : validUTF8 (text s) = true := scrub_eq_self_iff.mp (scrub_text s)

lemma legible_refusal {id : Text} (hid : validUTF8 id = true) (code message : String) :
    (refusal id code message).Legible :=
  ⟨rfl, hid, show IsInt64 0 by decide,
    fun _ he => Option.some.inj he ▸ ⟨validUTF8_text code, validUTF8_text message⟩⟩

lemma CommandRun.legible_report (run : CommandRun) (limits : ActionLimits) {id : Text}
    (hid : validUTF8 id = true) : (run.report limits id).Legible := by
  obtain ⟨stdout, stderr, failure, context, copied⟩ := run
  refine ⟨rfl, hid, ?_, ?_⟩
  · rcases failure with _ | ⟨code, sized⟩ | _
    · exact show IsInt64 0 by decide
    · exact sized
    · exact show IsInt64 (-1) by decide
  · intro e he
    have hdecimal (code : ℤ) : validUTF8 (Json.decimal code) = true :=
      (@Json.Fits.int 0 code).valid_print
    change CommandRun.complaint _ limits = some e at he
    unfold CommandRun.complaint at he
    rcases context with _ | ⟨⟩ | ⟨⟩
    · dsimp only at he
      split_ifs at he
      · cases he
        decide
      · rcases failure with _ | ⟨code, sized⟩ | _ <;> cases he
        · exact ⟨validUTF8_text _, validUTF8_append.mpr ⟨validUTF8_text _, hdecimal code⟩⟩
        · decide
    · cases he
      decide
    · cases he
      decide

lemma isSome_indexOf {values : List Text} {want : Text} :
    (indexOf values want).isSome = true ↔ want ∈ values.map trimSpace := by
  rw [indexOf, findIdx?_isSome, any_eq_true, mem_map]
  simp only [decide_eq_true_eq]

lemma sourceAllowed_iff {values : List Text} {want : Text} : sourceAllowed values want = true ↔
    ¬ ∀ v ∈ values, v ≠ "*" ∧ trimSpace v ≠ want := by
  simp only [sourceAllowed, any_eq_true, Bool.or_eq_true, decide_eq_true_eq, not_forall, not_and_or,
    not_not, exists_prop]

lemma forM_validArg (args : List Text) :
    (args.forM fun arg => require (validArg arg) ExecErr.invalidRequest) =
      if ∃ arg ∈ args, maxArgBytes < len arg ∨ 0 ∈ bytes arg then .error .invalidRequest
      else .ok () := by
  by_cases hstray : ∃ arg ∈ args, maxArgBytes < len arg ∨ 0 ∈ bytes arg
  · rw [if_pos hstray]
    have herrors := errorsIn_forM (fun arg =>
      errorsIn_require (P := (· = ExecErr.invalidRequest)) rfl (validArg arg)) args
    cases hrun : args.forM fun arg => require (validArg arg) ExecErr.invalidRequest with
    | error err => rw [herrors err hrun]
    | ok _ =>
      obtain ⟨arg, harg, hbad⟩ := hstray
      have hvalid := forM_eq_ok.mp hrun arg harg
      simp only [validArg, checks_ok] at hvalid
      exact (hbad.elim (not_lt.mpr hvalid.1) hvalid.2).elim
  · rw [if_neg hstray]
    refine forM_eq_ok.mpr fun arg harg => require_of_true ?_ _
    simp only [not_exists, not_and, not_or, not_lt] at hstray
    simp only [validArg, checks_ok]
    exact hstray arg harg

lemma callStream_of_read [Json.DecodeErrors] {peer : List UInt8 → List UInt8} {frame : List UInt8}
    {resp : Response} (fresh : Text)
    (hnormal : r.Normal) (hacceptable : r.Acceptable) (hsent : writeRequest r = .ok frame)
    (hread : readResponse (peer frame) = .ok resp) (hid : resp.id = r.id) :
    callStream peer fresh r = .ok resp := by
  unfold callStream
  rw [hnormal.normalize]
  dsimp only
  rw [hnormal.validate.mpr hacceptable, hsent, Except.mapError, ok_bind, Except.mapError,
    ok_bind, hread, ok_bind, require_of_true (decide_eq_true hid)]
  rfl

section

variable [Durations]

/-- What a caller is to learn of a request that is acceptable: why it is refused, or what became of
the command. -/
def Engine.report (e : Engine) (sys : System) (m : OpenMetadata) (req : Request) : Response :=
  if m.targetNode ≠ e.currentNode ∨ m.chainSHA256 ≠ e.chainSHA256 ∨
      m.sourceNode ∉ e.topology.map trimSpace then refusal req.id "denied" "sessionexec: denied"
  else match e.actions.get req.action with
    | none => refusal req.id "action_not_found" "sessionexec: action not found"
    | some a =>
      if ∀ source ∈ a.policy.sources, source ≠ "*" ∧ trimSpace source ≠ m.sourceNode then
        refusal req.id "denied" "sessionexec: denied"
      else if a.limits.maxArgs < req.args.length ∨ a.limits.maxStdin < req.stdin.length then
        refusal req.id "limit_exceeded" "sessionexec: limit exceeded"
      else if ∃ arg ∈ req.args, maxArgBytes < len arg ∨ 0 ∈ bytes arg then
        refusal req.id "invalid_request" "sessionexec: invalid request"
      else match sys (a.command req) with
        | .error .deadlineExceeded =>
          refusal req.id "deadline_exceeded" "context deadline exceeded"
        | .error .canceled => refusal req.id "canceled" "context canceled"
        | .ok run => run.report a.limits req.id

/-- What `Serve` writes for a result of `Execute`. -/
def answered (id : Text) (result : Response × Option ExecErr) : Response :=
  match result.2 with
  | none => result.1
  | some err =>
    { result.1 with error := some (mapError err), protocol := protocolVersion, id := id }

lemma CommandRun.answered_result (run : CommandRun) (a : ActionRuntime) (id : Text) :
    answered id (run.result a.limits id) = run.report a.limits id := by
  obtain ⟨hstdout, hstderr⟩ := a.outputs_pos
  have hcopied := forall_mem_append.mp run.copied
  have hout := capped_eq hstdout.le hcopied.1
  have herr := capped_eq hstderr.le hcopied.2
  obtain ⟨stdout, stderr, failure, context, copied⟩ := run
  unfold CommandRun.result CommandRun.report CommandRun.complaint
  dsimp only at hout herr ⊢
  rw [hout, herr]
  cases context with
  | some err =>
    cases err with
    | deadlineExceeded | canceled => rcases failure with _ | ⟨code, sized⟩ | _ <;> rfl
  | none =>
    dsimp only
    by_cases hlong : a.limits.maxStdout < stdout.flatten.length ∨
        a.limits.maxStderr < stderr.flatten.length
    · rw [if_pos hlong, if_pos (by simpa using hlong)]
      rcases failure with _ | ⟨code, sized⟩ | _ <;> rfl
    · rw [if_neg hlong, if_neg (by simpa using hlong)]
      rcases failure with _ | ⟨code, sized⟩ | _
      · rfl
      · exact congrArg (fun error => { (CommandRun.mk stdout stderr (some (.exited code sized)) none
          copied).report a.limits id with error := some error }) (mapError_exited sized)
      · rfl

lemma Engine.id_report (e : Engine) (sys : System) (m : OpenMetadata) (req : Request) :
    (e.report sys m req).id = req.id := by
  unfold Engine.report
  split
  · rfl
  · split
    · rfl
    · split_ifs <;> first | rfl | split <;> rfl

lemma Engine.answered_execute (e : Engine) (sys : System) (fresh : Text) (m : OpenMetadata)
    (hnormal : r.Normal) (hacceptable : r.Acceptable) :
    answered r.id (e.execute sys fresh m r) = e.report sys m r := by
  have hvalid := hnormal.validate.mpr hacceptable
  unfold Engine.execute Engine.report
  rw [hnormal.normalize]
  dsimp only
  unfold Engine.admit
  rw [hvalid, forM_validArg]
  by_cases hstranger : m.targetNode ≠ e.currentNode ∨ m.chainSHA256 ≠ e.chainSHA256 ∨
      m.sourceNode ∉ e.topology.map trimSpace
  · rw [if_pos hstranger, require_of_false]
    · rfl
    · rw [Bool.eq_false_iff]
      intro hknown
      simp only [checks_ok, isSome_indexOf] at hknown
      exact hstranger.elim (· hknown.1.1) (·.elim (· hknown.1.2) (· hknown.2))
  rw [if_neg hstranger, require_of_true]
  case h =>
    simp only [not_or, not_not] at hstranger
    simp only [checks_ok, isSome_indexOf]
    exact ⟨⟨hstranger.1, hstranger.2.1⟩, hstranger.2.2⟩
  rw [ok_bind, ok_bind]
  cases hget : e.actions.get r.action with
  | none => rfl
  | some a =>
    rw [Option.elim_some, ok_bind]
    dsimp only
    by_cases hsource : ∀ source ∈ a.policy.sources, source ≠ "*" ∧ trimSpace source ≠ m.sourceNode
    · rw [if_pos hsource, require_of_false]
      · rfl
      · exact Bool.eq_false_iff.mpr fun hallowed => sourceAllowed_iff.mp hallowed hsource
    rw [if_neg hsource, require_of_true (sourceAllowed_iff.mpr hsource), ok_bind]
    by_cases hlimit : a.limits.maxArgs < r.args.length ∨ a.limits.maxStdin < r.stdin.length
    · rw [if_pos hlimit, require_of_false]
      · rfl
      · simp only [Bool.and_eq_false_iff, decide_eq_false_iff_not, not_le]
        exact hlimit
    rw [if_neg hlimit, require_of_true]
    case h =>
      simp only [not_or, not_lt] at hlimit
      simp only [checks_ok]
      exact hlimit
    rw [ok_bind]
    split_ifs with hargs
    · rfl
    · rw [ok_bind]
      dsimp only [pure, Except.pure]
      cases hrun : sys (a.command r) with
      | error err =>
        cases err with
        | deadlineExceeded | canceled => rfl
      | ok run => exact run.answered_result a r.id

lemma Engine.legible_report (e : Engine) (sys : System) (m : OpenMetadata)
    (hid : validUTF8 r.id = true) : (e.report sys m r).Legible := by
  unfold Engine.report
  split
  · exact legible_refusal hid _ _
  split
  · exact legible_refusal hid _ _
  split_ifs
  any_goals exact legible_refusal hid _ _
  split
  any_goals exact legible_refusal hid _ _
  exact CommandRun.legible_report _ _ hid

variable [Json.DecodeErrors] [Unicode]

/-! ## Outcomes and the caller -/

variable {raw frame : List UInt8} {m : OpenMetadata} {req : Request}

lemma Engine.serve_accepted (e : Engine) (sys : System) (fresh : Text)
    (hm : parseOpenMetadata raw = .ok m) (hnormal : req.Normal)
    (hsent : writeRequest req = .ok frame)
    (hacceptable : req.scrub.Acceptable) : e.serve sys fresh raw frame =
      ((writeResponse (e.report sys m req.scrub)).toOption).getD [] := by
  have hread := readRequest_writeRequest hnormal.sized hsent fresh
  rw [hnormal.scrub.normalize, hnormal.scrub.validate.mpr hacceptable] at hread
  rw [← e.answered_execute sys fresh m hnormal.scrub hacceptable, serve, hm, hread]
  rfl

omit [Durations] [Json.DecodeErrors] [Unicode] in
lemma errorResponse_legible : (errorResponse [] .invalidRequest).Legible :=
  ⟨rfl, rfl, show IsInt64 (-1) by decide, fun _ he => Option.some.inj he ▸ by decide⟩

lemma Engine.serve_refused (e : Engine) (sys : System) (fresh : Text)
    (hm : parseOpenMetadata raw = .ok m) (hnormal : req.Normal)
    (hsent : writeRequest req = .ok frame)
    (hrefused : ¬ req.scrub.Acceptable) : e.serve sys fresh raw frame =
      ((writeResponse (errorResponse [] .invalidRequest)).toOption).getD [] := by
  have hread := readRequest_writeRequest hnormal.sized hsent fresh
  rw [hnormal.scrub.normalize] at hread
  have hvalid : validateRequest req.scrub = .error .invalidRequest := by
    cases hvalid : validateRequest req.scrub with
    | error err => rw [(require_eq_error.mp hvalid).2]
    | ok _ => exact absurd (hnormal.scrub.validate.mp hvalid) hrefused
  rw [serve, hm, hread, hvalid]
  rfl

/-- The response to a request is read, has its identifier, and says what became of the request; it
is the one that `CallStream` returns where it sends the request. -/
def Engine.Reaches (e : Engine) (sys : System) (fresh : Text) (raw : List UInt8) (req : Request)
    (frame : List UInt8) : Prop :=
  ∃ resp, readResponse (e.serve sys fresh raw frame) = .ok resp ∧ resp.id = req.id ∧
    (∀ m, parseOpenMetadata raw = .ok m → resp = e.report sys m req.scrub) ∧
    (req.Acceptable → callStream (e.serve sys fresh raw) fresh req = .ok resp)

/-- **An outcome reaches the caller** exactly where the metadata is accepted, the request's
identifier is UTF-8, the request is one that the server accepts, and its outputs, which Base64 makes
a third longer, fit into a frame together with the rest of the response. -/
theorem outcomes_reach_caller (e : Engine) (sys : System) (fresh : Text) (raw : List UInt8)
    {req : Request}
    (hnormal : req.Normal) {frame : List UInt8} (hsent : writeRequest req = .ok frame) :
    e.Reaches sys fresh raw req frame ↔
      ∃ m, parseOpenMetadata raw = .ok m ∧ validUTF8 req.id = true ∧ req.Acceptable ∧
        let resp := e.report sys m req.scrub
        resp.envelopeSize + outputSize resp.stdout + outputSize resp.stderr ≤ maxMessageBytes := by
  cases hm : parseOpenMetadata raw with
  | error err =>
    -- nothing is written
    have hserve : e.serve sys fresh raw frame = [] := by rw [serve, hm]
    constructor
    · rintro ⟨resp, hread, -⟩
      rw [hserve] at hread
      cases hread
    · rintro ⟨m, hm', -⟩
      cases hm'
  | ok m =>
    have hutf8_iff : req.scrub.id = req.id ↔ validUTF8 req.id = true := scrub_eq_self_iff
    by_cases hscrubbed : req.scrub.Acceptable
    · have hlegible : (e.report sys m req.scrub).Legible :=
        e.legible_report sys m (validUTF8_scrub req.id)
      have hid : (e.report sys m req.scrub).id = req.scrub.id := e.id_report sys m req.scrub
      have hread := hlegible.read
      rw [← e.serve_accepted sys fresh hm hnormal hsent hscrubbed] at hread
      constructor
      · rintro ⟨resp, hresp, hsame, -⟩
        rw [hread] at hresp
        by_cases hsize : (e.report sys m req.scrub).wireSize ≤ maxMessageBytes
        · rw [if_pos hsize] at hresp
          rw [← ok.inj hresp, hid] at hsame
          have hutf8 := hutf8_iff.mp hsame
          exact ⟨m, rfl, hutf8, (Request.acceptable_scrub hutf8).mp hscrubbed, hsize⟩
        · rw [if_neg hsize] at hresp
          cases hresp
      · rintro ⟨m', hm', hutf8, -, hsize⟩
        obtain rfl : m = m' := ok.inj hm'
        have hsame : (e.report sys m req.scrub).id = req.id := hid.trans (hutf8_iff.mpr hutf8)
        rw [if_pos (show (e.report sys m req.scrub).wireSize ≤ maxMessageBytes from hsize)] at hread
        refine ⟨_, hread, hsame, fun m' hm'' => ?_, fun hacceptable =>
          callStream_of_read fresh hnormal hacceptable hsent hread hsame⟩
        rw [ok.inj (hm.symm.trans hm'')]
    · -- the answer is without an identifier
      have hread := errorResponse_legible.read
      rw [← e.serve_refused sys fresh hm hnormal hsent hscrubbed] at hread
      constructor
      · rintro ⟨resp, hresp, hid, -⟩
        rw [hread] at hresp
        split_ifs at hresp
        rw [← ok.inj hresp] at hid
        exact absurd hid.symm hnormal.named
      · rintro ⟨_, -, hutf8, hacceptable, -⟩
        exact absurd ((Request.acceptable_scrub hutf8).mpr hacceptable) hscrubbed

end

/-! ## A policy that asks too much -/

@[reducible]
def noDurations : Durations := ⟨fun _ => none⟩

/-- A decoder that does not say what is wrong. -/
@[reducible]
def noDetail : Json.DecodeErrors := ⟨fun _ => []⟩

attribute [local instance] asciiCase noDurations noDetail

/-- A policy with an action that may write eight MiB to each output, as far as the limits go. -/
def generousPolicy : List UInt8 := bytes
  (text "\x7b\"version\":\"weaverssh.exec-policy.v1\",\"default\":\"deny\",\"actions\":[\x7b" ++
    text "\"name\":\"a\",\"executable\":\"/a\",\"sources\":[\"*\"]," ++
    text "\"max_stdout_bytes\":8388608,\"max_stderr_bytes\":8388608\x7d]\x7d")

def zeroChain : Text := replicate 64 (.char '0')

def openMetadata : List UInt8 := bytes
  (text "\x7b\"protocol\":\"weaverssh.exec-open.v1\",\"target_node\":\"n\"," ++
    text "\"source_node\":\"n\",\"chain_sha256\":\"" ++ zeroChain ++ text "\"\x7d")

def generousAction : ActionPolicy where
  name := "a"
  executable := "/a"
  sources := ["*"]
  maxStdoutBytes := 8388608
  maxStderrBytes := 8388608

lemma parsePolicy_generous :
    parsePolicy generousPolicy = .ok ⟨policyVersion, "deny", [generousAction]⟩ := by decide +kernel

def generousRuntime : ActionRuntime where
  policy := generousAction
  limits := ⟨30 * second, 4, 16, 2 ^ 20, 8388608, 8388608⟩
  checked := rfl

def generousEngine : Engine where
  topology := ["n"]
  chainSHA256 := zeroChain
  currentNode := "n"
  actions := OrderedMap.empty.put "a" generousRuntime

lemma newEngine_generous :
    newEngine ⟨["n"], zeroChain, "n", ⟨policyVersion, "deny", [generousAction]⟩⟩ =
      .ok generousEngine := rfl

def streamMetadata : OpenMetadata := ⟨openProtocolVersion, "n", "n", [], zeroChain⟩

lemma parseOpenMetadata_stream : parseOpenMetadata openMetadata = .ok streamMetadata := by
  decide +kernel

def askRequest : Request where
  protocol := protocolVersion
  id := "1"
  action := "a"

/-- A command that writes some bytes to each output, and ends well. -/
def verboseRun (out : List UInt8) (hout : out ≠ []) : CommandRun :=
  ⟨[out], [out], none, none, by simpa using hout⟩

def verboseSystem (out : List UInt8) (hout : out ≠ []) : System :=
  fun _ => .ok (verboseRun out hout)

lemma execute_verbose {out : List UInt8} (hne : out ≠ []) (hout : out.length ≤ 8 * 2 ^ 20) :
    generousEngine.execute (verboseSystem out hne) [] streamMetadata askRequest =
      (⟨protocolVersion, "1", 0, out, out, false, false, none⟩, none) := by
  have hcapped : capped 8388608 [out] = ⟨out, false⟩ := by
    rw [capped_eq (by decide) (by simpa using hne), flatten_singleton,
      take_of_length_le (show out.length ≤ (8388608 : ℤ).toNat from hout),
      decide_eq_false (by omega)]
  have hresult : generousEngine.execute (verboseSystem out hne) [] streamMetadata askRequest =
      (verboseRun out hne).result generousRuntime.limits "1" := rfl
  have hlimits : generousRuntime.limits.maxStdout = 8388608 ∧
      generousRuntime.limits.maxStderr = 8388608 :=
    ⟨rfl, rfl⟩
  rw [hresult, CommandRun.result, verboseRun, hlimits.1, hlimits.2]
  dsimp only
  rw [hcapped]
  rfl

/-- A system on which every command ends well without a word. -/
def quietSystem : System := fun _ => .ok ⟨[], [], none, none, by simp⟩

theorem outcomes_reach_caller_quiet :
    generousEngine.Reaches quietSystem [] openMetadata askRequest
      ((writeRequest askRequest).toOption.getD []) := by
  have hnormal : askRequest.Normal := ⟨rfl, by decide, by decide, by decide, by decide⟩
  refine (outcomes_reach_caller generousEngine quietSystem [] openMetadata hnormal ?_).mpr
    ⟨streamMetadata, parseOpenMetadata_stream, by decide,
      ⟨by decide, by decide, by decide, by decide, by decide⟩, ?_⟩
  · decide +kernel
  · decide +kernel

/-- **Two outcomes that are lost**: a command that ends well and wrote no more than its policy
permits, whose response is never written, and a request that is refused without its identifier. -/
theorem outcomes_lost :
    ∃ policy e frame refused out hout, parsePolicy generousPolicy = .ok policy ∧
      newEngine ⟨["n"], zeroChain, "n", policy⟩ = .ok e ∧
      writeRequest askRequest = .ok frame ∧
      (e.execute (verboseSystem out hout) [] streamMetadata askRequest).2 = none ∧
      readResponse (e.serve (verboseSystem out hout) [] openMetadata frame) = .error (.frame .eof) ∧
      writeRequest { askRequest with action := "a b" } = .ok refused ∧
      readResponse (e.serve (verboseSystem out hout) [] openMetadata refused) =
        .ok (errorResponse [] .invalidRequest) := by
  obtain ⟨out, hlength⟩ : ∃ out : List UInt8, out.length = 8 * 2 ^ 20 :=
    ⟨replicate (8 * 2 ^ 20) 0, length_replicate⟩
  have hne : out ≠ [] := by
    rintro rfl
    cases hlength
  have hexecute := execute_verbose hne hlength.le
  have hnormal : askRequest.Normal := ⟨rfl, by decide, by decide, by decide, by decide⟩
  have hsent : writeRequest askRequest = .ok ((writeRequest askRequest).toOption.getD []) := by
    decide +kernel
  have hnormal' : { askRequest with action := "a b" }.Normal :=
    ⟨rfl, by decide, by decide, by decide, by decide⟩
  have hsent' : writeRequest { askRequest with action := "a b" } =
      .ok ((writeRequest { askRequest with action := "a b" }).toOption.getD []) := by decide +kernel
  refine ⟨_, _, _, _, out, hne, parsePolicy_generous, newEngine_generous,
    hsent, by rw [hexecute], ?_, hsent', ?_⟩
  · -- the outputs alone are too long
    have hacceptable : askRequest.Acceptable :=
      ⟨by decide, by decide, by decide, by decide, by decide⟩
    have hscrub : askRequest.scrub = askRequest := by decide
    have hserve := generousEngine.serve_accepted (verboseSystem out hne) [] parseOpenMetadata_stream
      hnormal hsent (hscrub ▸ hacceptable)
    have hlegible := generousEngine.legible_report (verboseSystem out hne) streamMetadata
      (show validUTF8 askRequest.id = true by decide)
    have hreport := generousEngine.answered_execute (verboseSystem out hne) []
        streamMetadata hnormal
      hacceptable
    rw [hscrub] at hserve
    rw [hserve, hlegible.read, if_neg]
    rw [← hreport, hexecute]
    have hlong : maxMessageBytes < 12 + (8 * 2 ^ 20 + 2) / 3 * 4 +
        (12 + (8 * 2 ^ 20 + 2) / 3 * 4) := by
      decide
    have hsize : outputSize out = 12 + (8 * 2 ^ 20 + 2) / 3 * 4 := by
      rw [outputSize, if_neg hne, hlength]
    show ¬ _ + outputSize out + outputSize out ≤ maxMessageBytes
    rw [hsize]
    omega
  · have hserve := generousEngine.serve_refused (verboseSystem out hne) [] parseOpenMetadata_stream
      hnormal' hsent' fun h => absurd h.action (by decide)
    rw [hserve, errorResponse_legible.read, if_pos (by decide +kernel)]

end WeaverSSH.SessionExec
