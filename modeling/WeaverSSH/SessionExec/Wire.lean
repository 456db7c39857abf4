import WeaverSSH.Framework.Frames
import WeaverSSH.SessionExec.Policy

/-!
# Requests, execution and responses of the exec service

`wire.go` of the package `sessionexec`, and `Execute` of `policy_engine.go`. A client writes a
request in a frame; the server reads it, runs the action's command and writes a response.

A `System` tells what becomes of a command: the chunks it writes to its two outputs, how it ended,
and the state of its context. `NewRequestID` is an argument `fresh`.
-/

namespace WeaverSSH.SessionExec

open Json

/-! ## Messages -/

structure Request where
  protocol : Text := []
  id : Text := []
  action : Text := []
  args : List Text := []
  stdin : List UInt8 := []
  timeoutMillis : ℤ := 0
deriving DecidableEq, Repr

structure ResponseError where
  code : Text := []
  message : Text := []
deriving DecidableEq, Repr

structure Response where
  protocol : Text := []
  id : Text := []
  exitCode : ℤ := 0
  stdout : List UInt8 := []
  stderr : List UInt8 := []
  stdoutTruncated : Bool := false
  stderrTruncated : Bool := false
  error : Option ResponseError := none
deriving DecidableEq, Repr

def Request.json (r : Request) : Json :=
  .obj ([(text "protocol", .str r.protocol), (text "id", .str r.id),
    (text "action", .str r.action)] ++ (omitEmpty (r.args = []) "args" (.arr (r.args.map .str)) ++
    (omitEmpty (r.stdin = []) "stdin" (.blob r.stdin) ++
    omitEmpty (r.timeoutMillis = 0) "timeout_millis" (.int r.timeoutMillis))))

def Request.member (r : Request) (key : Text) (j : Json) : Option Request :=
  if named key "protocol" then (readText r.protocol j).map fun v => { r with protocol := v }
  else if named key "id" then (readText r.id j).map fun v => { r with id := v }
  else if named key "action" then (readText r.action j).map fun v => { r with action := v }
  else if named key "args" then
    (readList [] readText r.args j).map fun v => { r with args := v }
  else if named key "stdin" then (readBlob j).map fun v => { r with stdin := v }
  else if named key "timeout_millis" then
    (readInt64 r.timeoutMillis j).map fun v => { r with timeoutMillis := v }
  else none

def ResponseError.json (e : ResponseError) : Json :=
  .obj [("code", .str e.code), ("message", .str e.message)]

def ResponseError.member (e : ResponseError) (key : Text) (j : Json) : Option ResponseError :=
  if named key "code" then (readText e.code j).map fun v => { e with code := v }
  else if named key "message" then (readText e.message j).map fun v => { e with message := v }
  else none

/-- A pointer is set to nil by `null`, and what it points to is read over otherwise. -/
def readError (old : Option ResponseError) : Json → Option (Option ResponseError)
  | .null => some none
  | j => (decode ResponseError.member (old.getD {}) j).map some

def errorMember : Option ResponseError → List (Text × Json)
  | none => []
  | some e => [("error", e.json)]

def Response.json (r : Response) : Json :=
  .obj ([(text "protocol", .str r.protocol), (text "id", .str r.id),
    (text "exit_code", .int r.exitCode)] ++ (omitEmpty (r.stdout = []) "stdout" (.blob r.stdout) ++
    (omitEmpty (r.stderr = []) "stderr" (.blob r.stderr) ++
    (omitEmpty (r.stdoutTruncated = false) "stdout_truncated" (.bool r.stdoutTruncated) ++
    (omitEmpty (r.stderrTruncated = false) "stderr_truncated" (.bool r.stderrTruncated) ++
    errorMember r.error)))))

def Response.member (r : Response) (key : Text) (j : Json) : Option Response :=
  if named key "protocol" then (readText r.protocol j).map fun v => { r with protocol := v }
  else if named key "id" then (readText r.id j).map fun v => { r with id := v }
  else if named key "exit_code" then
    (readInt64 r.exitCode j).map fun v => { r with exitCode := v }
  else if named key "stdout" then (readBlob j).map fun v => { r with stdout := v }
  else if named key "stderr" then (readBlob j).map fun v => { r with stderr := v }
  else if named key "stdout_truncated" then
    (readBool r.stdoutTruncated j).map fun v => { r with stdoutTruncated := v }
  else if named key "stderr_truncated" then
    (readBool r.stderrTruncated j).map fun v => { r with stderrTruncated := v }
  else if named key "error" then (readError r.error j).map fun v => { r with error := v }
  else none

/-! ## Errors -/

inductive ContextErr where
  | deadlineExceeded
  | canceled
deriving DecidableEq, Repr

inductive ExecErr where
  | invalidRequest
  | denied
  | actionNotFound
  | limitExceeded
  | context (err : ContextErr)
  | exited (code : ℤ)
  /-- A frame or a text that is no request. -/
  | unreadable (detail : Text)
deriving DecidableEq, Repr

def ExecErr.message : ExecErr → Text
  | .invalidRequest => "sessionexec: invalid request"
  | .denied => "sessionexec: denied"
  | .actionNotFound => "sessionexec: action not found"
  | .limitExceeded => "sessionexec: limit exceeded"
  | .context .deadlineExceeded => "context deadline exceeded"
  | .context .canceled => "context canceled"
  | .exited code => text "sessionexec: command exited " ++ decimal code
  | .unreadable detail => detail

def ExecErr.code : ExecErr → Text
  | .invalidRequest => "invalid_request"
  | .denied => "denied"
  | .actionNotFound => "action_not_found"
  | .limitExceeded => "limit_exceeded"
  | .context .deadlineExceeded => "deadline_exceeded"
  | .context .canceled => "canceled"
  | .exited _ => "internal"
  | .unreadable _ => "internal"

/-- `mapError`, with the message cut after its first 4096 bytes. -/
def mapError (err : ExecErr) : ResponseError :=
  let msg := err.message
  ⟨err.code, if 4096 < len msg then ofBytes ((bytes msg).take 4096) else msg⟩

def errorResponse (id : Text) (err : ExecErr) : Response where
  protocol := protocolVersion
  id := id
  exitCode := -1
  error := some (mapError err)

def frameMessage : FrameErr → Text
  | .eof => "EOF"
  | .unexpectedEOF => "unexpected EOF"
  | .invalidSize => "sessionexec: invalid message size"

/-! ## Reading and writing -/

def normalizeRequest (fresh : Text) (r : Request) : Request :=
  { r with
    protocol := protocolVersion
    id := if trimSpace r.id = [] then fresh else trimSpace r.id
    action := trimSpace r.action }

def validateRequest (r : Request) : Except ExecErr Unit :=
  require (r.protocol = protocolVersion && r.id ≠ [] && len r.id ≤ 128 && validName r.action &&
    r.args.length ≤ maxArgs && r.stdin.length ≤ maxInputBytes &&
      0 ≤ r.timeoutMillis) .invalidRequest

def writeRequest (r : Request) : Except FrameErr (List UInt8) :=
  writeFrame maxMessageBytes (marshal r.json)

def writeResponse (r : Response) : Except FrameErr (List UInt8) :=
  writeFrame maxMessageBytes (marshal { r with protocol := protocolVersion }.json)

inductive CallErr where
  | invalid (err : ExecErr)
  | frame (err : FrameErr)
  | undecodable (detail : Text)
  | wrongProtocol
  | idMismatch
deriving DecidableEq, Repr

section

variable [Json.DecodeErrors]

def readRequest (fresh : Text) (stream : List UInt8) : Except ExecErr Request := do
  let payload ← (readFrame maxMessageBytes stream).mapError fun e => .unreadable (frameMessage e)
  let req ← (decodeStrict Request.member {} payload).mapError .unreadable
  let req := normalizeRequest fresh req
  validateRequest req
  return req

def readResponse (stream : List UInt8) : Except CallErr Response := do
  let payload ← (readFrame maxMessageBytes stream).mapError .frame
  let resp ← (decodeStrict Response.member {} payload).mapError .undecodable
  require (resp.protocol = protocolVersion) .wrongProtocol
  return resp

/-! ## Execution -/

/-- What is run for a request. -/
structure Command where
  executable : Text
  args : List Text
  dir : Text
  env : List Text
  stdin : List UInt8
  timeout : Duration
deriving DecidableEq, Repr

/-- The error of `cmd.Run`: the command's own status, or that it could not be run. -/
inductive Failure where
  | exited (code : ℤ) (sized : IsInt64 code)
  | other

/-- A command that was run, with what was copied from its outputs. -/
structure CommandRun where
  stdout : List (List UInt8)
  stderr : List (List UInt8)
  failure : Option Failure
  context : Option ContextErr
  /-- `io.Copy` writes what it has read, if that is anything. -/
  copied : ∀ chunk ∈ stdout ++ stderr, chunk ≠ []

abbrev System := Command → Except ContextErr CommandRun

structure CappedBuffer where
  buf : List UInt8 := []
  truncated : Bool := false

def CappedBuffer.write (max : ℤ) (c : CappedBuffer) (p : List UInt8) : CappedBuffer :=
  let remaining := max - c.buf.length
  if remaining ≤ 0 then { c with truncated := true }
  else if remaining < p.length then ⟨c.buf ++ p.take remaining.toNat, true⟩
  else { c with buf := c.buf ++ p }

def capped (max : ℤ) (chunks : List (List UInt8)) : CappedBuffer := chunks.foldl (.write max) {}

def CommandRun.exitCode (run : CommandRun) : ℤ :=
  match run.failure with
  | none => 0
  | some (.exited code _) => code
  | some .other => -1

/-- The result of a command: the last part of `Execute`. -/
def CommandRun.result (run : CommandRun) (limits : ActionLimits) (id : Text) :
    Response × Option ExecErr :=
  let stdout := capped limits.maxStdout run.stdout
  let stderr := capped limits.maxStderr run.stderr
  let response : Response := {
    protocol := protocolVersion
    id := id
    exitCode := run.exitCode
    stdout := stdout.buf
    stderr := stderr.buf
    stdoutTruncated := stdout.truncated
    stderrTruncated := stderr.truncated }
  match run.context with
  | some err => (response, some (.context err))
  | none =>
    if stdout.truncated || stderr.truncated then (response, some .limitExceeded)
    else if run.failure.isSome then (response, some (.exited run.exitCode))
    else (response, none)

def explicitEnv (values : OrderedMap Text Text) : List Text :=
  values.entries.map fun entry => entry.1 ++ text "=" ++ entry.2

def sourceAllowed (values : List Text) (want : Text) : Bool :=
  values.any fun v => v = "*" || trimSpace v = want

variable [Durations]

/-- The shorter of the action's timeout and the one asked for; the product may wrap. -/
def ActionRuntime.timeout (a : ActionRuntime) (req : Request) : Duration :=
  if 0 < req.timeoutMillis then
    let requested := int64 (req.timeoutMillis * 1000000)
    if requested < a.limits.timeout then requested else a.limits.timeout
  else a.limits.timeout

def ActionRuntime.command (a : ActionRuntime) (req : Request) : Command where
  executable := a.policy.executable
  args := a.policy.fixedArgs ++ req.args
  dir := a.policy.workDir
  env := explicitEnv a.policy.env
  stdin := req.stdin
  timeout := a.timeout req

/-- The checks of `Execute`. -/
def Engine.admit (e : Engine) (metadata : OpenMetadata) (req : Request) :
    Except ExecErr ActionRuntime := do
  require (metadata.targetNode = e.currentNode && metadata.chainSHA256 = e.chainSHA256 &&
    (indexOf e.topology metadata.sourceNode).isSome) .denied
  validateRequest req
  let a ← (e.actions.get req.action).elim (.error .actionNotFound) .ok
  require (sourceAllowed a.policy.sources metadata.sourceNode) .denied
  require (req.args.length ≤ a.limits.maxArgs && req.stdin.length ≤ a.limits.maxStdin)
    .limitExceeded
  req.args.forM fun arg => require (validArg arg) .invalidRequest
  return a

/-- `Execute`: a response, and the error that comes with it. -/
def Engine.execute (e : Engine) (sys : System) (fresh : Text) (metadata : OpenMetadata)
    (req : Request) :
    Response × Option ExecErr :=
  let req := normalizeRequest fresh req
  match e.admit metadata req with
  | .error err => ({}, some err)
  | .ok a =>
    match sys (a.command req) with
    | .error err => ({}, some (.context err))
    | .ok run => run.result a.limits req.id

variable [Unicode]

/-- `Serve`: what is written to a stream on which some bytes come in. -/
def Engine.serve (e : Engine) (sys : System) (fresh : Text) (raw stream : List UInt8) :
    List UInt8 :=
  match parseOpenMetadata raw with
  | .error _ => []
  | .ok m =>
    match readRequest fresh stream with
    | .error err => ((writeResponse (errorResponse [] err)).toOption).getD []
    | .ok req =>
      let (resp, err) := e.execute sys fresh m req
      let resp := match err with
        | none => resp
        | some err =>
          { resp with error := some (mapError err), protocol := protocolVersion, id := req.id }
      ((writeResponse resp).toOption).getD []

/-- `CallStream`; a response with an error in it is returned together with an error. -/
def callStream (peer : List UInt8 → List UInt8) (fresh : Text) (req : Request) :
    Except CallErr Response := do
  let req := normalizeRequest fresh req
  (validateRequest req).mapError .invalid
  let frame ← (writeRequest req).mapError .frame
  let resp ← readResponse (peer frame)
  require (resp.id = req.id) .idMismatch
  return resp

end

end WeaverSSH.SessionExec
