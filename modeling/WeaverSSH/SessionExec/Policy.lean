import WeaverSSH.Framework.Checks
import WeaverSSH.Framework.FilePath
import WeaverSSH.Framework.JsonFields
import WeaverSSH.Framework.OrderedMap

/-!
# Policies of the exec service

`policy_engine.go` of the package `sessionexec`: the policy file, the limits of an action, the
engine that is made of a policy, and the metadata with which a stream is opened.
`time.ParseDuration` is left to `Durations`.
-/

namespace WeaverSSH.SessionExec

open FilePath Json

def protocolVersion : Text := "weaverssh.exec.v1"

def openProtocolVersion : Text := "weaverssh.exec-open.v1"

def policyVersion : Text := "weaverssh.exec-policy.v1"

def maxOpenMetadataBytes : ℕ := 4096

def maxMessageBytes : ℕ := 16 * 2 ^ 20

def maxArgs : ℕ := 64

def maxArgBytes : ℕ := 4096

def maxInputBytes : ℕ := 4 * 2 ^ 20

def maxOutputBytes : ℕ := 8 * 2 ^ 20

/-- `time.ParseDuration`. -/
class Durations where
  parse : Text → Option Duration

/-! ## Names -/

def isLetter (c : Char) : Bool := ('a' ≤ c && c ≤ 'z') || ('A' ≤ c && c ≤ 'Z')

def isFigure (c : Char) : Bool := '0' ≤ c && c ≤ '9'

def nameRune : Rune → Bool
  | .char c => c = '.' || c = '_' || c = '-' || isLetter c || isFigure c
  | .raw _ => false

def validName (v : Text) : Bool :=
  let v := trimSpace v
  v ≠ [] && len v ≤ 128 && v.all nameRune

/-- The characters of a variable's name, a figure not at its beginning. -/
def envRune : Rune × ℕ → Bool
  | (.char c, i) => c = '_' || isLetter c || (0 < i && isFigure c)
  | (.raw _, _) => false

def validEnvKey (v : Text) : Bool := v ≠ [] && len v ≤ 128 && v.zipIdx.all envRune

/-- `strings.ToUpper`, of a variable's name. -/
def toUpper (v : Text) : Text :=
  v.map fun
    | .char c => .char c.toUpper
    | .raw b => .raw b

def credentialLike (key : Text) : Bool :=
  let upper := toUpper key
  upper = "SSH_AUTH_SOCK" || upper = "GPG_AGENT_INFO" || decide ("TOKEN" <:+: upper) ||
    decide ("SECRET" <:+: upper) || decide ("PASSWORD" <:+: upper)

def validArg (arg : Text) : Bool := len arg ≤ maxArgBytes && 0 ∉ bytes arg

/-! ## Policies -/

structure ActionPolicy where
  name : Text := []
  executable : Text := []
  fixedArgs : List Text := []
  workDir : Text := []
  env : OrderedMap Text Text := OrderedMap.empty
  sources : List Text := []
  timeout : Text := []
  maxParallel : ℤ := 0
  maxArgs : ℤ := 0
  maxStdinBytes : ℤ := 0
  maxStdoutBytes : ℤ := 0
  maxStderrBytes : ℤ := 0
deriving DecidableEq

structure Policy where
  version : Text := []
  default : Text := []
  actions : List ActionPolicy := []
deriving DecidableEq

def ActionPolicy.member (a : ActionPolicy) (key : Text) (j : Json) : Option ActionPolicy :=
  if named key "name" then (readText a.name j).map fun v => { a with name := v }
  else if named key "executable" then
    (readText a.executable j).map fun v => { a with executable := v }
  else if named key "fixed_args" then
    (readList [] readText a.fixedArgs j).map fun v => { a with fixedArgs := v }
  else if named key "workdir" then (readText a.workDir j).map fun v => { a with workDir := v }
  else if named key "env" then
    (readMap OrderedMap.put OrderedMap.empty a.env j).map fun v => { a with env := v }
  else if named key "sources" then
    (readList [] readText a.sources j).map fun v => { a with sources := v }
  else if named key "timeout" then (readText a.timeout j).map fun v => { a with timeout := v }
  else if named key "max_parallel" then
    (readInt64 a.maxParallel j).map fun v => { a with maxParallel := v }
  else if named key "max_args" then (readInt64 a.maxArgs j).map fun v => { a with maxArgs := v }
  else if named key "max_stdin_bytes" then
    (readInt64 a.maxStdinBytes j).map fun v => { a with maxStdinBytes := v }
  else if named key "max_stdout_bytes" then
    (readInt64 a.maxStdoutBytes j).map fun v => { a with maxStdoutBytes := v }
  else if named key "max_stderr_bytes" then
    (readInt64 a.maxStderrBytes j).map fun v => { a with maxStderrBytes := v }
  else none

def Policy.member (p : Policy) (key : Text) (j : Json) : Option Policy :=
  if named key "version" then (readText p.version j).map fun v => { p with version := v }
  else if named key "default" then (readText p.default j).map fun v => { p with default := v }
  else if named key "actions" then
    (readList {} (decode ActionPolicy.member) p.actions j).map fun v => { p with actions := v }
  else none

/-- What is wrong with a policy, or with an action of it. -/
inductive PolicyErr where
  | undecodable (detail : Text)
  | header
  | noActions
  | action (name : Text)
  | executable (name : Text)
  | workDir (name : Text)
  | noSources (name : Text)
  | source (name source : Text)
  | fixedArgs (name : Text)
  | fixedArg (name : Text)
  | environment (name : Text)
  | credential (name key : Text)
  | limit (name field : Text)
deriving DecidableEq, Repr

/-- The limits of an action, with its defaults filled in. -/
structure ActionLimits where
  timeout : Duration
  maxParallel : ℤ
  maxArgs : ℤ
  maxStdin : ℤ
  maxStdout : ℤ
  maxStderr : ℤ

/-- A number with a default, between two bounds. -/
def boundedLimit (value default low high : ℤ) (err : PolicyErr) : Except PolicyErr ℤ :=
  let n := if value = 0 then default else value
  if n < low ∨ high < n then .error err else .ok n

section

variable [Durations]

def ActionPolicy.timeoutLimit (a : ActionPolicy) : Except PolicyErr Duration :=
  if trimSpace a.timeout = [] then .ok (30 * second)
  else match Durations.parse a.timeout with
    | none => .error (.limit a.name "timeout")
    | some parsed =>
      if parsed ≤ 0 ∨ 24 * 3600 * second < parsed then .error (.limit a.name "timeout")
      else .ok parsed

def ActionPolicy.limits (a : ActionPolicy) : Except PolicyErr ActionLimits := do
  let timeout ← a.timeoutLimit
  let maxParallel ← boundedLimit a.maxParallel 4 1 1024 (.limit a.name "max_parallel")
  let maxArgs ← boundedLimit a.maxArgs 16 0 SessionExec.maxArgs (.limit a.name "max_args")
  let maxIn ← boundedLimit a.maxStdinBytes (2 ^ 20) 0 maxInputBytes (.limit a.name "stdin limit")
  let maxOut ← boundedLimit a.maxStdoutBytes (2 ^ 20) 1 maxOutputBytes
    (.limit a.name "stdout limit")
  let maxErr ← boundedLimit a.maxStderrBytes (256 * 2 ^ 10) 1 maxOutputBytes
    (.limit a.name "stderr limit")
  return ⟨timeout, maxParallel, maxArgs, maxIn, maxOut, maxErr⟩

def checkVariable (name : Text) (entry : Text × Text) : Except PolicyErr Unit := do
  require (validEnvKey entry.1 && 0 ∉ bytes entry.2 && len entry.2 ≤ 32 * 2 ^ 10)
    (.environment name)
  require (!credentialLike entry.1) (.credential name entry.1)

/-- One turn of the loop of `ParsePolicy`, after the name. -/
def ActionPolicy.check (a : ActionPolicy) : Except PolicyErr Unit := do
  require (isAbs a.executable) (.executable a.name)
  require (a.workDir = [] || isAbs a.workDir) (.workDir a.name)
  require (a.sources ≠ []) (.noSources a.name)
  a.sources.forM fun source => require (validName source || source = "*") (.source a.name source)
  require (a.fixedArgs.length ≤ SessionExec.maxArgs) (.fixedArgs a.name)
  a.fixedArgs.forM fun arg => require (validArg arg) (.fixedArg a.name)
  a.env.entries.forM (checkVariable a.name)
  let _ ← a.limits

/-- The loop of `ParsePolicy`, with the names that it has seen. -/
def checkActions (seen : List Text) : List ActionPolicy → Except PolicyErr (List ActionPolicy)
  | [] => .ok []
  | a :: rest => do
    let a := { a with
      name := trimSpace a.name
      executable := trimSpace a.executable
      workDir := trimSpace a.workDir }
    require (validName a.name && a.name ∉ seen) (.action a.name)
    a.check
    let rest ← checkActions (a.name :: seen) rest
    return a :: rest

variable [Unicode] [Json.DecodeErrors]

def parsePolicy (data : List UInt8) : Except PolicyErr Policy := do
  let p ← (decodeStrict Policy.member {} data).mapError .undecodable
  require (p.version = policyVersion && toLower (trimSpace p.default) = "deny") .header
  require (p.actions ≠ []) .noActions
  let actions ← checkActions [] p.actions
  return { p with actions := actions }

/-! ## Engines -/

/-- An action of an engine, with the limits that its policy comes to. -/
structure ActionRuntime where
  policy : ActionPolicy
  limits : ActionLimits
  checked : policy.limits = .ok limits

structure Engine where
  topology : List Text
  chainSHA256 : Text
  currentNode : Text
  actions : OrderedMap Text ActionRuntime

structure EngineConfig where
  topology : List Text
  chainSHA256 : Text
  currentNode : Text
  policy : Policy

inductive EngineErr where
  | topology
  | policy (err : PolicyErr)

def indexOf (values : List Text) (want : Text) : Option ℕ :=
  values.findIdx? fun v => trimSpace v = want

def addAction (actions : OrderedMap Text ActionRuntime) (action : ActionPolicy) :
    Except EngineErr (OrderedMap Text ActionRuntime) :=
  match h : action.limits with
  | .error e => .error (.policy e)
  | .ok limits => .ok (actions.put action.name ⟨action, limits, h⟩)

def newEngine (config : EngineConfig) : Except EngineErr Engine := do
  let chain := toLower (trimSpace config.chainSHA256)
  let current := trimSpace config.currentNode
  require (len chain = 64 && (indexOf config.topology current).isSome) .topology
  let actions ← config.policy.actions.foldlM addAction OrderedMap.empty
  return ⟨config.topology, chain, current, actions⟩

/-! ## Metadata -/

structure OpenMetadata where
  protocol : Text := []
  targetNode : Text := []
  sourceNode : Text := []
  sourceBinding : Text := []
  chainSHA256 : Text := []
deriving DecidableEq, Repr

def OpenMetadata.member (m : OpenMetadata) (key : Text) (j : Json) : Option OpenMetadata :=
  if named key "protocol" then (readText m.protocol j).map fun v => { m with protocol := v }
  else if named key "target_node" then
    (readText m.targetNode j).map fun v => { m with targetNode := v }
  else if named key "source_node" then
    (readText m.sourceNode j).map fun v => { m with sourceNode := v }
  else if named key "source_binding" then
    (readText m.sourceBinding j).map fun v => { m with sourceBinding := v }
  else if named key "chain_sha256" then
    (readText m.chainSHA256 j).map fun v => { m with chainSHA256 := v }
  else none

inductive MetadataErr where
  | size
  | undecodable (detail : Text)
  | invalid
deriving DecidableEq, Repr

def parseOpenMetadata (raw : List UInt8) : Except MetadataErr OpenMetadata := do
  require (raw ≠ [] && raw.length ≤ maxOpenMetadataBytes) .size
  let m ← (decodeStrict OpenMetadata.member {} raw).mapError .undecodable
  let m : OpenMetadata := {
    protocol := trimSpace m.protocol
    targetNode := trimSpace m.targetNode
    sourceNode := trimSpace m.sourceNode
    sourceBinding := trimSpace m.sourceBinding
    chainSHA256 := toLower (trimSpace m.chainSHA256) }
  require (m.protocol = openProtocolVersion && validName m.targetNode) .invalid
  return m

end

end WeaverSSH.SessionExec
