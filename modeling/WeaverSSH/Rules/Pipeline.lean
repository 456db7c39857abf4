import WeaverSSH.Rules.Engine

/-!
# Rule sets one after another

A pipeline goes through stages, each with patterns for files of rules. The rule sets decide one
after another, each on the input as the one before left it (`inputAfterDecision`), until one of them
stops it. Before the first the facts are given the id of the node (`inputWithNodeFacts`).

The files are given (`Policy`). `seen` is not part of the program: what each rule set was given and
decided, the last one first.
-/

namespace WeaverSSH.Rules

open AuthProof

structure StageConfig where
  name : Text
  required : Bool := false
  terminalDeny : Option Bool := none
  terminalAllow : Option Bool := none
  paths : List Text
deriving DecidableEq, Repr

structure PipelineConfig where
  version : Text
  nodeID : Text
  stages : List StageConfig
deriving DecidableEq, Repr

structure StageDecision where
  stage : Text
  path : Text := []
  required : Bool
  skipped : Bool := false
  decision : Option Decision := none
  reason : Text := []
deriving DecidableEq

structure PipelineDecision where
  version : Text
  allowed : Bool := false
  action : Option Action := none
  reason : Text := []
  topic : Text
  fields : Facts
  stages : List StageDecision := []
  final : Option Decision := none
deriving DecidableEq

/-- Why a file of rules is not used. -/
inductive FileErr where
  | refused
  | unreadable
  | rules (err : RuleErr)
deriving DecidableEq, Repr

inductive PipelineErr where
  | version (version : Text)
  | nodeRequired
  | nodeUnsafe (nodeID : Text)
  | nodeCharacter (nodeID : Text)
  | stageName (index : ℕ)
  | stagePaths (stage : Text)
  | stageRequired (stage : Text)
  | stagePattern (stage : Text)
  | file (stage path : Text) (err : FileErr)
deriving DecidableEq, Repr

/-- The files of rules. -/
structure Policy where
  resolve : List Text → Text → Option (List Text)
  resolve_nil : ∀ nodeID, resolve [] nodeID = some []
  refused : Text → Bool
  decode : Text → Option RuleSet

/-- What a rule set was given, and what it decided. -/
structure Seen where
  input : Input
  decision : Option Decision
deriving DecidableEq

/-- The state of an evaluation. -/
structure Run where
  input : Input
  decision : PipelineDecision
  seen : List Seen := []
deriving DecidableEq

/-- How an evaluation goes on. -/
inductive Flow where
  | go
  | stop
  | fail (err : PipelineErr)
deriving DecidableEq, Repr

def pipelineVersion : Text := "weaverssh.rules.pipeline.v1"

def nodeFields : List Text := ["node.id", "remote.node_id", "api.node_id"]

def defaultPipelineConfig : PipelineConfig :=
  { version := pipelineVersion, nodeID := []
    stages :=
      [{ name := "system", terminalDeny := some true
         paths := ["/etc/weaverssh/rules.d/*.json", "/etc/weaverssh/rules.json"] },
       { name := "user", terminalDeny := some true
         paths := ["~/.config/weaverssh/rules.d/*.json"] }] }

def isNodeRune : Rune → Bool
  | .char c =>
    'a' ≤ c && c ≤ 'z' || 'A' ≤ c && c ≤ 'Z' || '0' ≤ c && c ≤ '9' || c = '-' || c = '_' ||
    c = '.'
  | .raw _ => false

def cleanNodeID (nodeID : Text) : Except PipelineErr Text := do
  let nodeID := trimSpace nodeID
  require (nodeID ≠ []) .nodeRequired
  require (!(nodeID = "." || nodeID = ".." || nodeID.contains (.char '/') ||
    nodeID.contains (.char '\\'))) (.nodeUnsafe nodeID)
  require (nodeID.all isNodeRune) (.nodeCharacter nodeID)
  return nodeID

def normalizeStages : ℕ → List StageConfig → Except PipelineErr (List StageConfig)
  | _, [] => .ok []
  | i, stage :: rest => do
    let name := trimSpace stage.name
    require (name ≠ []) (.stageName i)
    let paths := cleanList stage.paths
    require (!(paths = [] && stage.required)) (.stagePaths name)
    let rest ← normalizeStages (i + 1) rest
    return { stage with name, paths } :: rest

/-- `PipelineConfig.Normalize`: a pipeline without stages is the default one, which has no node. -/
def PipelineConfig.normalize (cfg : PipelineConfig) : Except PipelineErr PipelineConfig := do
  let version := orElse (trimSpace cfg.version) pipelineVersion
  require (version = pipelineVersion) (.version version)
  let nodeID ← if trimSpace cfg.nodeID ≠ [] then cleanNodeID cfg.nodeID else .ok cfg.nodeID
  let cfg := if cfg.stages = [] then defaultPipelineConfig else { cfg with version, nodeID }
  let stages ← normalizeStages 0 cfg.stages
  return { cfg with stages }

def inputWithNodeFacts (σ : FactOrders) (input : Input) (nodeID : Text) : Input :=
  let nodeID := trimSpace nodeID
  if nodeID = [] then input
  else newInput σ input.topic
    (nodeFields.foldl (fun facts field => facts.put field nodeID) input.facts)

def inputAfterDecision (σ : FactOrders) (input : Input) (d : Decision) : Input :=
  let topic := if trimSpace d.topic = [] then input.topic else d.topic
  let facts := update (σ.sub 1) (update (σ.sub 0) input.facts d.fields) d.setFields
  let facts := if topic ≠ [] then facts.put "topic" topic else facts
  newInput (σ.sub 2) topic facts

def stageStops (stage : StageConfig) (d : Decision) : Bool :=
  match d.action with
  | .deny | .drop => stage.terminalDeny.getD true
  | .allow => stage.terminalAllow.getD false
  | _ => false

section

variable [Unicode] (lib : Library) (env : Policy)

def loadFile (σ : FactOrders) (path : Text) : Except FileErr RuleSet := do
  require (!env.refused path) .refused
  let rs ← (env.decode path).elim (.error .unreadable) .ok
  (rs.normalize σ).mapError .rules

def runFile (σ : FactOrders) (stage : StageConfig) (path : Text) (r : Run) : Run × Flow :=
  match loadFile env (σ.sub 0) path with
  | .error e => (r, .fail (.file stage.name path e))
  | .ok rs =>
    match rs.evaluate lib (σ.sub 1) r.input with
    | .error e =>
      ({ r with seen := ⟨r.input, none⟩ :: r.seen }, .fail (.file stage.name path (.rules e)))
    | .ok d =>
      let input := inputAfterDecision (σ.sub 2) r.input d
      let decision := { r.decision with
        stages := r.decision.stages ++
          [{ stage := stage.name, path, required := stage.required, decision := some d }]
        final := some d, allowed := d.allowed, action := some d.action, reason := d.reason
        topic := input.topic, fields := input.facts }
      (⟨input, decision, ⟨r.input, some d⟩ :: r.seen⟩, if stageStops stage d then .stop else .go)

def runFiles : FactOrders → StageConfig → List Text → Run → Run × Flow
  | _, _, [], r => (r, .go)
  | σ, stage, path :: rest, r =>
    match runFile lib env (σ.sub 0) stage path r with
    | (r', .go) => runFiles (σ.sub 1) stage rest r'
    | out => out

def runStage (nodeID : Text) (σ : FactOrders) (stage : StageConfig) (r : Run) : Run × Flow :=
  match env.resolve stage.paths nodeID with
  | none => (r, .fail (.stagePattern stage.name))
  | some [] =>
    if stage.required then (r, .fail (.stageRequired stage.name))
    else
      ({ r with decision.stages := r.decision.stages ++
          [{ stage := stage.name, required := stage.required, skipped := true
             reason := "no rule files found" }] }, .go)
  | some paths => runFiles lib env σ stage paths r

def runStages (nodeID : Text) : FactOrders → List StageConfig → Run → Run × Flow
  | _, [], r => (r, .go)
  | σ, stage :: rest, r =>
    match runStage lib env nodeID (σ.sub 0) stage r with
    | (r', .go) => runStages nodeID (σ.sub 1) rest r'
    | out => out

/-- What an evaluation returns, with what the rule sets were given. -/
structure Outcome where
  decision : Option PipelineDecision
  err : Option PipelineErr := none
  seen : List Seen := []
deriving DecidableEq

/-- An evaluation before its first stage. -/
def startRun (input : Input) : Run :=
  ⟨input, { version := pipelineVersion, topic := input.topic, fields := input.facts }, []⟩

/-- The evaluation of the stages from an input on. -/
def runPipeline (cfg : PipelineConfig) (σ : FactOrders) (input : Input) : Outcome :=
  match runStages lib env cfg.nodeID σ cfg.stages (startRun input) with
  | (r, .fail e) => ⟨some r.decision, some e, r.seen⟩
  | (r, .stop) => ⟨some r.decision, none, r.seen⟩
  | (r, .go) =>
    if r.seen = [] then
      let final : Decision :=
        { version := engineVersion, action := .deny, allowed := false
          reason := "no pipeline rules evaluated", topic := r.input.topic
          fields := r.input.facts }
      ⟨some { r.decision with
        final := some final, allowed := false, action := some .deny, reason := final.reason
        topic := r.input.topic, fields := r.input.facts }, none, r.seen⟩
    else ⟨some r.decision, none, r.seen⟩

def PipelineConfig.evaluate (cfg : PipelineConfig) (σ : FactOrders) (input : Input) : Outcome :=
  match cfg.normalize with
  | .error e => ⟨none, some e, []⟩
  | .ok cfg =>
    let input := inputWithNodeFacts (σ.sub 0) input cfg.nodeID
    runPipeline lib env cfg (σ.sub 2) (input.normalized (σ.sub 1))

def PipelineConfig.evaluateNode (cfg : PipelineConfig) (σ : FactOrders) (nodeID : Text)
    (input : Input) : Outcome :=
  match cleanNodeID nodeID with
  | .error e => ⟨none, some e, []⟩
  | .ok nodeID =>
    PipelineConfig.evaluate lib env { cfg with nodeID } (σ.sub 1)
      (inputWithNodeFacts (σ.sub 0) input nodeID)

end

end WeaverSSH.Rules
