import WeaverSSH.Rules.Pipeline

/-!
# The facts that name a node

The rule sets of a pipeline are to see the id of the node in three facts, whatever the input says of
it, unless a rule that matched before has set them; and the decision is not to depend on the order
in which maps are gone through. `Kept` is both.

But names are trimmed after the facts of the node were put in, and a fact whose name comes to be the
same may take their place; and a pipeline without stages is replaced by one without a node.
-/

namespace WeaverSSH.Rules

open AuthProof OrderedMap PipelineConfig List Option

def withNode (id : Text) (facts : Facts) : Facts :=
  nodeFields.foldl (fun facts field => facts.put field id) facts

def Seen.Sets (s : Seen) (field : Text) : Prop :=
  ∃ d, s.decision = some d ∧ d.matched = true ∧ (d.setFields.get field).isSome

/-- What the conditions of a rule set read under a name. -/
def Seen.Shows (s : Seen) (field value : Text) : Prop :=
  ∀ σ : FactOrders, σ.Fair → (s.input.normalized σ).value field = some value

/-- Every rule set was shown the id of the node, or a rule that matched earlier set the field. -/
def Justified (id : Text) : List Seen → Prop
  | [] => True
  | s :: earlier =>
    (∀ field ∈ nodeFields, s.Shows field id ∨ ∃ s' ∈ earlier, s'.Sets field) ∧ Justified id earlier

/-- The rules of all files agree on the fields they set. -/
def Policy.Settled (env : Policy) : Prop := ∀ path rs, env.decode path = some rs → rs.Settled

/-- What a pipeline is to keep of the node. -/
structure Kept (id : Text) (run : Policy → FactOrders → Outcome) : Prop where
  shown : ∀ env σ, σ.Fair → Justified id (run env σ).seen
  same : ∀ env, env.Settled → ∀ σ σ', σ.Fair → σ'.Fair → run env σ = run env σ'

/-- The facts that get a name agree, unless it is that of the topic and there is one. -/
def Undisputed (topic : Text) (facts : Facts) (key : Text) : Prop :=
  (key = "topic" → trimSpace topic = []) → Agreed cleanKey facts.entries key

/-! ## The facts of the node -/

lemma get_withNode (id : Text) (facts : Facts) (key : Text) :
    (withNode id facts).get key = if key ∈ nodeFields then some id else facts.get key := by
  simp only [withNode, nodeFields, foldl_cons, foldl_nil, get_put, mem_cons, not_mem_nil, or_false]
  by_cases hapi : key = "api.node_id"
  · simp [hapi]
  · by_cases hremote : key = "remote.node_id"
    · simp [hremote]
    · by_cases hnode : key = "node.id"
      · simp [hnode]
      · simp [hapi, hremote, hnode]

lemma cleanKey_nodeField {field : Text} (h : field ∈ nodeFields) :
    cleanKey field = some field ∧ field ≠ "topic" := by
  have hall : ∀ field ∈ nodeFields, cleanKey field = some field ∧ field ≠ "topic" := by decide
  exact hall field h

lemma topic_of_nodeField {field : Text} (h : field ∈ nodeFields) {p : Prop} :
    field = "topic" → p := fun heq => absurd heq (cleanKey_nodeField h).2

lemma value_nodeField {field : Text} (h : field ∈ nodeFields) (i : Input) :
    i.value field = i.facts.get field := by
  obtain ⟨hkey, htopic⟩ := cleanKey_nodeField h
  unfold cleanKey at hkey
  split_ifs at hkey with hblank
  rw [some.injEq] at hkey
  unfold Input.value
  dsimp only
  rw [if_neg hblank, hkey, if_neg htopic]

lemma Keyed.withNode {facts : Facts} (h : Keyed facts) (id : Text) : Keyed (withNode id facts) := by
  intro entry hentry
  have hget := get_eq_some.mpr hentry
  rw [get_withNode] at hget
  split_ifs at hget with hfield
  · exact (cleanKey_nodeField hfield).1
  · exact h _ (get_eq_some.mp hget)

/-! ## From one rule set to the next -/

variable {d : Decision} {i : Input}

lemma Decision.Of.keyed_fields (h : d.Of i) (hi : i.Normal) : Keyed d.fields := by
  intro entry hentry
  have hget := get_eq_some.mpr hentry
  rw [h.fields, or_eq_some_iff] at hget
  rcases hget with hget | ⟨-, hget⟩
  · exact h.keyed _ (get_eq_some.mp hget)
  · exact hi.facts _ (get_eq_some.mp hget)

lemma keyed_afterDecision {σ : FactOrders} (hσ : σ.Fair) (hi : i.Normal)
    (h : d.Of i) (topic : Text) :
    Keyed (if topic ≠ [] then (update (σ.sub 1) (update (σ.sub 0) i.facts d.fields)
      d.setFields).put "topic" topic
        else update (σ.sub 1) (update (σ.sub 0) i.facts d.fields) d.setFields) := by
  have hfacts : Keyed (update (σ.sub 1) (update (σ.sub 0) i.facts d.fields) d.setFields) :=
    (hi.facts.update (hσ.sub 0) (h.keyed_fields hi)).update (hσ.sub 1) h.keyed
  split_ifs
  · exact hfacts.put (by decide) topic
  · exact hfacts

variable {key : Text}

lemma get_inputAfterDecision {σ : FactOrders} (hσ : σ.Fair) (hi : i.Normal)
    (h : d.Of i) (hkey : key ≠ "topic") :
    (inputAfterDecision σ i d).facts.get key = (d.setFields.get key).or (i.facts.get key) := by
  have hupdated : (update (σ.sub 1) (update (σ.sub 0) i.facts d.fields) d.setFields).get key =
      (d.setFields.get key).or (i.facts.get key) := by
    rw [get_update (hσ.sub 1), get_update (hσ.sub 0), h.fields]
    cases d.setFields.get key <;> cases i.facts.get key <;> rfl
  unfold inputAfterDecision
  dsimp only
  generalize (if trimSpace d.topic = [] then i.topic else d.topic) = topic
  rw [get_newInput fun heq => absurd heq hkey,
    cleanMap_of_keyed (hσ.sub 2) (keyed_afterDecision hσ hi h _), ← hupdated]
  split_ifs
  · rw [get_put, if_neg hkey]
  · rfl

lemma inputAfterDecision_congr {σ σ' : FactOrders} (hσ : σ.Fair) (hσ' : σ'.Fair)
    (hi : i.Normal) (h : d.Of i) : inputAfterDecision σ i d = inputAfterDecision σ' i d := by
  unfold inputAfterDecision
  dsimp only
  refine newInput_congr fun key _ => ?_
  rw [cleanMap_of_keyed (hσ.sub 2) (keyed_afterDecision hσ hi h _),
    cleanMap_of_keyed (hσ'.sub 2) (keyed_afterDecision hσ' hi h _),
    update_congr (hσ.sub 0) (hσ'.sub 0), update_congr (hσ.sub 1) (hσ'.sub 1)]

/-! ## Runs -/

section

variable [Unicode] {lib : Library} {env : Policy}

/-- The state of an evaluation in which the facts of the node are kept so far. -/
structure Run.Sound (id : Text) (r : Run) : Prop where
  normal : r.input.Normal
  facts : ∀ field ∈ nodeFields, r.input.facts.get field = some id ∨ ∃ s ∈ r.seen, s.Sets field
  seen : Justified id r.seen

variable {id nodeID topic : Text} {r : Run} {σ σ' : FactOrders} {cfg cfg' : PipelineConfig}
  {run : Policy → FactOrders → Outcome} {start : FactOrders → Input}

omit [Unicode] in
lemma shows_of_get (hi : i.Normal) {d : Option Decision} {field : Text}
    (hfield : field ∈ nodeFields) (h : i.facts.get field = some id) :
    Seen.Shows ⟨i, d⟩ field id := by
  intro σ hσ
  rw [Input.normalized_of_normal hσ hi, value_nodeField hfield, h]

omit [Unicode] in
lemma Run.Sound.see (h : r.Sound id) (d : Option Decision) :
    Justified id (⟨r.input, d⟩ :: r.seen) :=
  ⟨fun field hfield => (h.facts field hfield).imp_left (shows_of_get h.normal hfield), h.seen⟩

/-- Where an evaluation has come to: what was seen is justified, and it goes on only soundly. -/
def Goes (id : Text) (out : Run × Flow) : Prop :=
  Justified id out.1.seen ∧ (out.2 = .go → out.1.Sound id)

lemma Run.Sound.runFile (h : r.Sound id) (hσ : σ.Fair)
    (stage : StageConfig) (path : Text) : Goes id (runFile lib env σ stage path r) := by
  unfold Rules.runFile
  cases hload : loadFile env (σ.sub 0) path with
  | error e => exact ⟨h.seen, fun hgo => by cases hgo⟩
  | ok rs =>
    dsimp only
    cases hdecided : rs.evaluate lib (σ.sub 1) r.input with
    | error e => exact ⟨h.see none, fun hgo => by cases hgo⟩
    | ok d =>
      have hd := RuleSet.evaluate_of (hσ.sub 1) h.normal hdecided
      refine ⟨h.see (some d), fun _ => ⟨newInput_normal _ _ _, fun field hfield => ?_,
        h.see (some d)⟩⟩
      dsimp only
      rw [get_inputAfterDecision (hσ.sub 2) h.normal hd (cleanKey_nodeField hfield).2]
      cases hset : d.setFields.get field with
      | some value =>
        refine .inr ⟨_, mem_cons_self, d, rfl, ?_, by rw [hset]; rfl⟩
        by_contra hmatched
        rw [hd.matched (by simpa using hmatched)] at hset
        cases hset
      | none =>
        rw [none_or]
        refine (h.facts field hfield).imp_right fun ⟨s, hs, hsets⟩ => ?_
        exact ⟨s, mem_cons_of_mem _ hs, hsets⟩

lemma Run.Sound.runFiles (h : r.Sound id) (hσ : σ.Fair)
    (stage : StageConfig) (paths : List Text) : Goes id (runFiles lib env σ stage paths r) := by
  induction paths generalizing σ r with
  | nil => exact ⟨h.seen, fun _ => h⟩
  | cons path rest ih =>
    have hstep : Goes id (Rules.runFile lib env (σ.sub 0) stage path r) :=
      h.runFile (hσ.sub 0) stage path
    unfold Rules.runFiles
    split
    · next r' hrun =>
      rw [hrun] at hstep
      exact ih (hstep.2 rfl) (hσ.sub 1)
    · exact hstep

lemma Run.Sound.runStage (h : r.Sound id)
    (hσ : σ.Fair) (stage : StageConfig) : Goes id (runStage lib env nodeID σ stage r) := by
  unfold Rules.runStage
  split
  · exact ⟨h.seen, fun _ => h⟩
  · split_ifs
    · exact ⟨h.seen, fun _ => h⟩
    · exact ⟨h.seen, fun _ => ⟨h.normal, h.facts, h.seen⟩⟩
  · exact h.runFiles hσ stage _

lemma Run.Sound.runStages (h : r.Sound id) (hσ : σ.Fair) (stages : List StageConfig) :
    Goes id (runStages lib env nodeID σ stages r) := by
  induction stages generalizing σ r with
  | nil => exact ⟨h.seen, fun _ => h⟩
  | cons stage rest ih =>
    have hstep : Goes id (Rules.runStage lib env nodeID (σ.sub 0) stage r) :=
      h.runStage (hσ.sub 0) stage
    unfold Rules.runStages
    split
    · next r' hrun =>
      rw [hrun] at hstep
      exact ih (hstep.2 rfl) (hσ.sub 1)
    · exact hstep

variable {input : Input}

/-- **The run**: from an input with the facts of the node every rule set is shown them. -/
lemma runPipeline_justified (hσ : σ.Fair) (hinput : input.Normal)
    (hfacts : ∀ field ∈ nodeFields, input.facts.get field = some id) :
    Justified id (runPipeline lib env cfg σ input).seen := by
  have hsound : (startRun input).Sound id :=
    ⟨hinput, fun field hfield => .inl (hfacts field hfield), trivial⟩
  have hgoes : Goes id (runStages lib env cfg.nodeID σ cfg.stages (startRun input)) :=
    hsound.runStages hσ cfg.stages
  unfold runPipeline
  split
  · next hrun => rw [hrun] at hgoes; exact hgoes.1
  · next hrun => rw [hrun] at hgoes; exact hgoes.1
  · next hrun =>
    rw [hrun] at hgoes
    split_ifs
    · exact hgoes.1
    · exact hgoes.1

/-! ## In any order -/

section

variable (hσ : σ.Fair) (hσ' : σ'.Fair) (henv : env.Settled)
include hσ hσ' henv

lemma loadFile_congr (path : Text) : loadFile env σ path = loadFile env σ' path := by
  unfold loadFile
  cases hdecode : env.decode path with
  | none => rfl
  | some rs =>
    simp only [elim_some, ok_bind, RuleSet.normalize_congr hσ hσ' (henv path rs hdecode)]

omit henv hσ' hσ in
lemma settled_of_loadFile {path : Text} {rs : RuleSet}
    (h : loadFile env σ path = .ok rs) : rs.Settled := by
  simp only [loadFile, bind_eq_ok, mapError_eq_ok] at h
  obtain ⟨-, -, raw, -, hnormalized⟩ := h
  exact RuleSet.settled_of_normalize hnormalized

lemma runFile_congr (stage : StageConfig) (path : Text) (hr : r.input.Normal) :
    runFile lib env σ stage path r = runFile lib env σ' stage path r ∧
      (runFile lib env σ stage path r).1.input.Normal := by
  unfold runFile
  rw [loadFile_congr (hσ.sub 0) (hσ'.sub 0) henv]
  cases hload : loadFile env (σ'.sub 0) path with
  | error e => exact ⟨rfl, hr⟩
  | ok rs =>
    dsimp only
    rw [RuleSet.evaluate_congr (hσ.sub 1) (hσ'.sub 1) (settled_of_loadFile hload) hr]
    cases hdecided : rs.evaluate lib (σ'.sub 1) r.input with
    | error e => exact ⟨rfl, hr⟩
    | ok d =>
      have hd := RuleSet.evaluate_of (hσ'.sub 1) hr hdecided
      dsimp only
      rw [inputAfterDecision_congr (hσ.sub 2) (hσ'.sub 2) hr hd]
      exact ⟨rfl, newInput_normal _ _ _⟩

lemma runFiles_congr (stage : StageConfig) (paths : List Text) (hr : r.input.Normal) :
    runFiles lib env σ stage paths r = runFiles lib env σ' stage paths r ∧
      (runFiles lib env σ stage paths r).1.input.Normal := by
  induction paths generalizing σ σ' r with
  | nil => exact ⟨rfl, hr⟩
  | cons path rest ih =>
    obtain ⟨hstep, hnormal⟩ : runFile lib env (σ.sub 0) stage path r =
        runFile lib env (σ'.sub 0) stage path r ∧ _ :=
      runFile_congr (hσ.sub 0) (hσ'.sub 0) henv stage path hr
    unfold runFiles
    rw [← hstep]
    split
    · next r' hrun =>
      rw [hrun] at hnormal
      exact ih (hσ.sub 1) (hσ'.sub 1) hnormal
    · exact ⟨rfl, hnormal⟩

lemma runStage_congr (nodeID : Text) (stage : StageConfig) (hr : r.input.Normal) :
    runStage lib env nodeID σ stage r = runStage lib env nodeID σ' stage r ∧
      (runStage lib env nodeID σ stage r).1.input.Normal := by
  unfold runStage
  split
  · exact ⟨rfl, hr⟩
  · split_ifs
    · exact ⟨rfl, hr⟩
    · exact ⟨rfl, hr⟩
  · exact runFiles_congr hσ hσ' henv stage _ hr

lemma runStages_congr (nodeID : Text) (stages : List StageConfig) (hr : r.input.Normal) :
    runStages lib env nodeID σ stages r = runStages lib env nodeID σ' stages r := by
  induction stages generalizing σ σ' r with
  | nil => rfl
  | cons stage rest ih =>
    obtain ⟨hstep, hnormal⟩ : runStage lib env nodeID (σ.sub 0) stage r =
        runStage lib env nodeID (σ'.sub 0) stage r ∧ _ :=
      runStage_congr (hσ.sub 0) (hσ'.sub 0) henv nodeID stage hr
    unfold runStages
    rw [← hstep]
    split
    · next r' hrun =>
      rw [hrun] at hnormal
      exact ih (hσ.sub 1) (hσ'.sub 1) hnormal
    · rfl

/-- **The run, in two orders.** -/
lemma runPipeline_congr (cfg : PipelineConfig) (hinput : input.Normal) :
    runPipeline lib env cfg σ input = runPipeline lib env cfg σ' input := by
  unfold runPipeline
  rw [runStages_congr hσ hσ' henv cfg.nodeID cfg.stages
    (show (startRun input).input.Normal from hinput)]

end

/-! ## The first input

With no file at all the facts of the first input are what is returned; and a default pipeline with
one file shows it to a rule set. So `Kept` is that this input is the same in any order, and that it
has the facts of the node.
-/

omit [Unicode] in
def noFiles : Policy := ⟨fun _ _ => some [], fun _ => rfl, fun _ => false, fun _ => none⟩

omit [Unicode] in
/-- One file is found for any patterns, with no rule in it. -/
def oneFile : Policy :=
  ⟨fun patterns _ => if patterns = [] then some [] else some ["rules.json"], fun _ => rfl,
    fun _ => false, fun _ => some ⟨engineVersion, .deny, []⟩⟩

lemma runStages_noFiles (nodeID : Text) (σ : FactOrders) (stages : List StageConfig) (r : Run) :
    (runStages lib noFiles nodeID σ stages r).1.input = r.input ∧
      (runStages lib noFiles nodeID σ stages r).1.decision.fields = r.decision.fields := by
  induction stages generalizing σ r with
  | nil => exact ⟨rfl, rfl⟩
  | cons stage rest ih =>
    cases hrequired : stage.required with
    | true =>
      have hstage : runStage lib noFiles nodeID (σ.sub 0) stage r =
          (r, .fail (.stageRequired stage.name)) := by
        simp [runStage, noFiles, hrequired]
      rw [runStages, hstage]
      exact ⟨rfl, rfl⟩
    | false =>
      obtain ⟨r', hstage, hinput, hfields⟩ : ∃ r', runStage lib noFiles nodeID (σ.sub 0) stage r =
          (r', .go) ∧ r'.input = r.input ∧ r'.decision.fields = r.decision.fields := by
        simp [runStage, noFiles, hrequired]
      rw [runStages, hstage, ← hinput, ← hfields]
      exact ih (σ.sub 1) r'

lemma runPipeline_noFiles (cfg : PipelineConfig) (σ : FactOrders) (input : Input) :
    (runPipeline lib noFiles cfg σ input).decision.map PipelineDecision.fields =
      some input.facts := by
  obtain ⟨hinput, hfields⟩ := @runStages_noFiles _ lib cfg.nodeID σ cfg.stages (startRun input)
  unfold runPipeline
  split
  · next hrun =>
    rw [hrun] at hfields
    exact congrArg some hfields
  · next hrun =>
    rw [hrun] at hfields
    exact congrArg some hfields
  · next hrun =>
    rw [hrun] at hinput hfields
    split_ifs
    · exact congrArg (some ∘ Input.facts) hinput
    · exact congrArg some hfields

lemma runPipeline_oneFile (σ : FactOrders) (input : Input) :
    ∃ d, (runPipeline lib oneFile defaultPipelineConfig σ input).seen = [⟨input, some d⟩] :=
  ⟨_, rfl⟩

structure Starts (lib : Library) (cfg : PipelineConfig) (run : Policy → FactOrders → Outcome)
    (start : FactOrders → Input) : Prop where
  run : ∀ env σ, σ.Fair → ∃ τ : FactOrders, τ.Fair ∧ run env σ = runPipeline lib env cfg τ (start σ)
  normal : ∀ σ, σ.Fair → (start σ).Normal

lemma Starts.same (h : Starts lib cfg run start) (hkept : Kept id run)
    (hσ : σ.Fair) (hσ' : σ'.Fair) : (start σ).facts = (start σ').facts := by
  obtain ⟨τ, -, hrun⟩ := h.run noFiles σ hσ
  obtain ⟨τ', -, hrun'⟩ := h.run noFiles σ' hσ'
  have hsame := hkept.same noFiles (fun _ _ hnone => by cases hnone) σ σ' hσ hσ'
  rw [hrun, hrun'] at hsame
  have hfields := congrArg (fun out => out.decision.map PipelineDecision.fields) hsame
  simpa only [runPipeline_noFiles, some.injEq] using hfields

lemma Starts.kept (h : Starts lib cfg run start)
    (hsame : ∀ σ σ', σ.Fair → σ'.Fair → start σ = start σ')
    (hfacts : ∀ σ, σ.Fair → ∀ field ∈ nodeFields, (start σ).facts.get field = some id) :
    Kept id run := by
  constructor
  · intro env σ hσ
    obtain ⟨τ, hτ, hrun⟩ := h.run env σ hσ
    rw [hrun]
    exact runPipeline_justified hτ (h.normal σ hσ) (hfacts σ hσ)
  · intro env henv σ σ' hσ hσ'
    obtain ⟨τ, hτ, hrun⟩ := h.run env σ hσ
    obtain ⟨τ', hτ', hrun'⟩ := h.run env σ' hσ'
    rw [hrun, hrun', hsame σ σ' hσ hσ']
    exact runPipeline_congr hτ hτ' henv cfg (h.normal σ' hσ')

lemma Starts.facts (h : Starts lib defaultPipelineConfig run start) (hkept : Kept id run)
    (hσ : σ.Fair) {field : Text} (hfield : field ∈ nodeFields) :
    (start σ).facts.get field = some id := by
  obtain ⟨τ, hτ, hrun⟩ := h.run oneFile σ hσ
  obtain ⟨d, hseen⟩ := @runPipeline_oneFile _ lib τ (start σ)
  have hshown := hkept.shown oneFile σ hσ
  rw [hrun, hseen] at hshown
  rcases hshown.1 field hfield with hshows | ⟨s, hs, -⟩
  · have hvalue := hshows σ hσ
    rwa [Input.normalized_of_normal hσ (h.normal σ hσ), value_nodeField hfield] at hvalue
  · cases hs

omit [Unicode] in
lemma get_cleanMap_same {facts : Facts}
    (h : Undisputed topic facts key) (hkey : key = "topic" → trimSpace topic = [])
    (hσ : σ.Fair) (hσ' : σ'.Fair) : (cleanMap σ facts).get key = (cleanMap σ' facts).get key :=
  (get_collect_perm (hσ [] facts.entries) (h hkey)).trans
    (get_collect_perm (hσ' [] facts.entries) (h hkey)).symm

omit [Unicode] in
lemma newInput_same {facts : Facts} (h : ∀ key, Undisputed topic facts key)
    (hσ : σ.Fair) (hσ' : σ'.Fair) : newInput σ topic facts = newInput σ' topic facts :=
  newInput_congr fun key hkey => get_cleanMap_same (h key) hkey hσ hσ'

omit [Unicode] in
lemma get_newInput_lastly {facts : Facts} {entry : Text × Text}
    (hmem : entry ∈ facts.entries) (hname : cleanKey entry.1 = some key)
    (hkey : key = "topic" → trimSpace topic = []) :
    (newInput (lastly entry) topic facts).facts.get key = some entry.2 :=
  (get_newInput hkey).trans (exists_get_collect hmem hname [])

omit [Unicode] in
lemma undisputed_of_lastly {facts : Facts}
    (h : ∀ entry entry', (newInput (lastly entry) topic facts).facts.get key =
      (newInput (lastly entry') topic facts).facts.get key) : Undisputed topic facts key := by
  intro hkey entry hentry entry' hentry' hname hname'
  have hsame := h entry entry'
  rw [get_newInput_lastly hentry hname hkey, get_newInput_lastly hentry' hname' hkey] at hsame
  exact some.inj hsame

omit [Unicode] in
lemma get_newInput_nodeField {facts : Facts} {field : Text} (hfield : field ∈ nodeFields)
    (h : Undisputed topic facts field) (hσ : σ.Fair) (hmem : (key, id) ∈ facts.entries)
    (hname : cleanKey key = some field) : (newInput σ topic facts).facts.get field = some id := by
  rw [get_newInput (topic_of_nodeField hfield), cleanMap,
    get_collect_perm (hσ [] facts.entries) (h (topic_of_nodeField hfield))]
  exact get_collect_of_agreed (h (topic_of_nodeField hfield)) hmem hname

/-! ## Configurations -/

omit [Unicode] in
lemma cleanNodeID_ok (h : cleanNodeID nodeID = .ok id) :
    cleanNodeID id = .ok id ∧ trimSpace id = id ∧ id ≠ [] ∧ trimSpace nodeID ≠ [] := by
  have hchecked := h
  simp only [cleanNodeID, checks_ok] at hchecked
  obtain ⟨hne, -, -, rfl⟩ := hchecked
  refine ⟨?_, trimSpace_trimSpace nodeID, hne, hne⟩
  rw [← h]
  unfold cleanNodeID
  rw [trimSpace_trimSpace]

omit [Unicode] in
lemma normalizeStages_default :
    normalizeStages 0 defaultPipelineConfig.stages = .ok defaultPipelineConfig.stages := by
  decide +kernel

omit [Unicode] in
lemma PipelineConfig.normalize_eq_ok : cfg.normalize = .ok cfg' ↔
      orElse (trimSpace cfg.version) pipelineVersion = pipelineVersion ∧
      ∃ nodeID, (if trimSpace cfg.nodeID ≠ [] then cleanNodeID cfg.nodeID else .ok cfg.nodeID) =
          .ok nodeID ∧ ∃ stages,
          normalizeStages 0 (if cfg.stages = [] then defaultPipelineConfig.stages else cfg.stages) =
            .ok stages ∧ (if cfg.stages = [] then { defaultPipelineConfig with stages }
            else ⟨orElse (trimSpace cfg.version) pipelineVersion, nodeID, stages⟩) = cfg' := by
  by_cases hid : trimSpace cfg.nodeID ≠ [] <;> by_cases hstages : cfg.stages = [] <;>
    simp only [normalize, hid, hstages, checks_ok, if_true, if_false, ne_eq, not_false_eq_true]

omit [Unicode] in
lemma PipelineConfig.normalize_ok (h : cfg.normalize = .ok cfg')
    (hid : cleanNodeID cfg.nodeID = .ok id) :
    (cfg.stages = [] → cfg' = defaultPipelineConfig) ∧ (cfg.stages ≠ [] → cfg'.nodeID = id) := by
  obtain ⟨-, node, hnode, stages, hstages, rfl⟩ := normalize_eq_ok.mp h
  rw [if_pos (cleanNodeID_ok hid).2.2.2, hid, Except.ok.injEq] at hnode
  constructor
  · intro hnil
    rw [if_pos hnil, normalizeStages_default, Except.ok.injEq] at hstages
    rw [if_pos hnil, ← hstages]
  · intro hne
    rw [if_neg hne, hnode]

omit [Unicode] in
lemma PipelineConfig.normalize_withNode (h : cfg.normalize = .ok cfg')
    (hid : cleanNodeID id = .ok id) :
    ∃ cfg'', ({ cfg with nodeID := id } : PipelineConfig).normalize = .ok cfg'' := by
  obtain ⟨hversion, -, -, stages, hstages, -⟩ := normalize_eq_ok.mp h
  refine ⟨_, normalize_eq_ok.mpr ⟨hversion, id, ?_, stages, hstages, rfl⟩⟩
  rw [if_pos (cleanNodeID_ok hid).2.2.2]
  exact hid

omit [Unicode] in
lemma inputWithNodeFacts_eq (hid : cleanNodeID id = .ok id) (σ : FactOrders) (input : Input) :
    inputWithNodeFacts σ input id = newInput σ input.topic (withNode id input.facts) := by
  obtain ⟨-, htrim, hne, -⟩ := cleanNodeID_ok hid
  unfold inputWithNodeFacts withNode
  rw [htrim, if_neg hne]

lemma starts_evaluate (hcfg : cfg.normalize = .ok cfg')
    (hid : cleanNodeID cfg.nodeID = .ok id) (input : Input) :
    (cfg.stages = [] → Starts lib defaultPipelineConfig (fun env σ => cfg.evaluate lib env σ input)
      fun σ => newInput (σ.sub 1) input.topic input.facts) ∧
    (cfg.stages ≠ [] → Starts lib cfg' (fun env σ => cfg.evaluate lib env σ input)
      fun σ => newInput (σ.sub 0) input.topic (withNode id input.facts)) := by
  obtain ⟨hdefault, hnode⟩ := normalize_ok hcfg hid
  constructor
  · intro hnil
    refine ⟨fun env σ hσ => ⟨σ.sub 2, hσ.sub 2, ?_⟩, fun σ _ => newInput_normal _ _ _⟩
    simp only [evaluate, hcfg, hdefault hnil]
    rfl
  · intro hne
    refine ⟨fun env σ hσ => ⟨σ.sub 2, hσ.sub 2, ?_⟩, fun σ _ => newInput_normal _ _ _⟩
    simp only [evaluate, hcfg, hnode hne, inputWithNodeFacts_eq (cleanNodeID_ok hid).1,
      Input.normalized_of_normal (hσ.sub 1) (newInput_normal _ _ _)]

lemma starts_evaluateNode (hcfg : cfg.normalize = .ok cfg')
    (hid : cleanNodeID nodeID = .ok id) (input : Input) :
    (cfg.stages = [] → Starts lib defaultPipelineConfig
      (fun env σ => cfg.evaluateNode lib env σ nodeID input)
      fun σ => newInput (σ.sub 0) input.topic (withNode id input.facts)) ∧
    (cfg.stages ≠ [] → ∃ cfg'', Starts lib cfg''
      (fun env σ => cfg.evaluateNode lib env σ nodeID input)
      fun σ => newInput ((σ.sub 1).sub 0) (trimSpace input.topic)
        (withNode id (newInput (σ.sub 0) input.topic (withNode id input.facts)).facts)) := by
  have hclean := (cleanNodeID_ok hid).1
  obtain ⟨cfg'', hcfg''⟩ := normalize_withNode hcfg hclean
  constructor
  · intro hnil
    refine ⟨fun env σ hσ => ?_, fun σ _ => newInput_normal _ _ _⟩
    obtain ⟨τ, hτ, hrun⟩ := ((@starts_evaluate _ lib _ _ _ hcfg'' hclean
      (newInput (σ.sub 0) input.topic (withNode id input.facts))).1 hnil).run env _ (hσ.sub 1)
    refine ⟨τ, hτ, ?_⟩
    simp only [evaluateNode, hid, inputWithNodeFacts_eq hclean]
    refine hrun.trans ?_
    congr 1
    exact Input.normalized_of_normal ((hσ.sub 1).sub 1) (newInput_normal _ _ _)
  · intro hne
    refine ⟨cfg'', fun env σ hσ => ?_, fun σ _ => newInput_normal _ _ _⟩
    obtain ⟨τ, hτ, hrun⟩ := ((@starts_evaluate _ lib _ _ _ hcfg'' hclean
      (newInput (σ.sub 0) input.topic (withNode id input.facts))).2 hne).run env _ (hσ.sub 1)
    refine ⟨τ, hτ, ?_⟩
    simp only [evaluateNode, hid, inputWithNodeFacts_eq hclean]
    exact hrun

/-! ## The guarantee -/

omit [Unicode] in
/-- The facts that `Evaluate` may be given: no two of them come to have one name and different
values, with the facts of the node among them; and where there are no stages, and so no node, they
are the facts of the node themselves. -/
def EvaluateSafe (cfg : PipelineConfig) (id : Text) (input : Input) : Prop :=
  (∀ key, Undisputed input.topic
    (if cfg.stages = [] then input.facts else withNode id input.facts) key) ∧
  (cfg.stages = [] → ∀ field ∈ nodeFields,
    ∃ key, cleanKey key = some field ∧ (key, id) ∈ input.facts.entries)

omit [Unicode] in
/-- The facts that `EvaluateNode` may be given. With stages it puts the facts of the node twice, and
the second time there is nothing left that could take their place. -/
def EvaluateNodeSafe (cfg : PipelineConfig) (id : Text) (input : Input) : Prop :=
  ∀ key, (cfg.stages ≠ [] → key ∉ nodeFields) → Undisputed input.topic (withNode id input.facts) key

lemma Starts.kept_iff_once {facts : Facts}
    (h : Starts lib cfg run fun σ => newInput (σ.sub 0) topic (withNode id facts)) :
    Kept id run ↔ ∀ key, Undisputed topic (withNode id facts) key := by
  constructor
  · intro hkept key
    refine undisputed_of_lastly fun entry entry' => ?_
    have hsame := h.same hkept (fair_lastly entry) (fair_lastly entry')
    exact congrArg (get · key) hsame
  · intro hsafe
    exact h.kept (fun σ σ' hσ hσ' => newInput_same hsafe (hσ.sub 0) (hσ'.sub 0))
      fun σ hσ field hfield => get_newInput_nodeField hfield (hsafe field) (hσ.sub 0)
        (get_eq_some.mp (by rw [get_withNode, if_pos hfield])) (cleanKey_nodeField hfield).1

lemma Starts.kept_iff_never {facts : Facts}
    (h : Starts lib defaultPipelineConfig run fun σ => newInput (σ.sub 1) topic facts) :
    Kept id run ↔ (∀ key, Undisputed topic facts key) ∧
      ∀ field ∈ nodeFields, ∃ key, cleanKey key = some field ∧ (key, id) ∈ facts.entries := by
  constructor
  · intro hkept
    constructor
    · intro key
      refine undisputed_of_lastly fun entry entry' => ?_
      have hsame := h.same hkept (fair_lastly entry) (fair_lastly entry')
      exact congrArg (get · key) hsame
    · intro field hfield
      have hget := h.facts hkept (fair_lastly ([], [])) hfield
      rw [get_newInput (topic_of_nodeField hfield)] at hget
      rcases exists_of_get_collect hget with hnone | ⟨entry, hmem, hname, hid⟩
      · cases hnone
      · have hentry := ((fair_lastly ([], [])).sub 1 [] facts.entries).mem_iff.mp hmem
        exact ⟨entry.1, hname, hid ▸ hentry⟩
  · rintro ⟨hsafe, hnode⟩
    refine h.kept (fun σ σ' hσ hσ' => newInput_same hsafe (hσ.sub 1) (hσ'.sub 1)) ?_
    intro σ hσ field hfield
    obtain ⟨key, hname, hmem⟩ := hnode field hfield
    exact get_newInput_nodeField hfield (hsafe field) (hσ.sub 1) hmem hname

omit [Unicode] in
lemma get_cleanMap_twice {facts : Facts} {τ : FactOrders} (hτ : τ.Fair)
    (hkey : key = "topic" → trimSpace topic = []) :
    (cleanMap τ (withNode id (newInput σ topic (withNode id facts)).facts)).get key =
      if key ∈ nodeFields then some id else (cleanMap σ (withNode id facts)).get key := by
  rw [cleanMap_of_keyed hτ ((newInput_normal σ topic _).facts.withNode id), get_withNode,
    get_newInput hkey]

lemma Starts.kept_iff_twice {facts : Facts}
    (h : Starts lib cfg run fun σ => newInput ((σ.sub 1).sub 0) (trimSpace topic)
      (withNode id (newInput (σ.sub 0) topic (withNode id facts)).facts)) :
    Kept id run ↔ ∀ key, key ∉ nodeFields → Undisputed topic (withNode id facts) key := by
  have htrim {key : Text} (hkey : key = "topic" → trimSpace topic = []) :
      key = "topic" → trimSpace (trimSpace topic) = [] := by rwa [trimSpace_trimSpace]
  constructor
  · intro hkept key hfield hkey
    refine undisputed_of_lastly (fun entry entry' => ?_) hkey
    have hsame := congrArg (get · key)
      (h.same hkept (fair_lastly entry) (fair_lastly entry'))
    rw [get_newInput (htrim hkey), get_newInput (htrim hkey),
      get_cleanMap_twice (((fair_lastly entry).sub 1).sub 0) hkey,
      get_cleanMap_twice (((fair_lastly entry').sub 1).sub 0) hkey,
      if_neg hfield, if_neg hfield] at hsame
    rw [get_newInput hkey, get_newInput hkey]
    exact hsame
  · intro hsafe
    refine h.kept (fun σ σ' hσ hσ' => newInput_congr fun key hkey => ?_) ?_
    · rw [trimSpace_trimSpace] at hkey
      rw [get_cleanMap_twice ((hσ.sub 1).sub 0) hkey, get_cleanMap_twice ((hσ'.sub 1).sub 0) hkey]
      split_ifs with hfield
      · rfl
      · exact get_cleanMap_same (hsafe key hfield) hkey (hσ.sub 0) (hσ'.sub 0)
    · intro σ hσ field hfield
      rw [get_newInput (topic_of_nodeField hfield),
        get_cleanMap_twice ((hσ.sub 1).sub 0) (topic_of_nodeField hfield), if_pos hfield]

/-- **The facts of the node are kept** by an accepted pipeline, whatever its files, exactly for the
inputs with safe facts. -/
theorem node_facts_kept (lib : Library) {cfg cfg' : PipelineConfig}
    (hcfg : cfg.normalize = .ok cfg') (input : Input) :
    (∀ id, cleanNodeID cfg.nodeID = .ok id →
      (Kept id (fun env σ => cfg.evaluate lib env σ input) ↔ EvaluateSafe cfg id input)) ∧
    (∀ nodeID id, cleanNodeID nodeID = .ok id →
      (Kept id (fun env σ => cfg.evaluateNode lib env σ nodeID input) ↔
        EvaluateNodeSafe cfg id input)) := by
  constructor
  · intro id hid
    obtain ⟨hdefault, hstaged⟩ := @starts_evaluate _ lib _ _ _ hcfg hid input
    by_cases hnil : cfg.stages = []
    · rw [(hdefault hnil).kept_iff_never]
      simp only [EvaluateSafe, forall_const, hnil, if_true]
    · rw [(hstaged hnil).kept_iff_once]
      simp only [EvaluateSafe, hnil, if_false, false_imp_iff, and_true]
  · intro nodeID id hid
    obtain ⟨hdefault, hstaged⟩ := @starts_evaluateNode _ lib _ _ _ _ hcfg hid input
    by_cases hnil : cfg.stages = []
    · rw [(hdefault hnil).kept_iff_once]
      simp only [EvaluateNodeSafe, hnil, ne_eq, not_true_eq_false, false_imp_iff, forall_const]
    · obtain ⟨cfg'', hstarts⟩ := hstaged hnil
      rw [hstarts.kept_iff_twice]
      simp only [EvaluateNodeSafe, hnil, ne_eq, not_false_eq_true, forall_const]

end

section Sample

attribute [local instance] asciiCase

/-- A pattern matches itself, and nothing is a number or an address. -/
def literalLibrary : Library :=
  ⟨fun pattern value => some (pattern = value), fun pattern value => some (pattern = value),
    fun _ => none, fun _ => none, fun _ => none⟩

def edgeConfig : PipelineConfig :=
  ⟨[], " edge ", [{ name := "local", paths := ["rules.json"] }]⟩

def edgeDefault : PipelineConfig := ⟨[], "edge", []⟩

def oneFact (key value : Text) : Input := ⟨[], empty.put key value⟩

/-- A fact with the name of the node in place of the node's does not get through. -/
theorem node_facts_kept_edge :
    Kept "edge" (fun env σ => edgeConfig.evaluate literalLibrary env σ
      (oneFact "node.id" "root")) := by
  have hcfg : edgeConfig.normalize = .ok ⟨pipelineVersion, "edge", edgeConfig.stages⟩ := by
    decide +kernel
  refine ((node_facts_kept literalLibrary hcfg _).1 "edge" (by decide +kernel)).mpr
    ⟨fun key _ entry hentry entry' hentry' _ _ => ?_, fun hnil => by cases hnil⟩
  have hall : ∀ entry ∈ (withNode "edge"
      (oneFact "node.id" "root").facts).entries, entry.2 = "edge" := by
    decide +kernel
  exact (hall entry hentry).trans (hall entry' hentry').symm

/-- **Two spoofed nodes.** A fact whose name has a space before it takes the place of the node's
when it is gone through last, and not when it is gone through first; and a pipeline without stages
loses its node. -/
theorem node_fact_spoofed :
    let shown := fun (cfg : PipelineConfig) (last : Text × Text) (input : Input) =>
      (cfg.evaluate literalLibrary oneFile (lastly last) input).seen.map
        fun s => nodeFields.map s.input.value
    (edgeConfig.normalize.isOk ∧
      shown edgeConfig (text " node.id", text "root") (oneFact (text " node.id") (text "root")) =
        [[some (text "root"), some (text "edge"), some (text "edge")]] ∧
      shown edgeConfig (text "node.id", text "edge") (oneFact (text " node.id") (text "root")) =
        [[some (text "edge"), some (text "edge"), some (text "edge")]]) ∧
    (edgeDefault.normalize.isOk ∧
      shown edgeDefault ([], []) (oneFact (text "node.id") (text "root")) =
        [[some (text "root"), none, none]]) := by
  decide +kernel

end Sample

end WeaverSSH.Rules
