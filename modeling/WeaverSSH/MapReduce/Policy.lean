import WeaverSSH.Framework.Checks
import WeaverSSH.Framework.OrderedMap

/-!
# The policy of map-reduce jobs

A rule allows or denies the invocations it matches, and one that allows bounds them. `Evaluate`
stops at the first rule that denies, but what it decides has no order in it (`policy_algebra`).
-/

namespace WeaverSSH.MapReduce

inductive Effect where
  | allow
  | deny
  | unknown (name : Text)
deriving DecidableEq, Repr

structure Limits where
  maxItems : ℤ := 0
  maxInputBytes : ℤ := 0
  maxOutputRecords : ℤ := 0
  maxOutputBytes : ℤ := 0
  maxParallel : ℤ := 0
  maxFanout : ℤ := 0
  maxDurationMillis : ℤ := 0
  maxValuesPerKey : ℤ := 0
deriving DecidableEq, Repr

def Limits.fields : List (Limits → ℤ) :=
  [maxItems, maxInputBytes, maxOutputRecords, maxOutputBytes, maxParallel, maxFanout,
    maxDurationMillis, maxValuesPerKey]

/-- Two limits, field by field. -/
def Limits.zip (f : ℤ → ℤ → ℤ) (a b : Limits) : Limits where
  maxItems := f a.maxItems b.maxItems
  maxInputBytes := f a.maxInputBytes b.maxInputBytes
  maxOutputRecords := f a.maxOutputRecords b.maxOutputRecords
  maxOutputBytes := f a.maxOutputBytes b.maxOutputBytes
  maxParallel := f a.maxParallel b.maxParallel
  maxFanout := f a.maxFanout b.maxFanout
  maxDurationMillis := f a.maxDurationMillis b.maxDurationMillis
  maxValuesPerKey := f a.maxValuesPerKey b.maxValuesPerKey

def hardLimits : Limits := ⟨4096, 2 ^ 24, 4096, 2 ^ 24, 64, 64, 600000, 4096⟩

def normalizeRuleLimits (raw : Limits) : Limits :=
  raw.zip (fun limit hard => if limit ≤ 0 then hard else limit) hardLimits

def validateLimits (limits : Limits) : Bool :=
  Limits.fields.all fun field => 0 < field limits && field limits ≤ field hardLimits

def minLimits : Limits → Limits → Limits := Limits.zip min

structure Rule where
  name : Text
  effect : Effect
  sourceNodes : List Text
  sourceRoles : List Text := []
  targetNodes : List Text
  plugins : List Text
  operations : List Text
  requiredLabels : OrderedMap Text Text := .empty
  limits : Limits := {}

structure Policy where
  version : Text := []
  default : Effect := .unknown []
  rules : List Rule
  digest : Text := []

structure Invocation where
  sourceNode : Text
  targetNode : Text
  sourceRole : Text := []
  operation : Text
  plugin : Text
  labels : OrderedMap Text Text := .empty
  items : ℤ := 0
  inputBytes : ℤ := 0
  requestedParallel : ℤ := 0
  requestedTimeoutMillis : ℤ := 0
  fanout : ℤ := 0

def nameRune : Rune → Bool
  | .char c => c = '.' || c = '_' || c = '-' || c.isAlphanum
  | .raw _ => false

/-- `validName`; a name is in ASCII, so that its length is the number of its characters. -/
def validName (value : Text) : Bool :=
  value.length ≤ 128 && value.all nameRune && value.head?.any fun r => r ∉ text "._-"

/-- `validNodeName`; a byte that is part of no character passes. -/
def validNodeName (value : Text) : Bool :=
  let value := trimSpace value
  value ≠ [] && len value ≤ 256 && value.all fun
    | .char c => 0x20 ≤ c.toNat && c.toNat ≠ 0x7F
    | .raw _ => true

def validOperation (operation : Text) : Bool :=
  operation ∈ ["describe", "map", "reduce", "run"].map text

/-- `validateLabels`: too many labels, or an invalid one. -/
def validateLabels (labels : OrderedMap Text Text) : Except String Unit := do
  require (labels.entries.length ≤ 32) "too many labels"
  require (labels.entries.all fun (key, value) => key ≠ [] && key = trimSpace key &&
    len key ≤ 64 && len value ≤ 1024 && .char '\x00' ∉ key && .char '\x00' ∉ value) "invalid label"

def sorted (values : List Text) : List Text :=
  values.dedup.insertionSort fun a b => bytes a ≤ bytes b

/-- What `normalizeNodePatterns` and `normalizePluginPatterns` share; the error is the pattern. -/
def normalizePatterns (valid : Text → Bool) (raw : List Text) : Except Text (List Text) := do
  let values := (raw.map trimSpace).filter (· ≠ [])
  requireNone (values.find? fun value => value ≠ text "*" && !valid value) fun value => value
  pure (sorted values)

def normalizeNodePatterns : List Text → Except Text (List Text) := normalizePatterns validNodeName

def normalizePluginPatterns : List Text → Except Text (List Text) := normalizePatterns validName

def normalizeRoles [Unicode] (raw : List Text) : List Text :=
  sorted ((raw.map fun role => toLower (trimSpace role)).filter
    (· ∈ ["origin", "intermediate", "endpoint", "single"].map text))

/-- The errors of `normalizeRule`, with what they name. -/
inductive RuleErr where
  | name
  | effect
  | sourceNodes (pattern : Text)
  | targetNodes (pattern : Text)
  | plugins (pattern : Text)
  | required
  | sourceRoles
  | operationsRequired
  | operation (name : Text)
  | labels (why : String)
  | limits
deriving DecidableEq, Repr

def normalizeRule [Unicode] (raw : Rule) : Except RuleErr Rule := do
  let name := trimSpace raw.name
  require (validName name) .name
  require (raw.effect = .allow || raw.effect = .deny) .effect
  let sourceNodes ← (normalizeNodePatterns raw.sourceNodes).mapError .sourceNodes
  let targetNodes ← (normalizeNodePatterns raw.targetNodes).mapError .targetNodes
  let plugins ← (normalizePluginPatterns raw.plugins).mapError .plugins
  require (sourceNodes ≠ [] && targetNodes ≠ [] && plugins ≠ []) .required
  let sourceRoles := normalizeRoles raw.sourceRoles
  require (raw.sourceRoles = [] || sourceRoles ≠ []) .sourceRoles
  require (raw.operations ≠ []) .operationsRequired
  requireNone (raw.operations.find? (!validOperation ·)) .operation
  (validateLabels raw.requiredLabels).mapError .labels
  let limits := if raw.effect = .allow then normalizeRuleLimits raw.limits else {}
  require (raw.effect ≠ .allow || validateLimits limits) .limits
  pure { raw with
    name, sourceNodes, targetNodes, plugins, sourceRoles, limits,
    operations := sorted raw.operations }

inductive PolicyErr where
  | version (version : Text)
  | default
  | count
  | rule (index : ℕ) (why : RuleErr)
  | duplicate (name : Text)
deriving DecidableEq, Repr

/-- A round of the loop of `normalizePolicy`. -/
def addRule [Unicode] (out : List Rule) (raw : Rule) : Except PolicyErr (List Rule) := do
  let rule ← (normalizeRule raw).mapError (.rule out.length)
  require (rule.name ∉ out.map Rule.name) (.duplicate rule.name)
  pure (out ++ [rule])

def normalizePolicy [Unicode] (raw : Policy) : Except PolicyErr Policy := do
  let version : Text := if raw.version = [] then "weaverssh.mapreduce-policy.v1" else raw.version
  require (version = "weaverssh.mapreduce-policy.v1") (.version version)
  let default := if raw.default = .unknown [] then .deny else raw.default
  require (default = .deny) .default
  require (raw.rules ≠ [] && raw.rules.length ≤ 256) .count
  let rules ← raw.rules.foldlM addRule []
  pure { raw with version, default, rules }

def matchPattern (patterns : List Text) (value : Text) : Bool :=
  patterns.any fun pattern => pattern = "*" || pattern = value

def ruleMatches (inv : Invocation) (rule : Rule) : Bool :=
  matchPattern rule.sourceNodes inv.sourceNode && matchPattern rule.targetNodes inv.targetNode &&
    matchPattern rule.plugins inv.plugin &&
    (rule.sourceRoles = [] || inv.sourceRole ∈ rule.sourceRoles) &&
    inv.operation ∈ rule.operations &&
    rule.requiredLabels.entries.all fun (key, value) => (inv.labels.get key).getD [] = value

/-- `checkInvocationLimits`: what exceeds its limit, with the two numbers. -/
def checkInvocationLimits (inv : Invocation) (limits : Limits) : Option (String × ℤ × ℤ) :=
  [("items", inv.items, limits.maxItems), ("input bytes", inv.inputBytes, limits.maxInputBytes),
    ("parallel", inv.requestedParallel, limits.maxParallel),
    ("fanout", inv.fanout, limits.maxFanout),
    ("timeout", inv.requestedTimeoutMillis, limits.maxDurationMillis)].find? fun c => c.2.2 < c.2.1

structure DecisionSummary where
  allowed : Bool := false
  ruleNames : List Text := []
  limits : Limits := {}
  policySHA256 : Text := []
deriving DecidableEq, Repr

inductive EvaluateErr where
  | denied (rule : Option Text)
  | invalidRequest
  | labels (why : String)
  | limitExceeded (what : String × ℤ × ℤ)
deriving DecidableEq, Repr

def Invocation.trimmed (inv : Invocation) : Invocation :=
  { inv with
    sourceNode := trimSpace inv.sourceNode, targetNode := trimSpace inv.targetNode
    plugin := trimSpace inv.plugin, sourceRole := trimSpace inv.sourceRole }

/-- What `Evaluate` checks of an invocation. -/
def Invocation.validate (inv : Invocation) : Except EvaluateErr Unit := do
  require (validNodeName inv.sourceNode && validNodeName inv.targetNode &&
    validOperation inv.operation && validName inv.plugin) .invalidRequest
  (validateLabels inv.labels).mapError .labels
  require (0 ≤ inv.items && 0 ≤ inv.inputBytes && 0 ≤ inv.requestedParallel &&
    0 ≤ inv.requestedTimeoutMillis && 0 ≤ inv.fanout) .invalidRequest

/-- The rules that allow an invocation, or the first that denies it. -/
def matchingAllow (inv : Invocation) (rules : List Rule) : Except Rule (List Rule) :=
  rules.foldlM (fun out rule =>
    if !ruleMatches inv rule then .ok out
    else if rule.effect = .deny then .error rule
    else .ok (out ++ [rule])) []

def effectiveLimits (rules : List Rule) : Limits :=
  rules.foldl (fun limits rule => minLimits limits (normalizeRuleLimits rule.limits)) hardLimits

/-- `Policy.Evaluate`: a decision, and perhaps an error. -/
def Policy.evaluate (p : Policy) (inv : Invocation) : DecisionSummary × Option EvaluateErr :=
  let inv := inv.trimmed
  match inv.validate with
  | .error e => ({}, some e)
  | .ok _ =>
    match matchingAllow inv p.rules with
    | .error rule =>
      ({ ruleNames := [rule.name], policySHA256 := p.digest }, some (.denied (some rule.name)))
    | .ok [] => ({ policySHA256 := p.digest }, some (.denied none))
    | .ok rules =>
      let limits := effectiveLimits rules
      let exceeded := checkInvocationLimits inv limits
      ({ allowed := exceeded.isNone, ruleNames := rules.map Rule.name, limits
         policySHA256 := p.digest }, exceeded.map .limitExceeded)

/-! ## What `Evaluate` decides -/

section

variable {inv : Invocation} {rules rules' : List Rule} {p p' : Policy} {field : Limits → ℤ}

lemma matchingAllow_eq_ok {out : List Rule} : matchingAllow inv rules = .ok out ↔
    (∀ rule ∈ rules.filter (ruleMatches inv), rule.effect ≠ .deny) ∧
      rules.filter (ruleMatches inv) = out := by
  induction rules using List.reverseRecOn generalizing out with
  | nil => simp [matchingAllow, pure, Except.pure]
  | append_singleton rules last ih =>
    rw [matchingAllow, List.foldlM_append, ← matchingAllow, bind_eq_ok]
    simp only [ih, List.foldlM_cons, List.foldlM_nil, List.filter_append]
    cases hmatches : ruleMatches inv last <;> by_cases heffect : last.effect = .deny <;>
      simp [hmatches, heffect, or_imp, forall_and]

/-- What a policy decides for the rules that match a valid invocation. -/
def settle (inv : Invocation) (rules : List Rule) : Bool × Limits :=
  if rules = [] ∨ ∃ rule ∈ rules, rule.effect = .deny then (false, {})
  else ((checkInvocationLimits inv (effectiveLimits rules)).isNone, effectiveLimits rules)

def Policy.verdict (p : Policy) (inv : Invocation) : Bool × Limits :=
  ((p.evaluate inv).1.allowed, (p.evaluate inv).1.limits)

def Policy.matching (p : Policy) (inv : Invocation) : List Rule :=
  p.rules.filter (ruleMatches inv.trimmed)

lemma Policy.verdict_of_valid (hvalid : inv.trimmed.validate = .ok ()) :
    p.verdict inv = settle inv.trimmed (p.matching inv) := by
  cases hrules : matchingAllow inv.trimmed p.rules with
  | error rule =>
    have hdeny : ∃ rule ∈ p.matching inv, rule.effect = .deny := by
      by_contra hnone
      push Not at hnone
      rw [matchingAllow_eq_ok.mpr ⟨hnone, rfl⟩] at hrules
      cases hrules
    simp [verdict, evaluate, hvalid, hrules, settle, hdeny]
  | ok out =>
    obtain ⟨hnone, rfl⟩ := matchingAllow_eq_ok.mp hrules
    rw [← matching] at hnone hrules
    cases hmatching : p.matching inv with
    | nil => simp [verdict, evaluate, hvalid, hrules, hmatching, settle]
    | cons rule rest =>
      rw [hmatching] at hnone
      have hdenied : ¬∃ r ∈ rule :: rest, r.effect = .deny := fun ⟨r, hr, hdeny⟩ => hnone r hr hdeny
      simp only [verdict, evaluate, hvalid, hrules, hmatching, settle, hdenied, reduceCtorEq,
        or_self, if_false]

lemma Policy.verdict_of_invalid (h : inv.trimmed.validate ≠ .ok ()) :
    p.verdict inv = (false, {}) := by
  cases hvalid : inv.trimmed.validate with
  | ok _ => exact absurd hvalid h
  | error e => simp [verdict, evaluate, hvalid]

lemma Policy.limits_of_allowed (h : (p.evaluate inv).1.allowed = true) :
    (∀ rule ∈ p.matching inv, rule.effect ≠ .deny) ∧
      (p.evaluate inv).1.limits = effectiveLimits (p.matching inv) := by
  change (p.verdict inv).1 = true at h
  change _ ∧ (p.verdict inv).2 = _
  have hvalid : inv.trimmed.validate = .ok () := by
    by_contra hinvalid
    simp [verdict_of_invalid hinvalid] at h
  rw [verdict_of_valid hvalid, settle] at h ⊢
  split_ifs at h ⊢ with hno
  simp only [not_or, not_exists, not_and] at hno
  exact ⟨hno.2, rfl⟩

lemma field_zip (hfield : field ∈ Limits.fields) (f : ℤ → ℤ → ℤ) (a b : Limits) :
    field (a.zip f b) = f (field a) (field b) := by
  revert field
  simp [Limits.fields, Limits.zip]

lemma effectiveLimits_concat (rules : List Rule) (last : Rule) : effectiveLimits (rules ++ [last]) =
    minLimits (effectiveLimits rules) (normalizeRuleLimits last.limits) := List.foldl_concat ..

lemma effectiveLimits_perm (h : rules.Perm rules') :
    effectiveLimits rules = effectiveLimits rules' :=
  h.foldl_eq' (fun a _ b _ limits => by simp [minLimits, Limits.zip, min_right_comm]) _

lemma settle_perm (h : rules.Perm rules') : settle inv rules = settle inv rules' := by
  simp only [settle, effectiveLimits_perm h, h.mem_iff, ← List.length_eq_zero_iff, h.length_eq]

lemma Policy.verdict_perm (h : p.rules.Perm p'.rules) (inv : Invocation) :
    p.verdict inv = p'.verdict inv := by
  by_cases hvalid : inv.trimmed.validate = .ok ()
  · rw [verdict_of_valid hvalid, verdict_of_valid hvalid]
    exact settle_perm (h.filter _)
  · rw [verdict_of_invalid hvalid, verdict_of_invalid hvalid]

lemma Policy.verdict_cons {rule : Rule} (hskip : ruleMatches inv.trimmed rule = false) :
    { p with rules := rule :: p.rules }.verdict inv = p.verdict inv := by
  by_cases hvalid : inv.trimmed.validate = .ok ()
  · simp [verdict_of_valid hvalid, matching, hskip]
  · rw [verdict_of_invalid hvalid, verdict_of_invalid hvalid]

lemma Policy.denied_cons {rule : Rule} (hdeny : rule.effect = .deny)
    (h : (p.verdict inv).1 = false) :
    ({ p with rules := rule :: p.rules }.verdict inv).1 = false := by
  cases hmatches : ruleMatches inv.trimmed rule with
  | false => rwa [verdict_cons hmatches]
  | true =>
    by_cases hvalid : inv.trimmed.validate = .ok ()
    · rw [verdict_of_valid hvalid, settle,
        if_pos (.inr ⟨rule, by simp [matching, hmatches], hdeny⟩)]
    · rw [verdict_of_invalid hvalid]

lemma Policy.limits_cons {rule : Rule} (hallow : rule.effect = .allow)
    (h : (p.verdict inv).1 = true) (hfield : field ∈ Limits.fields) :
    field ({ p with rules := rule :: p.rules }.verdict inv).2 ≤ field (p.verdict inv).2 := by
  cases hmatches : ruleMatches inv.trimmed rule with
  | false => rw [verdict_cons hmatches]
  | true =>
    have hvalid : inv.trimmed.validate = .ok () := by
      by_contra hinvalid
      simp [verdict_of_invalid hinvalid] at h
    have hmatching : { p with rules := rule :: p.rules }.matching inv = rule :: p.matching inv := by
      simp [matching, hmatches]
    rw [verdict_of_valid hvalid] at h
    rw [verdict_of_valid hvalid, verdict_of_valid hvalid, hmatching]
    simp only [settle] at h ⊢
    split_ifs at h with hno
    have hno' : ¬(rule :: p.matching inv = [] ∨ ∃ r ∈ rule :: p.matching inv,
        r.effect = .deny) := by
      simp_all
    rw [if_neg hno', if_neg hno,
      effectiveLimits_perm (List.perm_append_singleton rule (p.matching inv)).symm,
      effectiveLimits_concat, minLimits, field_zip hfield]
    exact min_le_left ..

lemma isLeast_effectiveLimits (hfield : field ∈ Limits.fields) (rules : List Rule) :
    IsLeast {x | x = field hardLimits ∨ ∃ rule ∈ rules, x = field (normalizeRuleLimits rule.limits)}
      (field (effectiveLimits rules)) := by
  induction rules using List.reverseRecOn with
  | nil => simp [effectiveLimits]
  | append_singleton rules last ih =>
    rw [effectiveLimits_concat, minLimits, field_zip hfield, min_comm]
    have hinsert := ih.insert (field (normalizeRuleLimits last.limits))
    rw [IsLeast, mem_lowerBounds] at hinsert ⊢
    simpa [or_and_right, exists_or, or_imp, forall_and, or_comm, or_left_comm, and_comm,
      and_left_comm] using hinsert

/-- An invocation asks for no more than some limits. -/
structure Invocation.Within (inv : Invocation) (limits : Limits) : Prop where
  items : inv.items ≤ limits.maxItems
  inputBytes : inv.inputBytes ≤ limits.maxInputBytes
  parallel : inv.requestedParallel ≤ limits.maxParallel
  fanout : inv.fanout ≤ limits.maxFanout
  timeout : inv.requestedTimeoutMillis ≤ limits.maxDurationMillis

lemma checkInvocationLimits_eq_none {limits : Limits} :
    checkInvocationLimits inv limits = none ↔ inv.Within limits := by
  constructor
  · intro h
    simp only [checkInvocationLimits, List.find?_eq_none] at h
    constructor <;> simp_all
  · intro h
    simp [checkInvocationLimits, h.items, h.inputBytes, h.parallel, h.fanout, h.timeout]

lemma within_minLimits {a b : Limits} :
    inv.Within (minLimits a b) ↔ inv.Within a ∧ inv.Within b := by
  constructor
  · intro h
    have hitems := le_min_iff.mp h.items
    have hbytes := le_min_iff.mp h.inputBytes
    have hparallel := le_min_iff.mp h.parallel
    have hfanout := le_min_iff.mp h.fanout
    have htimeout := le_min_iff.mp h.timeout
    exact ⟨⟨hitems.1, hbytes.1, hparallel.1, hfanout.1, htimeout.1⟩,
      ⟨hitems.2, hbytes.2, hparallel.2, hfanout.2, htimeout.2⟩⟩
  · rintro ⟨ha, hb⟩
    exact ⟨le_min ha.items hb.items, le_min ha.inputBytes hb.inputBytes,
      le_min ha.parallel hb.parallel, le_min ha.fanout hb.fanout, le_min ha.timeout hb.timeout⟩

lemma within_effectiveLimits (rules : List Rule) : inv.Within (effectiveLimits rules) ↔
    inv.Within hardLimits ∧ ∀ rule ∈ rules, inv.Within (normalizeRuleLimits rule.limits) := by
  induction rules using List.reverseRecOn with
  | nil => simp [effectiveLimits]
  | append_singleton rules last ih =>
    rw [effectiveLimits_concat, within_minLimits, ih]
    simp [or_imp, forall_and, and_assoc]

/-- A rule as `normalizeRule` leaves it. -/
structure Rule.Normal (rule : Rule) : Prop where
  effect : rule.effect = .allow ∨ rule.effect = .deny
  limits : rule.effect = .allow → normalizeRuleLimits rule.limits = rule.limits

variable [Unicode]

lemma normalizeRule_normal {raw rule : Rule} (h : normalizeRule raw = .ok rule) : rule.Normal := by
  simp only [normalizeRule, bind_eq_ok, require_eq_ok, pure_eq_ok] at h
  obtain ⟨_, -, _, heffect, _, -, _, -, _, -, _, -, _, -, _, -, _, -, _, -, _, -, rfl⟩ := h
  refine ⟨by simpa using heffect, fun hallow => ?_⟩
  have hagain (x hard : ℤ) (hpos : 0 < hard) : (if (if x ≤ 0 then hard else x) ≤ 0 then hard
      else if x ≤ 0 then hard else x) = if x ≤ 0 then hard else x := by
    split_ifs <;> rfl
  simp only [if_pos hallow, normalizeRuleLimits, Limits.zip, hardLimits]
  congr 1 <;> exact hagain _ _ (by norm_num)

lemma addRules_normal {raw acc out : List Rule} (hacc : ∀ rule ∈ acc, rule.Normal)
    (h : raw.foldlM addRule acc = .ok out) : ∀ rule ∈ out, rule.Normal := by
  induction raw generalizing acc with
  | nil => exact pure_eq_ok.mp h ▸ hacc
  | cons first raw ih =>
    simp only [List.foldlM_cons, checks_ok, addRule, mapError_eq_ok] at h
    obtain ⟨_, ⟨rule, hrule, _, -, rfl⟩, hrest⟩ := h
    refine ih (fun r hr => ?_) hrest
    rcases List.mem_append.mp hr with hold | hnew
    · exact hacc r hold
    · exact List.mem_singleton.mp hnew ▸ normalizeRule_normal hrule

lemma normalizePolicy_normal {raw : Policy} (h : normalizePolicy raw = .ok p) :
    ∀ rule ∈ p.rules, rule.Normal := by
  simp only [normalizePolicy, bind_eq_ok, pure_eq_ok] at h
  obtain ⟨_, -, _, -, _, -, rules, hrules, rfl⟩ := h
  exact addRules_normal (by simp) hrules

/-- **The policy is an algebra.** An invocation is allowed exactly where a rule that matches it
allows it, none denies it, and it is within the hard limits and those of the rules that allow it;
and then each of its limits is the least of these. So neither the verdict nor the limits depend on
the order of the rules, a rule more that denies never allows anything, and one more that allows
never raises a limit. -/
theorem policy_algebra (raw p : Policy) (h : normalizePolicy raw = .ok p) (inv : Invocation) :
    (inv.trimmed.validate = .ok () →
      ((p.evaluate inv).1.allowed = true ↔ (∃ rule ∈ p.matching inv, rule.effect = .allow) ∧
        (∀ rule ∈ p.matching inv, rule.effect ≠ .deny) ∧ inv.trimmed.Within hardLimits ∧
        ∀ rule ∈ p.matching inv, rule.effect = .allow → inv.trimmed.Within rule.limits)) ∧
    ((p.evaluate inv).1.allowed = true → ∀ field ∈ Limits.fields,
      IsLeast {x | x = field hardLimits ∨
        ∃ rule ∈ p.matching inv, rule.effect = .allow ∧ x = field rule.limits}
        (field (p.evaluate inv).1.limits)) ∧
    (∀ p' : Policy, p'.rules.Perm p.rules → p'.verdict inv = p.verdict inv) ∧
    (∀ (p' : Policy) (rule : Rule), p'.rules.Perm (rule :: p.rules) → rule.effect = .deny →
      (p.verdict inv).1 = false → (p'.verdict inv).1 = false) ∧
    ∀ (p' : Policy) (rule : Rule), p'.rules.Perm (rule :: p.rules) → rule.effect = .allow →
      (p.verdict inv).1 = true → ∀ field ∈ Limits.fields,
      field (p'.verdict inv).2 ≤ field (p.verdict inv).2 := by
  have hallow : (∀ rule ∈ p.matching inv, rule.effect ≠ .deny) → ∀ rule ∈ p.matching inv,
      rule.effect = .allow ∧ normalizeRuleLimits rule.limits = rule.limits := by
    intro hnone rule hrule
    have hnormal := normalizePolicy_normal h rule (List.mem_of_mem_filter hrule)
    have heffect := hnormal.effect.resolve_right (hnone rule hrule)
    exact ⟨heffect, hnormal.limits heffect⟩
  have hadded {p' : Policy} {rule : Rule} (hperm : p'.rules.Perm (rule :: p.rules)) :
      p'.verdict inv = { p with rules := rule :: p.rules }.verdict inv :=
    Policy.verdict_perm hperm inv
  refine ⟨fun hvalid => ?_, fun hallowed field hfield => ?_,
    fun p' hperm => Policy.verdict_perm hperm inv, fun p' rule hperm hdeny hdenied => ?_,
    fun p' rule hperm hmore hallowed field hfield => ?_⟩
  · change (p.verdict inv).1 = true ↔ _
    rw [Policy.verdict_of_valid hvalid, settle]
    split_ifs with hno
    · refine ⟨by simp, ?_⟩
      rintro ⟨⟨rule, hrule, -⟩, hnone, -⟩
      rcases hno with hnil | ⟨denying, hmem, hdeny⟩
      · exact absurd hrule (hnil ▸ List.not_mem_nil)
      · exact absurd hdeny (hnone denying hmem)
    · simp only [not_or, not_exists, not_and] at hno
      obtain ⟨rule, hrule⟩ := List.exists_mem_of_ne_nil _ hno.1
      rw [Option.isNone_iff_eq_none, checkInvocationLimits_eq_none, within_effectiveLimits]
      constructor
      · rintro ⟨hhard, hrules⟩
        refine ⟨⟨rule, hrule, (hallow hno.2 rule hrule).1⟩, hno.2, hhard, fun r hr _ => ?_⟩
        exact (hallow hno.2 r hr).2 ▸ hrules r hr
      · rintro ⟨-, -, hhard, hrules⟩
        refine ⟨hhard, fun r hr => ?_⟩
        rw [(hallow hno.2 r hr).2]
        exact hrules r hr (hallow hno.2 r hr).1
  · obtain ⟨hnone, hlimits⟩ := Policy.limits_of_allowed hallowed
    obtain ⟨hmem, hleast⟩ := isLeast_effectiveLimits hfield (p.matching inv)
    rw [hlimits]
    constructor
    · refine hmem.imp_right ?_
      rintro ⟨rule, hrule, heq⟩
      exact ⟨rule, hrule, (hallow hnone rule hrule).1, by rw [heq, (hallow hnone rule hrule).2]⟩
    · intro x hx
      refine hleast (hx.imp_right ?_)
      rintro ⟨rule, hrule, -, heq⟩
      exact ⟨rule, hrule, by rw [heq, (hallow hnone rule hrule).2]⟩
  · rw [hadded hperm]
    exact Policy.denied_cons hdeny hdenied
  · rw [hadded hperm]
    exact Policy.limits_cons hmore hallowed hfield

end

/-- A rule for everyone who asks for no more than two items. -/
def allowTwo : Rule :=
  { name := "all", effect := .allow, sourceNodes := ["*"], targetNodes := ["*"], plugins := ["*"]
    operations := ["map"], limits := { hardLimits with maxItems := 2 } }

def smallPolicy : Policy :=
  { version := "weaverssh.mapreduce-policy.v1", default := .deny, rules := [allowTwo] }

def smallInvocation (items : ℤ) : Invocation :=
  { sourceNode := "a", targetNode := "b", operation := "map", plugin := "words", items }

def denyAll : Rule :=
  { name := "none", effect := .deny, sourceNodes := ["*"], targetNodes := ["*"], plugins := ["*"]
    operations := ["map"] }

theorem policy_algebra_small :
    (smallPolicy.evaluate (smallInvocation 2)).1.allowed = true ∧
    (smallPolicy.evaluate (smallInvocation 2)).1.limits.maxItems ≤ 2 ∧
    (smallPolicy.evaluate (smallInvocation 3)).1.allowed = false ∧
    ({ smallPolicy with rules := denyAll :: smallPolicy.rules }.verdict (smallInvocation 3)).1 =
      false ∧
    ({ smallPolicy with rules := smallPolicy.rules ++ smallPolicy.rules }.verdict
      (smallInvocation 2)).2.maxItems ≤ (smallPolicy.verdict (smallInvocation 2)).2.maxItems := by
  let _ := asciiCase
  have hnormal : normalizePolicy smallPolicy = .ok smallPolicy := by rfl
  have hwithin : (smallInvocation 2).trimmed.Within hardLimits ∧
      (smallInvocation 2).trimmed.Within { hardLimits with maxItems := 2 } := by
    constructor <;> constructor <;> decide +kernel
  have htwo := policy_algebra smallPolicy smallPolicy hnormal (smallInvocation 2)
  have hthree := policy_algebra smallPolicy smallPolicy hnormal (smallInvocation 3)
  have hmatching (items : ℤ) : smallPolicy.matching (smallInvocation items) = [allowTwo] := rfl
  have hallowed : (smallPolicy.evaluate (smallInvocation 2)).1.allowed = true := by
    refine (htwo.1 (by decide +kernel)).mpr ?_
    rw [hmatching]
    simpa [allowTwo] using hwithin
  have hdenied : (smallPolicy.evaluate (smallInvocation 3)).1.allowed = false := by
    rw [← Bool.not_eq_true, hthree.1 (by decide +kernel)]
    rintro ⟨-, -, -, hrules⟩
    have hitems := (hrules allowTwo (by simp [hmatching]) rfl).items
    exact absurd hitems (by decide +kernel)
  refine ⟨hallowed, ?_, hdenied, hthree.2.2.2.1 _ denyAll (.refl _) rfl hdenied,
    htwo.2.2.2.2 _ _ (.refl _) rfl hallowed _ (by simp [Limits.fields])⟩
  exact (htwo.2.1 hallowed Limits.maxItems (by simp [Limits.fields])).2
    (.inr ⟨allowTwo, by simp [hmatching], rfl, rfl⟩)

example : (smallPolicy.evaluate (smallInvocation 3)).2 = some (.limitExceeded ("items", 3, 2)) := by
  decide +kernel

end WeaverSSH.MapReduce
