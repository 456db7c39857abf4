import WeaverSSH.AuthProof.Proof
import WeaverSSH.Framework.OrderedMap

/-!
# The rule engine

A rule set decides on an input, which is a topic and a map of facts: the first rule whose condition
holds of it says what is done, and otherwise a default.

To normalise an input is to trim the names of its facts (`cleanKey`). Of facts whose names come to
be the same the last one met stays, and the order in which a map is gone through is not fixed
(`FactOrders`).
-/

namespace WeaverSSH.Rules

open AuthProof OrderedMap Option

abbrev Facts := OrderedMap Text Text

abbrev FactOrders := Orders Text Text

inductive Action where
  | allow
  | deny
  | drop
  | rewrite
  | tag
  | audit
  | other (value : Text)
deriving DecidableEq, Repr

inductive Operator where
  | equals
  | notEquals
  | isIn
  | notIn
  | contains
  | hasPrefix
  | hasSuffix
  | glob
  | matches
  | topicMatches
  | exists
  | absent
  | gt
  | gte
  | lt
  | lte
  | cidrContains
  | other (value : Text)
deriving DecidableEq, Repr

structure Input where
  topic : Text
  facts : Facts
deriving DecidableEq

/-- All parts, any part, the opposite of a part, or a comparison. -/
inductive Condition where
  | mk (all any : List Condition) (not : Option Condition) (field op value : Text)
    (values : List Text)

structure Rule where
  id : Text
  description : Text
  when : Condition
  action : Action
  reason : Text
  setFields : Facts
  rewriteTopic : Text
  tags : List Text

structure RuleSet where
  version : Text
  defaultAction : Action
  rules : List Rule

structure Decision where
  version : Text
  matched : Bool := false
  ruleID : Text := []
  action : Action
  allowed : Bool
  reason : Text
  topic : Text
  fields : Facts
  setFields : Facts := .empty
  tags : List Text := []
deriving DecidableEq

/-- What is wrong with a condition, and in which part of it. -/
inductive ConditionErr where
  | all (index : ℕ) (err : ConditionErr)
  | any (index : ℕ) (err : ConditionErr)
  | not (err : ConditionErr)
  | mixed
  | several
  | fieldRequired
  | operator (op : Text)
  | requiresValues (op : Operator)
  | requiresValue (op : Operator)
deriving DecidableEq, Repr

/-- Why a comparison has no value. -/
inductive MatchErr where
  | pattern (pattern : Text)
  | fieldNotNumeric (value : Text)
  | ruleNotNumeric (value : Text)
  | notAddress (value : Text)
  | notNetwork (value : Text)
  | operator (op : Operator)
deriving DecidableEq, Repr

inductive RuleErr where
  | version (version : Text)
  | defaultAction (action : Action)
  | ruleID (index : ℕ)
  | ruleAction (id : Text) (action : Action)
  | rewriteTopic (id : Text)
  | rewriteOnly (id : Text)
  | condition (id : Text) (err : ConditionErr)
  | evaluation (id : Text) (err : MatchErr)
deriving DecidableEq, Repr

/-- What the standard library compares: shell patterns, regular expressions, numbers and networks.
A pattern that is none has no value. -/
structure Library where
  glob : Text → Text → Option Bool
  regexp : Text → Text → Option Bool
  parseFloat : Text → Option Float
  parseIP : Text → Option (List UInt8)
  parseCIDR : Text → Option (List UInt8 → Bool)

def engineVersion : Text := "weaverssh.rules.v1"

def actionNames : List (Text × Action) :=
  [("allow", .allow), ("deny", .deny), ("drop", .drop), ("rewrite", .rewrite),
    ("tag", .tag), ("audit", .audit)]

def operatorNames : List (Text × Operator) :=
  [([], .equals), (text "eq", .equals), (text "equals", .equals), (text "==", .equals),
    (text "=", .equals), (text "ne", .notEquals), (text "neq", .notEquals),
    (text "not_eq", .notEquals), (text "not_equals", .notEquals), (text "!=", .notEquals),
    (text "in", .isIn), (text "one_of", .isIn), (text "not_in", .notIn),
    (text "not-one-of", .notIn), (text "contains", .contains), (text "prefix", .hasPrefix),
    (text "has_prefix", .hasPrefix), (text "suffix", .hasSuffix), (text "has_suffix", .hasSuffix),
    (text "glob", .glob), (text "matches", .matches), (text "regex", .matches),
    (text "regexp", .matches), (text "topic_matches", .topicMatches),
    (text "mqtt_matches", .topicMatches), (text "mqtt_topic_matches", .topicMatches),
    (text "exists", .exists), (text "absent", .absent), (text "missing", .absent),
    (text "gt", .gt), (text ">", .gt), (text "gte", .gte), (text ">=", .gte), (text "lt", .lt),
    (text "<", .lt), (text "lte", .lte), (text "<=", .lte), (text "cidr_contains", .cidrContains)]

/-! ## Inputs -/

/-- The name a fact or a field gets: the trimmed one, if it is not blank. -/
def cleanKey (key : Text) : Option Text := if trimSpace key = [] then none else some (trimSpace key)

def cleanMap (σ : FactOrders) (m : Facts) : Facts :=
  OrderedMap.empty.collect cleanKey (σ [] m.entries)

def update (σ : FactOrders) (m m' : Facts) : Facts := m.collect some (σ [] m'.entries)

def newInput (σ : FactOrders) (topic : Text) (facts : Facts) : Input :=
  let cleaned := cleanMap σ facts
  ⟨trimSpace topic,
    if trimSpace topic ≠ [] then cleaned.put "topic" (trimSpace topic) else cleaned⟩

def Input.normalized (σ : FactOrders) (i : Input) : Input := newInput σ i.topic i.facts

def Input.value (i : Input) (field : Text) : Option Text :=
  let field := trimSpace field
  if field = [] then none
  else if field = "topic" then
    if trimSpace i.topic ≠ [] then some (trimSpace i.topic) else none
  else i.facts.get field

/-! ## Conditions -/

def cleanList (l : List Text) : List Text := distinctTrimmed [] l

def normalizedValues (value : Text) (values : List Text) : List Text :=
  if cleanList values = [] ∧ trimSpace value ≠ [] then
    ((split value ',').map trimSpace).filter (· ≠ [])
  else cleanList values

/-- `topicMatches`, from a part of the filter on. -/
def topicParts : List Text → List Text → Bool
  | [], topic => topic = []
  | part :: filter, topic =>
    if part = "#" then filter = []
    else
      match topic with
      | [] => false
      | name :: topic => (part = "+" || part = name) && topicParts filter topic

def topicMatches (filter topic : Text) : Bool :=
  trimSpace filter ≠ [] && trimSpace topic ≠ [] &&
    topicParts (split (trimSpace filter) '/') (split (trimSpace topic) '/')

def compareNumber (lib : Library) (compare : Float → Float → Bool) (actual want : Text) :
    Except MatchErr Bool := do
  let a ← (lib.parseFloat (trimSpace actual)).elim (.error (.fieldNotNumeric actual)) .ok
  let w ← (lib.parseFloat (trimSpace want)).elim (.error (.ruleNotNumeric want)) .ok
  return compare a w

def cidrContains (lib : Library) (cidr ip : Text) : Except MatchErr Bool := do
  let ip ← (lib.parseIP (trimSpace ip)).elim (.error (.notAddress ip)) .ok
  let network ← (lib.parseCIDR (trimSpace cidr)).elim (.error (.notNetwork cidr)) .ok
  return network ip

/-- `evalAtomic`, with the value of the field where there is one. -/
def evalAtomic (lib : Library) (op : Operator) (actual : Option Text) (value : Text)
    (values : List Text) : Except MatchErr Bool :=
  match op, actual with
  | .exists, actual => .ok (actual.getD [] ≠ [])
  | .absent, actual => .ok (actual.getD [] = [])
  | _, none => .ok false
  | .equals, some actual => .ok (actual = value)
  | .notEquals, some actual => .ok (actual ≠ value)
  | .isIn, some actual => .ok ((normalizedValues value values).contains actual)
  | .notIn, some actual => .ok (!(normalizedValues value values).contains actual)
  | .contains, some actual => .ok (bytes value <:+: bytes actual)
  | .hasPrefix, some actual => .ok ((bytes value).isPrefixOf (bytes actual))
  | .hasSuffix, some actual => .ok ((bytes value).isSuffixOf (bytes actual))
  | .glob, some actual => (lib.glob value actual).elim (.error (.pattern value)) .ok
  | .matches, some actual => (lib.regexp value actual).elim (.error (.pattern value)) .ok
  | .topicMatches, some actual => .ok (topicMatches value actual)
  | .gt, some actual => compareNumber lib (fun a w => a > w) actual value
  | .gte, some actual => compareNumber lib (fun a w => a ≥ w) actual value
  | .lt, some actual => compareNumber lib (fun a w => a < w) actual value
  | .lte, some actual => compareNumber lib (fun a w => a ≤ w) actual value
  | .cidrContains, some actual => cidrContains lib value actual
  | .other name, some _ => .error (.operator (.other name))

section

variable [Unicode]

def normalizeAction : Action → Action
  | .other value =>
    let name := trimSpace (toLower value)
    (actionNames.lookup name).getD (.other name)
  | action => action

def actionAllowed (action : Action) : Bool :=
  match normalizeAction action with
  | .allow | .rewrite | .tag | .audit => true
  | _ => false

def normalizeOperator (op : Text) : Operator :=
  let name := trimSpace (toLower op)
  (operatorNames.lookup name).getD (.other name)

def validateAtomic (field op value : Text) (values : List Text) : Except ConditionErr Unit := do
  let operator := normalizeOperator op
  require (trimSpace field ≠ [] || operator = .topicMatches) .fieldRequired
  match operator with
  | .other _ => .error (.operator op)
  | .exists | .absent => return ()
  | .isIn | .notIn =>
    require (normalizedValues value values ≠ []) (.requiresValues operator)
  | _ => require (value ≠ []) (.requiresValue operator)

mutual

def Condition.validate : Condition → Except ConditionErr Unit
  | .mk all any not field op value values => do
    validateAll 0 all
    validateAny 0 any
    validateNot not
    let compound := (if all ≠ [] then 1 else 0) + (if any ≠ [] then 1 else 0) +
      if not.isSome then 1 else 0
    let atomic := trimSpace field ≠ [] || trimSpace op ≠ [] || value ≠ [] || values ≠ []
    require (!(0 < compound && atomic)) .mixed
    require (compound ≤ 1) .several
    if atomic then validateAtomic field op value values else return ()

def validateAll : ℕ → List Condition → Except ConditionErr Unit
  | _, [] => .ok ()
  | i, c :: rest => do
    (c.validate).mapError (.all i)
    validateAll (i + 1) rest

def validateAny : ℕ → List Condition → Except ConditionErr Unit
  | _, [] => .ok ()
  | i, c :: rest => do
    (c.validate).mapError (.any i)
    validateAny (i + 1) rest

def validateNot : Option Condition → Except ConditionErr Unit
  | none => .ok ()
  | some c => (c.validate).mapError .not

end

mutual

/-- `Condition.Match`. -/
def Condition.holds (lib : Library) : FactOrders → Condition → Input → Except MatchErr Bool
  | σ, .mk all any not field op value values, input =>
    let input := input.normalized (σ.sub 0)
    if all ≠ [] then holdsAll lib (σ.sub 1) all input
    else if any ≠ [] then holdsAny lib (σ.sub 2) any input
    else if not.isSome then holdsNot lib (σ.sub 3) not input
    else if trimSpace field = [] ∧ trimSpace op = [] ∧ value = [] ∧ values = [] then .ok true
    else
      let operator := normalizeOperator op
      let field :=
        if trimSpace field = [] ∧ operator = .topicMatches then text "topic" else trimSpace field
      evalAtomic lib operator (input.value field) value values

def holdsAll (lib : Library) : FactOrders → List Condition → Input → Except MatchErr Bool
  | _, [], _ => .ok true
  | σ, c :: rest, input => do
    if ← c.holds lib (σ.sub 0) input then holdsAll lib (σ.sub 1) rest input else return false

def holdsAny (lib : Library) : FactOrders → List Condition → Input → Except MatchErr Bool
  | _, [], _ => .ok false
  | σ, c :: rest, input => do
    if ← c.holds lib (σ.sub 0) input then return true else holdsAny lib (σ.sub 1) rest input

def holdsNot (lib : Library) : FactOrders → Option Condition → Input → Except MatchErr Bool
  | _, none, _ => .ok true
  | σ, some c, input => do
    let ok ← c.holds lib σ input
    return !ok

end

/-! ## Rules -/

def Rule.normalize (σ : FactOrders) (index : ℕ) (r : Rule) : Except RuleErr Rule := do
  let id := trimSpace r.id
  require (id ≠ []) (.ruleID index)
  let action := if normalizeAction r.action = .other [] then .deny else normalizeAction r.action
  requireNone (match action with | .other value => some value | _ => none) fun _ =>
    .ruleAction id action
  let rewriteTopic := trimSpace r.rewriteTopic
  require (!(action = .rewrite && rewriteTopic = [])) (.rewriteTopic id)
  require (!(action ≠ .rewrite && rewriteTopic ≠ [])) (.rewriteOnly id)
  r.when.validate.mapError (.condition id)
  return { r with
    id, action, rewriteTopic
    description := trimSpace r.description
    reason := trimSpace r.reason
    setFields := cleanMap σ r.setFields
    tags := cleanList r.tags }

def normalizeRules (σ : FactOrders) : ℕ → List Rule → Except RuleErr (List Rule)
  | _, [] => .ok []
  | i, r :: rest => do
    let r ← r.normalize (σ.sub i) i
    let rest ← normalizeRules σ (i + 1) rest
    return r :: rest

def RuleSet.normalize (σ : FactOrders) (rs : RuleSet) : Except RuleErr RuleSet := do
  let version := orElse (trimSpace rs.version) engineVersion
  require (version = engineVersion) (.version version)
  let defaultAction :=
    if normalizeAction rs.defaultAction = .other [] then .deny
    else normalizeAction rs.defaultAction
  requireNone (match defaultAction with | .other value => some value | _ => none) fun _ =>
    .defaultAction defaultAction
  let rules ← normalizeRules σ 0 rs.rules
  return { version, defaultAction, rules }

def Rule.decision (σ : FactOrders) (r : Rule) (input : Input) : Decision :=
  { version := engineVersion, matched := true, ruleID := r.id, action := r.action
    allowed := actionAllowed r.action
    reason := if r.reason = [] then text "matched rule " ++ r.id else r.reason
    topic := if r.action = .rewrite then r.rewriteTopic else input.topic
    fields := update σ input.facts r.setFields, setFields := r.setFields, tags := r.tags }

def firstRule (lib : Library) : FactOrders → List Rule → Input → Except RuleErr (Option Decision)
  | _, [], _ => .ok none
  | σ, r :: rest, input => do
    if ← (r.when.holds lib (σ.sub 0) input).mapError (.evaluation r.id) then
      return some (r.decision (σ.sub 1) input)
    else firstRule lib (σ.sub 2) rest input

def RuleSet.evaluate (lib : Library) (σ : FactOrders) (rs : RuleSet) (input : Input) :
    Except RuleErr Decision := do
  let normalized ← rs.normalize (σ.sub 0)
  let input := input.normalized (σ.sub 1)
  let first ← firstRule lib (σ.sub 2) normalized.rules input
  return first.getD
    { version := engineVersion, action := normalized.defaultAction
      allowed := actionAllowed normalized.defaultAction, reason := "no rule matched"
      topic := input.topic, fields := input.facts }

end

/-! ## Normal inputs

A map whose names are trimmed already is gone through in any order to the same effect.
-/

def Keyed (m : Facts) : Prop := ∀ entry ∈ m.entries, cleanKey entry.1 = some entry.1

structure Input.Normal (i : Input) : Prop where
  topic : trimSpace i.topic = i.topic
  facts : Keyed i.facts
  topic_fact : i.topic ≠ [] → i.facts.get "topic" = some i.topic

variable {key : Text}

lemma cleanKey_of_cleanKey {key key' : Text} (h : cleanKey key = some key') :
    cleanKey key' = some key' := by
  unfold cleanKey at h ⊢
  split_ifs at h with hblank
  cases h
  rw [trimSpace_trimSpace, if_neg hblank]

variable {m : Facts} {σ : FactOrders}

lemma agreed_of_kept {name : Text → Option Text}
    (h : ∀ entry ∈ m.entries, name entry.1 = some entry.1) (key : Text) :
    Agreed name m.entries key := by
  intro entry hentry entry' hentry' hname hname'
  rw [h entry hentry, some.injEq] at hname
  rw [h entry' hentry', some.injEq] at hname'
  have hget := get_eq_some.mpr (hname ▸ hentry : (key, entry.2) ∈ m.entries)
  have hget' := get_eq_some.mpr (hname' ▸ hentry' : (key, entry'.2) ∈ m.entries)
  exact some.inj (hget.symm.trans hget')

lemma cleanMap_congr {σ' : FactOrders} (hσ : σ.Fair) (hσ' : σ'.Fair)
    (h : ∀ key, Agreed cleanKey m.entries key) : cleanMap σ m = cleanMap σ' m :=
  ext_get fun key => (get_collect_perm (hσ [] m.entries) (h key)).trans
      (get_collect_perm (hσ' [] m.entries) (h key)).symm

lemma cleanMap_keyed (σ : FactOrders) (m : Facts) : Keyed (cleanMap σ m) := by
  intro entry hentry
  rcases exists_of_get_collect (get_eq_some.mpr hentry) with
    hnone | ⟨raw, -, hname, -⟩
  · cases hnone
  · exact cleanKey_of_cleanKey hname

lemma cleanMap_of_keyed (hσ : σ.Fair) (h : Keyed m) : cleanMap σ m = m := by
  refine ext_get fun key => ext fun value => ?_
  constructor
  · intro hget
    rcases exists_of_get_collect hget with hnone | ⟨entry, hmem, hname, rfl⟩
    · cases hnone
    · rw [(hσ [] m.entries).mem_iff] at hmem
      rw [h entry hmem, some.injEq] at hname
      rw [get_eq_some, ← hname]
      exact hmem
  · intro hget
    have hmem := get_eq_some.mp hget
    rw [cleanMap, get_collect_perm (hσ [] m.entries) (agreed_of_kept h key)]
    exact get_collect_of_agreed (agreed_of_kept h key) hmem (h _ hmem)

lemma get_update (hσ : σ.Fair) (m m' : Facts) (key : Text) :
    (update σ m m').get key = (m'.get key).or (m.get key) := by
  have hkept : Agreed some m'.entries key := agreed_of_kept (fun _ _ => rfl) key
  rw [update, get_collect_perm (hσ [] m'.entries) hkept]
  cases hget : m'.get key with
  | some value =>
    exact get_collect_of_agreed hkept (get_eq_some.mp hget) rfl
  | none =>
    refine (get_collect_of_ne fun entry hmem hname => ?_).trans (none_or).symm
    have hentry : (key, entry.2) ∈ m'.entries := by
      rw [← some.inj hname]
      exact hmem
    rw [get_eq_some.mpr hentry] at hget
    cases hget

lemma Keyed.update (hσ : σ.Fair) {m' : Facts} (h : Keyed m) (h' : Keyed m') :
    Keyed (update σ m m') := by
  intro entry hentry
  have hget := get_eq_some.mpr hentry
  rw [get_update hσ, or_eq_some_iff] at hget
  rcases hget with hget | ⟨-, hget⟩
  · exact h' _ (get_eq_some.mp hget)
  · exact h _ (get_eq_some.mp hget)

lemma Keyed.put (h : Keyed m) (hkey : cleanKey key = some key)
    (value : Text) : Keyed (m.put key value) := by
  intro entry hentry
  have hget := get_eq_some.mpr hentry
  rw [get_put] at hget
  split_ifs at hget with heq
  · rw [heq]
    exact hkey
  · exact h _ (get_eq_some.mp hget)

lemma newInput_normal (σ : FactOrders) (topic : Text) (facts : Facts) :
    (newInput σ topic facts).Normal := by
  have hkey : cleanKey "topic" = some "topic" := by decide
  refine ⟨trimSpace_trimSpace topic, ?_, fun htopic => ?_⟩
  · unfold newInput
    dsimp only
    split_ifs
    · exact (cleanMap_keyed σ facts).put hkey _
    · exact cleanMap_keyed σ facts
  · unfold newInput at htopic ⊢
    dsimp only at htopic ⊢
    rw [if_pos htopic, get_put, if_pos rfl]

variable {topic : Text}

lemma get_newInput {facts : Facts} (h : key = "topic" → trimSpace topic = []) :
    (newInput σ topic facts).facts.get key = (cleanMap σ facts).get key := by
  unfold newInput
  dsimp only
  split_ifs with htopic
  · rw [get_put, if_neg fun hkey => htopic (h hkey)]
  · rfl

lemma newInput_congr {σ' : FactOrders} {facts facts' : Facts}
    (h : ∀ key, (key = text "topic" → trimSpace topic = []) →
      (cleanMap σ facts).get key = (cleanMap σ' facts').get key) :
    newInput σ topic facts = newInput σ' topic facts' := by
  unfold newInput
  dsimp only
  congr 1
  by_cases htopic : trimSpace topic = []
  · rw [if_neg (not_not.mpr htopic), if_neg (not_not.mpr htopic)]
    exact ext_get fun key => h key fun _ => htopic
  · rw [if_pos htopic, if_pos htopic]
    refine ext_get fun key => ?_
    rw [get_put, get_put]
    by_cases hkey : key = text "topic"
    · rw [if_pos hkey, if_pos hkey]
    · rw [if_neg hkey, if_neg hkey]
      exact h key fun heq => absurd heq hkey

variable {i : Input}

lemma Input.normalized_of_normal (hσ : σ.Fair) (h : i.Normal) : i.normalized σ = i := by
  obtain ⟨topic, facts⟩ := i
  have htopic : trimSpace topic = topic := h.topic
  have hfacts : cleanMap σ facts = facts := cleanMap_of_keyed hσ h.facts
  unfold Input.normalized newInput
  dsimp only
  rw [hfacts, htopic]
  congr 1
  split_ifs with hne
  · refine ext_get fun key => ?_
    rw [get_put]
    split_ifs with hkey
    · rw [hkey]
      exact (h.topic_fact hne).symm
    · rfl
  · rfl

/-! ## One value in any order -/

section

variable [Unicode] {lib : Library}

mutual

lemma Condition.holds_congr : ∀ (c : Condition) {σ σ' : FactOrders} {i : Input}, σ.Fair → σ'.Fair →
    i.Normal → c.holds lib σ i = c.holds lib σ' i
  | .mk all any not field op value values, σ, σ', i, hσ, hσ', hi => by
    simp only [Condition.holds, Input.normalized_of_normal (hσ.sub 0) hi,
      Input.normalized_of_normal (hσ'.sub 0) hi, holdsAll_congr all (hσ.sub 1) (hσ'.sub 1) hi,
      holdsAny_congr any (hσ.sub 2) (hσ'.sub 2) hi, holdsNot_congr not (hσ.sub 3) (hσ'.sub 3) hi]

lemma holdsAll_congr : ∀ (cs : List Condition) {σ σ' : FactOrders} {i : Input}, σ.Fair → σ'.Fair →
    i.Normal → holdsAll lib σ cs i = holdsAll lib σ' cs i
  | [], _, _, _, _, _, _ => by simp only [holdsAll]
  | c :: rest, σ, σ', i, hσ, hσ', hi => by
    simp only [holdsAll, Condition.holds_congr c (hσ.sub 0) (hσ'.sub 0) hi,
      holdsAll_congr rest (hσ.sub 1) (hσ'.sub 1) hi]

lemma holdsAny_congr : ∀ (cs : List Condition) {σ σ' : FactOrders} {i : Input}, σ.Fair → σ'.Fair →
    i.Normal → holdsAny lib σ cs i = holdsAny lib σ' cs i
  | [], _, _, _, _, _, _ => by simp only [holdsAny]
  | c :: rest, σ, σ', i, hσ, hσ', hi => by
    simp only [holdsAny, Condition.holds_congr c (hσ.sub 0) (hσ'.sub 0) hi,
      holdsAny_congr rest (hσ.sub 1) (hσ'.sub 1) hi]

lemma holdsNot_congr : ∀ (c : Option Condition) {σ σ' : FactOrders} {i : Input}, σ.Fair →
    σ'.Fair → i.Normal → holdsNot lib σ c i = holdsNot lib σ' c i
  | none, _, _, _, _, _, _ => by simp only [holdsNot]
  | some c, σ, σ', i, hσ, hσ', hi => by
    simp only [holdsNot, Condition.holds_congr c hσ hσ' hi]

end

omit [Unicode] in
/-- The fields a rule sets agree where they get one name. -/
def Rule.Settled (r : Rule) : Prop := ∀ key, Agreed cleanKey r.setFields.entries key

omit [Unicode] in
def RuleSet.Settled (rs : RuleSet) : Prop := ∀ r ∈ rs.rules, r.Settled

variable {σ σ' : FactOrders} {rs : RuleSet}

lemma Rule.normalize_congr (hσ : σ.Fair) (hσ' : σ'.Fair) {r : Rule}
    (h : r.Settled) (index : ℕ) : r.normalize σ index = r.normalize σ' index := by
  simp only [Rule.normalize, cleanMap_congr hσ hσ' h]

variable {rules : List Rule}

lemma normalizeRules_congr (hσ : σ.Fair) (hσ' : σ'.Fair) (h : ∀ r ∈ rules, r.Settled) (index : ℕ) :
    normalizeRules σ index rules = normalizeRules σ' index rules := by
  induction rules generalizing index with
  | nil => rfl
  | cons r rest ih =>
    obtain ⟨hr, hrest⟩ := List.forall_mem_cons.mp h
    simp only [normalizeRules, Rule.normalize_congr (hσ.sub index) (hσ'.sub index) hr, ih hrest]

lemma RuleSet.normalize_congr (hσ : σ.Fair) (hσ' : σ'.Fair)
    (h : rs.Settled) : rs.normalize σ = rs.normalize σ' := by
  simp only [RuleSet.normalize, normalizeRules_congr hσ hσ' h]

lemma keyed_of_normalizeRules {index : ℕ} {rules out : List Rule}
    (h : normalizeRules σ index rules = .ok out) : ∀ r ∈ out, Keyed r.setFields := by
  induction rules generalizing index out with
  | nil =>
    cases h
    intro r hr
    cases hr
  | cons r rest ih =>
    simp only [normalizeRules, checks_ok] at h
    obtain ⟨first, hfirst, others, hothers, rfl⟩ := h
    simp only [Rule.normalize, checks_ok] at hfirst
    obtain ⟨-, -, -, -, -, -, -, -, -, -, rfl⟩ := hfirst
    exact List.forall_mem_cons.mpr ⟨cleanMap_keyed _ _, ih hothers⟩

variable {out : RuleSet}

lemma RuleSet.keyed_of_normalize
    (h : rs.normalize σ = .ok out) : ∀ r ∈ out.rules, Keyed r.setFields := by
  simp only [RuleSet.normalize, bind_eq_ok, pure_eq_ok] at h
  obtain ⟨-, -, -, -, rules, hrules, rfl⟩ := h
  exact keyed_of_normalizeRules hrules

lemma RuleSet.settled_of_normalize (h : rs.normalize σ = .ok out) : out.Settled :=
  fun r hr => agreed_of_kept (RuleSet.keyed_of_normalize h r hr)

omit [Unicode] in
lemma update_congr (hσ : σ.Fair) (hσ' : σ'.Fair) (m m' : Facts) : update σ m m' = update σ' m m' :=
  ext_get fun key => by rw [get_update hσ, get_update hσ']

lemma firstRule_congr (hσ : σ.Fair) (hσ' : σ'.Fair) (hi : i.Normal)
    (rules : List Rule) : firstRule lib σ rules i = firstRule lib σ' rules i := by
  induction rules generalizing σ σ' with
  | nil => rfl
  | cons r rest ih =>
    simp only [firstRule, Condition.holds_congr r.when (hσ.sub 0) (hσ'.sub 0) hi, Rule.decision,
      update_congr (hσ.sub 1) (hσ'.sub 1), ih (hσ.sub 2) (hσ'.sub 2)]

lemma RuleSet.evaluate_congr (hσ : σ.Fair) (hσ' : σ'.Fair) (h : rs.Settled) (hi : i.Normal) :
    rs.evaluate lib σ i = rs.evaluate lib σ' i := by
  simp only [RuleSet.evaluate, RuleSet.normalize_congr (hσ.sub 0) (hσ'.sub 0) h,
    Input.normalized_of_normal (hσ.sub 1) hi, Input.normalized_of_normal (hσ'.sub 1) hi,
    firstRule_congr (hσ.sub 2) (hσ'.sub 2) hi]

omit [Unicode] in
/-- What a decision says of the facts: those of the input, but for the fields a matching rule
sets. -/
structure Decision.Of (d : Decision) (i : Input) : Prop where
  keyed : Keyed d.setFields
  fields : ∀ key, d.fields.get key = (d.setFields.get key).or (i.facts.get key)
  matched : d.matched = false → d.setFields = .empty

variable {d : Decision}

lemma firstRule_of (hσ : σ.Fair) (hrules : ∀ r ∈ rules, Keyed r.setFields)
    (h : firstRule lib σ rules i = .ok (some d)) : d.Of i := by
  induction rules generalizing σ with
  | nil => cases h
  | cons r rest ih =>
    obtain ⟨hr, hrest⟩ := List.forall_mem_cons.mp hrules
    simp only [firstRule, bind_eq_ok] at h
    obtain ⟨holds, -, h⟩ := h
    cases holds with
    | true =>
      cases h
      exact ⟨hr, get_update (hσ.sub 1) _ _, fun hfalse => by cases hfalse⟩
    | false => exact ih (hσ.sub 2) hrest h

lemma RuleSet.evaluate_of (hσ : σ.Fair)
    (hi : i.Normal) (h : rs.evaluate lib σ i = .ok d) : d.Of i := by
  simp only [RuleSet.evaluate, checks_ok, Input.normalized_of_normal (hσ.sub 1) hi] at h
  obtain ⟨normalized, hnormalized, first, hfirst, rfl⟩ := h
  cases first with
  | some d => exact firstRule_of (hσ.sub 2) (RuleSet.keyed_of_normalize hnormalized) hfirst
  | none => exact ⟨by rintro _ ⟨⟩, fun _ => rfl, fun _ => rfl⟩

end

end WeaverSSH.Rules
