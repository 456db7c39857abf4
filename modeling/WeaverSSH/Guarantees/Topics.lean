import WeaverSSH.Framework.Checks
import WeaverSSH.Framework.FilePath

/-!
# Topic filters

A filter of the package `pubsub` is split at its slashes: `+` stands for one level, and `#`, at the
end, for all that follow. `filterCovered` of the package `sessionevents` tells whether a filter that
is requested is within one that is allowed, level by level.
-/

namespace WeaverSSH.PubSub

open FilePath

def splitTopic (topic : Text) : List Text := if topic = [] then [] else split topic '/'

/-- The loop of `TopicMatches`, on the levels that are left. -/
def levelsMatch : List Text → List Text → Bool
  | [], levels => levels = []
  | part :: parts, levels =>
    if part = "#" then parts = []
    else match levels with
      | [] => false
      | level :: levels => (part = "+" || part = level) && levelsMatch parts levels

def topicMatches (filter topic : Text) : Bool := levelsMatch (splitTopic filter) (splitTopic topic)

inductive TopicErr where
  | required
  | tooLong
  | multiLevel
  | singleLevel
deriving DecidableEq, Repr

/-- The loop of `ValidateSubscribeTopic`. -/
def validateLevels : List Text → Except TopicErr Unit
  | [] => .ok ()
  | part :: parts => do
    require (.char '#' ∉ part || part = "#" && parts = []) .multiLevel
    require (.char '+' ∉ part || part = "+") .singleLevel
    validateLevels parts

def validateSubscribeTopic (topic : Text) : Except TopicErr Unit := do
  let topic := trimSpace topic
  require (topic ≠ []) .required
  require (len topic ≤ 65535) .tooLong
  validateLevels (split topic '/')

/-- The loop of `filterCovered`. -/
def levelsCovered : List Text → List Text → Bool
  | [], requested => requested = []
  | part :: parts, requested =>
    if part = "#" then parts = []
    else match requested with
      | [] => false
      | level :: requested =>
        level ≠ "#" && (part = "+" || level = part) && levelsCovered parts requested

def filterCovered (allowed requested : Text) : Bool :=
  let allowed := trimSpace allowed
  let requested := trimSpace requested
  allowed = requested || allowed = "#" || levelsCovered (split allowed '/') (split requested '/')

lemma levelsMatch_of_covered {parts requested levels : List Text}
    (hcovered : levelsCovered parts requested = true)
    (hmatch : levelsMatch requested levels = true) :
    levelsMatch parts levels = true := by
  induction parts generalizing requested levels with
  | nil =>
    obtain rfl : requested = [] := of_decide_eq_true hcovered
    exact hmatch
  | cons part parts ih =>
    unfold levelsCovered at hcovered
    unfold levelsMatch
    split_ifs at hcovered ⊢ with hall
    · exact hcovered
    · cases requested with
      | nil => cases hcovered
      | cons level requested =>
        simp only [checks_ok, Bool.or_eq_true] at hcovered
        obtain ⟨⟨hlevel, hpart⟩, hcovered⟩ := hcovered
        unfold levelsMatch at hmatch
        rw [if_neg hlevel] at hmatch
        cases levels with
        | nil => cases hmatch
        | cons found levels =>
          simp only [checks_ok, Bool.or_eq_true] at hmatch ⊢
          refine ⟨?_, ih hcovered hmatch.2⟩
          -- A level that has to be the same is no wildcard in the requested filter either.
          rcases hpart with hany | rfl
          · exact .inl hany
          · exact hmatch.1

lemma ne_nil_of_validate {topic : Text} (h : validateSubscribeTopic topic = .ok ())
    (htrim : trimSpace topic = topic) : splitTopic topic = split topic '/' := by
  simp only [validateSubscribeTopic, checks_ok] at h
  rw [splitTopic, if_neg (htrim ▸ h.1)]

/-- **Coverage is sound**: what a covered filter matches is matched by the one that covers it. -/
theorem covered_matches {allowed requested topic : Text}
    (hallowed : validateSubscribeTopic allowed = .ok ()) (htrim : trimSpace allowed = allowed)
    (hrequested : validateSubscribeTopic requested = .ok ())
    (htrim' : trimSpace requested = requested) (hcovered : filterCovered allowed requested = true)
    (hmatches : topicMatches requested topic = true) : topicMatches allowed topic = true := by
  simp only [filterCovered, htrim, htrim', Bool.or_eq_true, decide_eq_true_eq] at hcovered
  rcases hcovered with (rfl | rfl) | hlevels
  · exact hmatches
  · rfl
  · rw [topicMatches, ne_nil_of_validate hrequested htrim'] at hmatches
    rw [topicMatches, ne_nil_of_validate hallowed htrim]
    exact levelsMatch_of_covered hlevels hmatches

/-- The level above a filter that ends with `#` is within it. -/
theorem covered_matches_parent : topicMatches "a/#" "a" = true :=
  @covered_matches _ "a" _ (by decide) (by decide) (by decide) (by decide) (by decide)
    (by decide)

/-- Levels that a filter matches, with `x` for each `+` and `rest` for a `#`. -/
def sample (x : Text) (rest : List Text) : List Text → List Text
  | [] => []
  | level :: levels =>
    if level = "#" then rest else (if level = "+" then x else level) :: sample x rest levels

lemma levelsMatch_sample {levels : List Text} (h : validateLevels levels = .ok ()) (x : Text)
    (rest : List Text) : levelsMatch levels (sample x rest levels) = true := by
  induction levels with
  | nil => rfl
  | cons level levels ih =>
    simp only [validateLevels, checks_ok, Bool.or_eq_true] at h
    unfold levelsMatch sample
    split_ifs with hall hany
    · subst hall
      simpa [show Rune.char '#' ∈ text "#" by decide] using h.1
    · simp [hany, ih h.2.2]
    · simp [ih h.2.2]

/-- A `#` is told from levels by what it matches with nothing and with one level behind it. -/
lemma covered_of_sample {x : Text} {parts requested : List Text} (hx : x ∉ parts)
    (hnone : levelsMatch parts (sample x [] requested) = true)
    (hone : levelsMatch parts (sample x [x] requested) = true) :
    levelsCovered parts requested = true := by
  induction parts generalizing requested with
  | nil =>
    cases requested with
    | nil => rfl
    | cons level levels =>
      have hnil : sample x [x] (level :: levels) = [] := of_decide_eq_true hone
      unfold sample at hnil
      split_ifs at hnil
  | cons part parts ih =>
    unfold levelsMatch at hnone hone
    unfold levelsCovered
    split_ifs at hnone hone ⊢ with hall
    · exact hnone
    · cases requested with
      | nil => cases hnone
      | cons level levels =>
        rw [List.mem_cons, not_or] at hx
        by_cases hrest : level = "#"
        · rw [sample, if_pos hrest] at hnone
          cases hnone
        · rw [sample, if_neg hrest] at hnone hone
          simp only [checks_ok, Bool.or_eq_true] at hnone hone ⊢
          exact ⟨⟨hrest, by grind⟩, ih hx.2 hnone.2 hone.2⟩

lemma mem_sample {x name : Text} {rest levels : List Text} (hrest : rest ⊆ [x])
    (h : name ∈ sample x rest levels) : name = x ∨ name ∈ levels := by
  induction levels with
  | nil => cases h
  | cons level levels ih =>
    unfold sample at h
    grind

lemma sample_ne {x requested : Text} {rest : List Text} (hx : x ≠ [])
    (hrest : rest = [] ∨ rest = [x])
    (hvalid : validateLevels (split requested '/') = .ok ()) (hne : requested ≠ [])
    (hroot : requested ≠ "/#") : sample x rest (split requested '/') ≠ [[]] := by
  intro hempty
  have hslashed := slashed_split requested
  have hhash : Rune.char '#' ∈ text "#" := by decide
  rcases hsplit : split requested '/' with _ | ⟨level, _ | ⟨next, levels⟩⟩
  · simp [hsplit, sample] at hempty
  · grind [sample, slashed_singleton]
  · rw [hsplit] at hempty hvalid hslashed
    simp only [validateLevels, checks_ok, Bool.or_eq_true] at hvalid
    have hlast : slashed [[], text "#"] = text "/#" := rfl
    grind [sample]

lemma exists_splitTopic {levels : List Text} (hslash : ∀ level ∈ levels, slash ∉ level)
    (hne : levels ≠ [[]]) : ∃ topic, splitTopic topic = levels := by
  by_cases hnil : levels = []
  · exact ⟨[], hnil ▸ rfl⟩
  · have hsplit := split_slashed hslash hnil
    refine ⟨slashed levels, ?_⟩
    rw [splitTopic, if_neg fun hempty => hne ?_, hsplit]
    rw [← hsplit, hempty]
    rfl

end WeaverSSH.PubSub
