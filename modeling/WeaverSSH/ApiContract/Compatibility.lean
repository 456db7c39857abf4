import WeaverSSH.Framework.Checks
import WeaverSSH.Framework.Digest
import WeaverSSH.Framework.FilePath
import WeaverSSH.Framework.Json

/-!
# The compatibility gate between two contract locks

A lock records the contracts of a catalog, each with its policy and its public symbols.
`CompareLocks` judges a contract that is gone by the policy the previous lock recorded, but one that
is still there by that of the new lock, so that a contract can leave its promise and break it in one
change.
-/

namespace WeaverSSH.ApiContract

open List

/-- `Compatibility`; a text that is no policy is `unknown`. -/
inductive Compatibility where
  | none
  | backward
  | forward
  | full
  | unknown (name : Text)
deriving DecidableEq, Repr

/-- The policies that forbid removing a symbol. -/
def Compatibility.promises : Compatibility → Bool
  | .backward | .full => true
  | _ => false

structure LockedEntry where
  id : Text
  version : Text
  kind : Text := "openapi"
  path : Text := "api.json"
  stability : Text := "stable"
  compatibility : Compatibility
  sha256 : Text
  symbols : List Text := []
deriving DecidableEq, Repr

structure Lock where
  version : Text := "weaverssh.api-contract-lock.v1"
  catalogName : Text
  revision : Text
  catalogSHA256 : Text
  contracts : List LockedEntry
deriving DecidableEq, Repr

def tokenRune : Rune → Bool
  | .char c => c = '-' || c = '_' || c = '.' || c.isAlphanum
  | .raw _ => false

/-- `validToken` with the bound of all its callers. -/
def validToken (value : Text) : Bool :=
  let value := trimSpace value
  value ≠ [] && len value ≤ 128 && value.all tokenRune

def validVersion (value : Text) : Bool := validToken value && value.any Json.isDigit

/-- `validSHA256`; lower-case digits are their own lower case. -/
def validSHA256 (value : Text) : Bool := len value == 64 && value.all Rune.isLowerHex

def validKind (kind : Text) : Bool :=
  kind ∈ ["openapi", "openrpc", "asyncapi", "json-schema", "protobuf",
    "protobuf-descriptor"].map text

def validStability (stability : Text) : Bool :=
  stability ∈ ["experimental", "beta", "stable", "deprecated"].map text

def Compatibility.valid : Compatibility → Bool
  | .unknown _ => false
  | _ => true

def LockedEntry.key (entry : LockedEntry) : Text := entry.id ++ text "@" ++ entry.version

/-- What `Lock.Validate` checks of an entry after those with the keys `seen`. -/
def LockedEntry.validate (seen : List Text) (entry : LockedEntry) : Except Text (List Text) := do
  require (validToken entry.id && validVersion entry.version && validKind entry.kind &&
    validStability entry.stability && entry.compatibility.valid && validSHA256 entry.sha256 &&
    entry.path ≠ [] && !FilePath.isAbs entry.path) ("apicontract: invalid lock entry " ++ entry.key)
  let clean := FilePath.clean entry.path
  require (clean ≠ FilePath.dotDot && !hasPrefix clean "../")
    ("apicontract: lock path escapes root for " ++ entry.key)
  require (entry.key ∉ seen) ("apicontract: duplicate lock entry " ++ entry.key)
  pure (entry.key :: seen)

def Lock.validate (lock : Lock) : Except Text (List Text) := do
  require (lock.version = "weaverssh.api-contract-lock.v1" && validToken lock.catalogName &&
    validVersion lock.revision && validSHA256 lock.catalogSHA256)
    "apicontract: invalid lock metadata"
  require (lock.contracts ≠ [] && lock.contracts.length ≤ 4096)
    "apicontract: invalid lock contract count"
  lock.contracts.foldlM LockedEntry.validate []

def compareText (left right : Text) : Ordering :=
  if bytes left < bytes right then .lt else if left = right then .eq else .gt

def numericPart (value : Text) : Option UInt64 :=
  if value = [] then none else Json.readUint64 0 (.num value)

/-- `splitVersion`: the numbers, and the prerelease. -/
def splitVersion (value : Text) : List Text × Text :=
  let value := (trimSpace value).takeWhile (· ≠ .char '+')
  (split (value.takeWhile (· ≠ .char '-')) '.', (value.dropWhile (· ≠ .char '-')).tail)

def comparePart (left right : Text) : Ordering :=
  match numericPart left, numericPart right with
  | some l, some r => compare l r
  | _, _ => compareText left right

def compareVersion (left right : Text) : Ordering :=
  let (leftCore, leftPre) := splitVersion left
  let (rightCore, rightPre) := splitVersion right
  let core := (List.range (max leftCore.length rightCore.length)).foldl (fun order i =>
    Ordering.then order (comparePart (leftCore.getD i "0") (rightCore.getD i "0"))) Ordering.eq
  core.then <|
    if leftPre = rightPre then .eq
    else if leftPre = [] then .gt
    else if rightPre = [] then .lt
    else compareText leftPre rightPre

/-- `latestEntries`, as the map it returns. -/
def latestEntries (entries : List LockedEntry) (id : Text) : Option LockedEntry :=
  entries.foldl (fun current entry =>
    if entry.id = id && current.all fun c => compareVersion entry.version c.version = .gt then
      some entry
    else current) none

inductive ChangeType where
  | added
  | removed
  | unchanged
  | modified
deriving DecidableEq, Repr

structure ContractChange where
  id : Text
  previousVersion : Text := []
  currentVersion : Text := []
  type : ChangeType
  policy : Compatibility
  removedSymbols : List Text := []
  addedSymbols : List Text := []
  compatible : Bool := true
  reason : Text := []
deriving DecidableEq, Repr

/-- The symbols of one set that are not in another, in order. -/
def missing (symbols others : List Text) : List Text :=
  (symbols.dedup.filter (· ∉ others)).insertionSort fun a b => bytes a ≤ bytes b

def evaluateCompatibility (policy : Compatibility) (removed added : List Text) : Bool × Text :=
  match policy with
  | .none => (true, [])
  | .backward =>
    if removed ≠ [] then (false, "backward compatibility forbids removing public symbols")
    else (true, [])
  | .forward =>
    if added ≠ [] then (false, "forward compatibility forbids adding public symbols")
    else (true, [])
  | .full =>
    if removed ≠ [] || added ≠ [] then
      (false, "full compatibility requires an unchanged public symbol set")
    else (true, [])
  | .unknown _ => (false, "unknown compatibility policy")

/-- The change of a contract that `CompareLocks` reports. -/
def contractChange (id : Text) : Option LockedEntry → Option LockedEntry → Option ContractChange
  | none, none => none
  | none, some after => some
    { id, type := .added, currentVersion := after.version, policy := after.compatibility
      addedSymbols := after.symbols }
  | some before, none =>
    let compatible : Bool := before.compatibility = .none
    some
      { id, type := .removed, previousVersion := before.version, policy := before.compatibility
        removedSymbols := before.symbols, compatible
        reason := if compatible then [] else "contract removed" }
  | some before, some after =>
    let removed := missing before.symbols after.symbols
    let added := missing after.symbols before.symbols
    let (compatible, reason) := evaluateCompatibility after.compatibility removed added
    some
      { id, previousVersion := before.version, currentVersion := after.version
        type := if before.sha256 = after.sha256 && before.version = after.version then .unchanged
          else .modified
        policy := after.compatibility, removedSymbols := removed, addedSymbols := added
        compatible, reason }

/-- `CompareLocks`: the changes, in the order of the contracts' names. -/
def compareLocks (previous current : Lock) : Except Text (List ContractChange) := do
  let _ ← previous.validate.mapError (text "apicontract: previous lock: " ++ ·)
  let _ ← current.validate.mapError (text "apicontract: current lock: " ++ ·)
  require (previous.catalogName = current.catalogName)
    "apicontract: catalogs have different names"
  let ids := ((previous.contracts ++ current.contracts).map (·.id)).dedup
  pure <| (ids.insertionSort fun a b => bytes a ≤ bytes b).filterMap fun id =>
    contractChange id (latestEntries previous.contracts id) (latestEntries current.contracts id)

/-- `Compatible` of the report. -/
def compatible (changes : List ContractChange) : Bool := changes.all (·.compatible)

lemma latestEntries_mem {entries : List LockedEntry} {id : Text} {entry : LockedEntry}
    (h : latestEntries entries id = some entry) : entry ∈ entries ∧ entry.id = id := by
  induction entries using List.reverseRecOn generalizing entry with
  | nil => cases h
  | append_singleton entries last ih =>
    rw [latestEntries, foldl_append, foldl_cons, foldl_nil] at h
    split at h
    · next hlast =>
      cases h
      simp only [checks_ok] at hlast
      exact ⟨by simp, hlast.1⟩
    · exact (ih h).imp_left (mem_append_left _)

lemma missing_eq_nil {symbols others : List Text} :
    missing symbols others = [] ↔ symbols ⊆ others := by
  rw [missing, ← length_eq_zero_iff, length_insertionSort, length_eq_zero_iff, filter_eq_nil_iff]
  simp [subset_def]

lemma subset_of_evaluateCompatibility {policy : Compatibility} {before after : List Text}
    (hpromises : policy.promises = true)
    (h : (evaluateCompatibility policy (missing before after) (missing after before)).1 = true) :
    before ⊆ after := by
  by_contra hremoved
  cases policy <;> simp_all [evaluateCompatibility, Compatibility.promises, missing_eq_nil]

lemma compatible_contractChange {previous current : Lock} {changes : List ContractChange}
    (h : compareLocks previous current = .ok changes) (hcompatible : compatible changes = true)
    {id : Text} {before : LockedEntry}
    (hbefore : latestEntries previous.contracts id = some before) :
    ∀ change ∈ contractChange id (some before) (latestEntries current.contracts id),
      change.compatible = true := by
  intro change hchange
  simp only [compareLocks, checks_ok] at h
  obtain ⟨_, -, _, -, _, -, rfl⟩ := h
  obtain ⟨hmem, hid⟩ := latestEntries_mem hbefore
  refine all_eq_true.mp hcompatible change (mem_filterMap.mpr ⟨id, ?_, hbefore ▸ hchange⟩)
  rw [mem_insertionSort, mem_dedup]
  exact mem_map.mpr ⟨before, mem_append_left _ hmem, hid⟩

/-- Behind a report that finds the locks compatible, each contract that had promised it has kept
its symbols exactly if each of those whose policy no longer promises it has. -/
theorem promises_kept_iff (previous current : Lock) (changes : List ContractChange)
    (h : compareLocks previous current = .ok changes) (hcompatible : compatible changes = true) :
    (∀ id before, latestEntries previous.contracts id = some before →
      before.compatibility.promises = true →
      ∃ after, latestEntries current.contracts id = some after ∧ before.symbols ⊆ after.symbols) ↔
    ∀ id before after, latestEntries previous.contracts id = some before →
      latestEntries current.contracts id = some after → before.compatibility.promises = true →
      after.compatibility.promises = false → before.symbols ⊆ after.symbols := by
  constructor
  · intro hkept id before after hbefore hafter hpromises _
    obtain ⟨_, hlatest, hsubset⟩ := hkept id before hbefore hpromises
    cases hafter.symm.trans hlatest
    exact hsubset
  · intro hkept id before hbefore hpromises
    have hchange := compatible_contractChange h hcompatible hbefore
    cases hafter : latestEntries current.contracts id with
    | none =>
      have hnone := hchange _ (by rw [hafter]; rfl)
      exact absurd (of_decide_eq_true hnone) fun heq => by
        simp [heq, Compatibility.promises] at hpromises
    | some after =>
      refine ⟨after, rfl, ?_⟩
      cases hstill : after.compatibility.promises with
      | true => exact subset_of_evaluateCompatibility hstill (hchange _ (by rw [hafter]; rfl))
      | false => exact hkept id before after hbefore hafter hpromises hstill

/-- A lock of one contract with the symbols `get` and perhaps `put`. -/
def smallLock (version : String) (compatibility : Compatibility) (symbols : List String) : Lock :=
  { catalogName := "api", revision := "1", catalogSHA256 := List.replicate 64 (.char '0')
    contracts := [{ id := "files", version, compatibility, symbols := symbols.map text
                    sha256 := List.replicate 64 (.char '1') }] }

theorem promises_kept_small :
    ∃ after, latestEntries (smallLock "2" .full ["get"]).contracts "files" = some after ∧
      [text "get"] ⊆ after.symbols := by
  refine (promises_kept_iff (smallLock "1" .backward ["get"]) (smallLock "2" .full ["get"]) _ rfl
    (by decide +kernel)).mpr ?_ "files" _ rfl rfl
  intro id before after _ hafter _ hgone
  obtain ⟨hmem, -⟩ := latestEntries_mem hafter
  cases List.mem_singleton.mp hmem
  cases hgone

/-- A contract that withdraws its promise may break it in the same change. -/
theorem withdrawn_promise : ∃ changes,
    compareLocks (smallLock "1" .backward ["get", "put"]) (smallLock "2" .none ["get"]) =
      .ok changes ∧ compatible changes = true ∧ ∃ before after,
        latestEntries (smallLock "1" .backward ["get", "put"]).contracts "files" = some before ∧
        before.compatibility.promises = true ∧
        latestEntries (smallLock "2" .none ["get"]).contracts "files" = some after ∧
        text "put" ∈ before.symbols ∧ text "put" ∉ after.symbols :=
  ⟨_, rfl, by decide +kernel, _, _, rfl, rfl, rfl, by decide +kernel, by decide +kernel⟩

end WeaverSSH.ApiContract
