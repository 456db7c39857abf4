import WeaverSSH.Framework.Checks
import WeaverSSH.Framework.FilePath
import WeaverSSH.Framework.OrderedMap

/-!
# Namespaces of a store

`Open` wraps a store so that the keys of a namespace stand below `namespace/`. What a wrapper does
to the whole store it does to its view (`Config.view_call`), and it leaves that of a root not
comparable with its own as it is (`Config.view_call_other`). The roots of `a` and `a/b` are
comparable. One store is behind all wrappers: two file stores on one path lose each other's entries.
-/

namespace WeaverSSH.Storage

open OrderedMap

/-- What `Open` uses of a configuration that `Normalize` accepted. -/
structure Config where
  ns : Text := []
  readOnly : Bool := false
  maxKeyBytes : ℤ := 2 ^ 12
  maxValueBytes : ℤ := 2 ^ 24

def validToken (value : Text) (maximum : ℕ) : Bool :=
  value ≠ [] && len value ≤ maximum && value.all fun
    | .char c => c = '-' || c = '_' || c = '.' || c.isLower || c.isDigit
    | .raw _ => false

/-- `validNamespace`; two slashes in a row leave an empty part. -/
def validNamespace [Unicode] (value : Text) : Bool :=
  len value ≤ 512 && (split value '/').all fun part => validToken (toLower part) 128

/-- The namespace that `Normalize` makes of the one in a configuration, if it accepts it. -/
def normalizeNamespace [Unicode] (raw : Text) : Option Text :=
  let ns := FilePath.trimSlashes (trimSpace raw)
  if ns ≠ [] && !validNamespace ns then none else some ns

instance instLinearOrderByte : LinearOrder UInt8 :=
  LinearOrder.lift' UInt8.toNat fun _ _ => UInt8.toNat_inj.mp

abbrev Values := OrderedMap (List UInt8) (List UInt8)

inductive StoreErr where
  | notFound
  | conflict
  | readOnly
  | emptyKey
  | exceeded
  | scanLimit
  | context
deriving DecidableEq, Repr

/-- What is asked of a transaction at a key; an absent value of `CompareAndSwap` is `none`. -/
inductive Change where
  | get
  | put (value : List UInt8)
  | delete
  | compareAndSwap (oldValue newValue : Option (List UInt8))

def Change.values : Change → List (List UInt8)
  | .get | .delete => []
  | .put value => [value]
  | .compareAndSwap oldValue newValue => oldValue.toList ++ newValue.toList

structure Op where
  key : List UInt8
  change : Change

abbrev Result := Except StoreErr (List UInt8)

def assign (m : Values) (key : List UInt8) : Option (List UInt8) → Values
  | some value => m.put key value
  | none => m.filter (· ≠ key)

/-- `mapTx`: only `Get` returns a value. -/
def mapTx (m : Values) (op : Op) : Values × Result :=
  match op.change with
  | .get => (m, (m.get op.key).elim (.error .notFound) .ok)
  | .put value =>
    if op.key = [] then (m, .error .emptyKey) else (assign m op.key (some value), .ok [])
  | .delete => if op.key = [] then (m, .error .emptyKey) else (assign m op.key none, .ok [])
  | .compareAndSwap oldValue newValue =>
    if m.get op.key ≠ oldValue then (m, .error .conflict) else (assign m op.key newValue, .ok [])

structure ScanOptions where
  start : List UInt8 := []
  after : List UInt8 := []
  limit : ℤ

namespace Config

variable (c : Config)

def validKey (key : List UInt8) : Bool := key ≠ [] && key.length ≤ c.maxKeyBytes

def validValue (value : List UInt8) : Bool := value.length ≤ c.maxValueBytes

def boundedTx (m : Values) (op : Op) : Values × Result :=
  if c.validKey op.key && op.change.values.all c.validValue then
    let (m', result) := mapTx m op
    (m', result.bind fun value => if c.validValue value then .ok value else .error .exceeded)
  else (m, .error .exceeded)

/-- What stands before the keys of the namespace; `Open` wraps a store only where one is given. -/
def root : List UInt8 := if c.ns = [] then [] else bytes (c.ns ++ text "/")

/-- `namespaceTx`, or `boundedTx` itself. -/
def tx (m : Values) (op : Op) : Values × Result :=
  if c.ns ≠ [] ∧ op.key = [] then (m, .error .emptyKey)
  else c.boundedTx m { op with key := c.root ++ op.key }

/-- The scan of a `memoryStore`. -/
def entries (m : Values) (options : ScanOptions) : List (List UInt8 × List UInt8) :=
  (m.entries.filter fun e =>
    options.start.isPrefixOf e.1 && (options.after = [] || options.after < e.1)).take
    options.limit.toNat

def boundedScan (m : Values) (options : ScanOptions) :
    Except StoreErr (List (List UInt8 × List UInt8)) := do
  require (options.start.length ≤ c.maxKeyBytes && options.after.length ≤ c.maxKeyBytes) .exceeded
  require (0 < options.limit && options.limit ≤ 10000) .scanLimit
  require ((entries m options).all fun e => c.validKey e.1 && c.validValue e.2) .exceeded
  pure (entries m options)

def scan (m : Values) (options : ScanOptions) : Except StoreErr (List (List UInt8 × List UInt8)) :=
  if c.ns = [] then c.boundedScan m options
  else do
    let after := if options.after = [] then [] else c.root ++ options.after
    let found ← c.boundedScan m { options with start := c.root ++ options.start, after }
    let own := found.filter fun e => c.root.isPrefixOf e.1
    require (own.all (·.1 ≠ c.root)) .emptyKey
    pure (own.map fun e => (e.1.drop c.root.length, e.2))

/-- A callback's requests, one after another; it may go on after one that fails. -/
def runOps (m : Values) : List Op → Values × List Result
  | [] => (m, [])
  | op :: ops =>
    let (m', result) := c.tx m op
    let (m'', results) := runOps m' ops
    (m'', result :: results)

end Config

/-- A call through a wrapper; an `Update` comes with the requests its callback makes and with
whether it returns an error. -/
inductive Call where
  | get (key : List UInt8)
  | scan (options : ScanOptions)
  | update (cancelled : Bool) (ops : List Op) (fails : Bool)

inductive Output where
  | value (result : Result)
  | entries (result : Except StoreErr (List (List UInt8 × List UInt8)))
  | results (results : List Result)
  | refused (err : StoreErr)
deriving DecidableEq

def Config.call (c : Config) (m : Values) : Call → Values × Output
  | .get key => (m, .value (c.tx m ⟨key, .get⟩).2)
  | .scan options => (m, .entries (c.scan m options))
  | .update cancelled ops fails =>
    if c.readOnly then (m, .refused .readOnly)
    else if cancelled then (m, .refused .context)
    else (if fails then m else (c.runOps m ops).1, .results (c.runOps m ops).2)

/-- Calls through two wrappers on one store: the contents they leave, and what each one returns. -/
def serve (c : Bool → Config) (m : Values) : List (Bool × Call) → Values × List (Bool × Output)
  | [] => (m, [])
  | (side, call) :: calls =>
    let (m', output) := (c side).call m call
    let (m'', outputs) := serve c m' calls
    (m'', (side, output) :: outputs)

/-! ## What a wrapper sees -/

def view (root : List UInt8) (m : Values) : Values := m.filter root.isPrefixOf

variable {c : Config} {m : Values} {root key : List UInt8} {op : Op}

lemma get_filter (keep : List UInt8 → Bool) :
    (m.filter keep).get key = if keep key then m.get key else none := by
  refine Option.ext fun value => ?_
  rw [get_eq_some, filter, List.mem_filter, ← get_eq_some]
  split <;> simp_all

lemma view_assign (value : Option (List UInt8)) :
    view root (assign m key value) = if root <+: key then assign (view root m) key value
      else view root m := by
  refine ext_get fun key' => ?_
  have hkey : key' = key → (root.isPrefixOf key' = true ↔ root <+: key) := by
    rintro rfl
    exact List.isPrefixOf_iff_prefix
  cases value <;> split <;> simp only [view, assign, get_filter, get_put] <;> grind

lemma get_view (h : root <+: key) : (view root m).get key = m.get key := by
  rw [view, get_filter, if_pos (List.isPrefixOf_iff_prefix.mpr h)]

lemma mapTx_view (h : root <+: op.key) :
    mapTx (view root m) op = (view root (mapTx m op).1, (mapTx m op).2) := by
  unfold mapTx
  cases op.change <;> simp only [get_view h] <;> split_ifs <;> simp [view_assign, h]

lemma mapTx_other (h : ¬ root <+: op.key) : view root (mapTx m op).1 = view root m := by
  unfold mapTx
  cases op.change <;> simp only <;> split_ifs <;> simp [view_assign, h]

namespace Config

lemma tx_view : c.tx (view c.root m) op = (view c.root (c.tx m op).1, (c.tx m op).2) := by
  have hkey : c.root <+: ({ op with key := c.root ++ op.key } : Op).key := List.prefix_append _ _
  simp only [tx, boundedTx, mapTx_view hkey]
  split_ifs <;> rfl

lemma tx_other (h : ¬ root <+: c.root ∧ ¬ c.root <+: root) :
    view root (c.tx m op).1 = view root m := by
  have hkey : ¬ root <+: c.root ++ op.key := fun hp =>
    (List.prefix_or_prefix_of_prefix hp (List.prefix_append _ _)).elim h.1 h.2
  unfold tx boundedTx
  split_ifs
  · rfl
  · exact mapTx_other hkey
  · rfl

lemma entries_view {options : ScanOptions} (h : root <+: options.start) :
    entries (view root m) options = entries m options := by
  unfold entries view filter
  rw [List.filter_filter]
  congr 2
  funext e
  have hbelow : options.start.isPrefixOf e.1 = true → root.isPrefixOf e.1 = true := fun hs =>
    List.isPrefixOf_iff_prefix.mpr (h.trans (List.isPrefixOf_iff_prefix.mp hs))
  cases hs : options.start.isPrefixOf e.1 <;> simp_all

lemma scan_view (options : ScanOptions) : c.scan (view c.root m) options = c.scan m options := by
  have hbelow (o : ScanOptions) (h : c.root <+: o.start) :
      c.boundedScan (view c.root m) o = c.boundedScan m o := by
    simp only [boundedScan, entries_view h]
  by_cases hns : c.ns = []
  · simp only [scan, if_pos hns]
    exact hbelow options (by simp [root, hns])
  · simp only [scan, if_neg hns, hbelow ⟨_, _, _⟩ (List.prefix_append _ _)]

lemma runOps_view (ops : List Op) : c.runOps (view c.root m) ops =
    (view c.root (c.runOps m ops).1, (c.runOps m ops).2) := by
  induction ops generalizing m with
  | nil => rfl
  | cons op ops ih => simp only [runOps, tx_view, ih]

lemma runOps_other (h : ¬ root <+: c.root ∧ ¬ c.root <+: root) (ops : List Op) :
    view root (c.runOps m ops).1 = view root m := by
  induction ops generalizing m with
  | nil => rfl
  | cons op ops ih => exact ih.trans (tx_other h)

lemma view_call (call : Call) : c.call (view c.root m) call =
    (view c.root (c.call m call).1, (c.call m call).2) := by
  cases call with
  | get key => simp only [Config.call, tx_view]
  | scan options => simp only [Config.call, scan_view]
  | update cancelled ops fails =>
    simp only [Config.call, runOps_view]
    split_ifs <;> rfl

lemma view_call_other (h : ¬ root <+: c.root ∧ ¬ c.root <+: root) (call : Call) :
    view root (c.call m call).1 = view root m := by
  cases call with
  | get key | scan options => rfl
  | update cancelled ops fails =>
    simp only [Config.call]
    split_ifs
    · rfl
    · rfl
    · rfl
    · exact runOps_other h ops

end Config

/-- **Isolation**: where neither root begins the other, the calls through one wrapper return what
they return without those through the other, and leave the same entries; so they do on every store
with the same view. -/
theorem namespaces_isolated (c : Bool → Config) (h : ∀ side, ¬ (c side).root <+: (c !side).root)
    (side : Bool) (calls : List (Bool × Call)) (m m' : Values)
    (hm : view (c side).root m = view (c side).root m') :
    (serve c m calls).2.filter (·.1 = side) = (serve c m' (calls.filter (·.1 = side))).2 ∧
    view (c side).root (serve c m calls).1 =
      view (c side).root (serve c m' (calls.filter (·.1 = side))).1 := by
  induction calls generalizing m m' with
  | nil => exact ⟨rfl, hm⟩
  | cons first calls ih =>
    obtain ⟨by_, call⟩ := first
    by_cases hside : by_ = side
    · subst hside
      have hcall := (c by_).view_call (m := m) call
      rw [hm, (c by_).view_call, Prod.mk.injEq] at hcall
      obtain ⟨hout, hview⟩ := ih _ _ hcall.1.symm
      simp only [serve, List.filter_cons, decide_true, if_true]
      exact ⟨congrArg₂ List.cons (by rw [hcall.2]) hout, hview⟩
    · have hother : by_ = !side := by cases by_ <;> cases side <;> simp_all
      have hkept := (c by_).view_call_other (m := m) (show ¬ (c side).root <+: (c by_).root ∧ _ by
        subst hother; exact ⟨h side, by simpa using h !side⟩) call
      simpa [serve, hside] using ih _ _ (hkept.trans hm)

/-- Two wrappers, and `x` is put through the second while the first looks for what it has. -/
def wrappers (first second : Text) (side : Bool) : Config :=
  { ns := if side then first else second }

def putAndScan : List (Bool × Call) :=
  [(false, .update false [⟨bytes "x", .put [1]⟩] false), (true, .scan { limit := 10 })]

theorem namespaces_isolated_siblings :
    (serve (wrappers "a" "b") .empty putAndScan).2.filter (·.1 = true) =
      [(true, .entries (.ok []))] :=
  (namespaces_isolated _ (by decide) _ _ _ .empty rfl).1.trans (by decide +kernel)

/-- What is put at `x` in `a/b` is listed, and can be deleted, as `b/x` in `a`. -/
theorem nested_namespaces_overlap : let _ := asciiCase
    normalizeNamespace (text "a") = some (text "a") ∧
    normalizeNamespace (text "a/b") = some (text "a/b") ∧
    (serve (wrappers (text "a") (text "a/b")) .empty putAndScan).2.filter (·.1 = true) =
      [(true, .entries (.ok [(bytes (text "b/x"), [1])]))] ∧
    (serve (wrappers (text "a") (text "a/b")) .empty (putAndScan ++
      [(true, .update false [⟨bytes (text "b/x"), .delete⟩] false),
        (false, .get (bytes (text "x")))])).2.getLast? =
      some (false, .value (.error .notFound)) := by
  decide +kernel

end WeaverSSH.Storage
