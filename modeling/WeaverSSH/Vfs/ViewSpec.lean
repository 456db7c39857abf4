import WeaverSSH.Framework.Renames
import WeaverSSH.Vfs.View

/-!
# Views as renames of lists of names

A path that `cleanViewRel` accepts is a list of names, and the rename rules of a view are renames of
prefixes of such lists: `VisiblePath` applies them (`foldl_toView`), `SourcePath` undoes them
(`foldr_toSource`).

`cleanViewRel` trims blanks only once, so that what it returns may begin or end with blanks again. A
path that it leaves as it is (`Settled`) does not.
-/

namespace WeaverSSH.Vfs

open FilePath List Rename ViewConfig ViewRule Except

/-! ## Names -/

@[mk_iff]
structure ViewName (name : Text) : Prop where
  plain : Plain name
  noNUL : Rune.char '\x00' ∉ name

lemma plain_of_viewName {ns : List Text} (h : ∀ name ∈ ns, ViewName name) :
    ∀ name ∈ ns, Plain name :=
  fun name hname => (h name hname).plain

instance (name : Text) : Decidable (ViewName name) :=
  decidable_of_iff' _ (viewName_iff name)

def names (t : Text) : List Text := if t = [] then [] else split t '/'

@[simp]
lemma slashed_names (t : Text) : slashed (names t) = t := by
  unfold names
  by_cases ht : t = []
  · rw [if_pos ht, ht]
    rfl
  · rw [if_neg ht, slashed_split]

section

variable {ns : List Text}

lemma names_slashed (h : ∀ name ∈ ns, Plain name) : names (slashed ns) = ns := by
  unfold names
  by_cases hns : ns = []
  · rw [hns]
    rfl
  · rw [if_neg fun hnil => hns ((slashed_eq_nil fun name hname => (h name hname).1).mp hnil),
      split_slashed (fun name hname => (h name hname).2.2.2) hns]

/-- Neither the first name begins with a blank nor the last one ends with one. -/
structure Snug (ns : List Text) : Prop where
  first : ∀ name ∈ ns.head?, ∀ r ∈ name.head?, r.isSpace = false
  last : ∀ name ∈ ns.getLast?, ∀ r ∈ name.getLast?, r.isSpace = false

lemma trimSpace_slashed_iff (h : ∀ name ∈ ns, name ≠ []) :
    trimSpace (slashed ns) = slashed ns ↔ Snug ns := by
  have hhead : (∀ r ∈ (slashed ns).head?, r.isSpace = false) ↔
      ∀ name ∈ ns.head?, ∀ r ∈ name.head?, r.isSpace = false := by
    cases ns with
    | nil => simp [slashed]
    | cons name rest =>
      rw [head_slashed (h name mem_cons_self)]
      exact ⟨fun hr other hother => Option.some.inj hother ▸ hr, fun hr => hr name rfl⟩
  have hlast : (∀ r ∈ (slashed ns).getLast?, r.isSpace = false) ↔
      ∀ name ∈ ns.getLast?, ∀ r ∈ name.getLast?, r.isSpace = false := by
    induction ns using reverseRecOn with
    | nil => simp [slashed]
    | append_singleton rest name _ =>
      rw [getLast_slashed (h name (mem_append_right _ mem_cons_self)), getLast?_concat]
      exact ⟨fun hr other hother => Option.some.inj hother ▸ hr, fun hr => hr name rfl⟩
  rw [trimSpace, trim_eq_self_iff, hhead, hlast]
  exact ⟨fun h => ⟨h.1, h.2⟩, fun h => ⟨h.1, h.2⟩⟩

lemma Snug.append {a b : List Text} (ha : Snug a) (hne : a ≠ []) (hb : ∀ name ∈ b.getLast?,
    ∀ r ∈ name.getLast?, r.isSpace = false) : Snug (a ++ b) := by
  constructor
  · rw [head?_append_of_ne_nil _ hne]
    exact ha.first
  · by_cases hnil : b = []
    · rw [hnil, append_nil]
      exact ha.last
    · rw [getLast?_append_of_ne_nil _ hnil]
      exact hb

end

/-! ## `cleanViewRel` -/

variable {p c : Text}

/-- What `cleanViewRel` returns: the whole, or the names that `clean` leaves of what is trimmed. -/
lemma eq_of_cleanViewRel (h : cleanViewRel p = .ok c) : c = [] ∨
    (c = slashed (cleanNames (trimSlashes (trimSpace p))) ∧
      cleanNames (trimSlashes (trimSpace p)) ≠ [] ∧
      dotDot ∉ cleanNames (trimSlashes (trimSpace p)) ∧
        Rune.char '\x00' ∉ trimSlashes (trimSpace p)) := by
  unfold cleanViewRel at h
  dsimp only at h
  generalize trimSlashes (trimSpace p) = q at h
  by_cases hempty : q = [] ∨ q = dot
  · rw [if_pos hempty] at h
    exact .inl (ok.inj h).symm
  rw [if_neg hempty] at h
  by_cases hnul : Rune.char '\x00' ∈ q
  · rw [if_pos hnul] at h
    cases h
  rw [if_neg hnul] at h
  by_cases hdot : clean q = dot
  · rw [if_pos hdot] at h
    exact .inl (ok.inj h).symm
  rw [if_neg hdot] at h
  split_ifs at h with hescapes
  simp only [not_or, Bool.not_eq_true] at hescapes
  obtain ⟨habs, -, -, hup⟩ := hescapes
  have hrelative : isAbs q = false := by
    by_contra hrooted
    rw [Bool.not_eq_false] at hrooted
    rw [clean, hrooted, if_pos rfl] at habs
    cases habs
  have hne : cleanNames q ≠ [] := by
    intro hnil
    rw [clean, hrelative, if_neg Bool.false_ne_true, if_pos hnil] at hdot
    exact hdot rfl
  have hcleaned : clean q = slashed (cleanNames q) := by
    rw [clean, hrelative, if_neg Bool.false_ne_true, if_neg hne]
  rw [hcleaned, split_slashed (fun name hname => (mem_cleanNames hname).2) hne] at hup
  rw [hcleaned] at h
  exact .inr ⟨(ok.inj h).symm, hne, hup, hnul⟩

lemma names_of_cleanViewRel (h : cleanViewRel p = .ok c) : ∀ name ∈ names c, ViewName name := by
  rcases eq_of_cleanViewRel h with rfl | ⟨rfl, hne, hup, hnul⟩
  · exact nofun
  generalize trimSlashes (trimSpace p) = q at hne hup hnul
  have hnonempty : slashed (cleanNames q) ≠ [] := fun hnil =>
    hne ((slashed_eq_nil fun name hname => (mem_cleanNames hname).1).mp hnil)
  intro name hname
  rw [names, if_neg hnonempty, split_slashed (fun name hname => (mem_cleanNames hname).2) hne]
    at hname
  obtain ⟨hnil, hslash⟩ := mem_cleanNames hname
  refine ⟨⟨hnil, ne_dot_of_mem_cleanNames hname, ?_, hslash⟩, fun hmem => hnul ?_⟩
  · rintro rfl
    exact hup hname
  · rcases mem_foldl_cleanStep hname with hold | ⟨hpart, -⟩
    · cases hold
    · rw [← slashed_split q]
      exact mem_slashed hpart hmem

lemma cleanViewRel_slashed {ns : List Text} (h : ∀ name ∈ ns, ViewName name) (hsnug : Snug ns) :
    cleanViewRel (slashed ns) = .ok (slashed ns) := by
  have hplain := plain_of_viewName h
  have hspace : trimSpace (slashed ns) = slashed ns :=
    (trimSpace_slashed_iff fun name hname => (hplain name hname).1).mpr hsnug
  unfold cleanViewRel
  dsimp only
  rw [hspace, trimSlashes_slashed hplain]
  by_cases hns : ns = []
  · rw [hns]
    rfl
  have hclean := clean_slashed hplain hns
  have hsplit := split_slashed (fun name hname => (hplain name hname).2.2.2) hns
  have hnil : slashed ns ≠ [] :=
    fun hnil => hns ((slashed_eq_nil fun name hname => (hplain name hname).1).mp hnil)
  have hdot : slashed ns ≠ dot := by
    intro hdot
    rw [hdot] at hsplit
    have hmem : dot ∈ ns := hsplit ▸ (by decide : dot ∈ split dot '/')
    exact (hplain dot hmem).2.1 rfl
  have hup : dotDot ∉ split (slashed ns) '/' := by
    rw [hsplit]
    exact fun hmem => (hplain dotDot hmem).2.2.1 rfl
  have hnul : Rune.char '\x00' ∉ slashed ns := by
    intro hmem
    rcases mem_of_mem_slashed hmem with heq | ⟨name, hname, hmem⟩
    · exact absurd heq (by decide)
    · exact (h name hname).noNUL hmem
  rw [if_neg (not_or.mpr ⟨hnil, hdot⟩), if_neg hnul, hclean, if_neg hdot, if_neg]
  rintro (habs | hupOnly | hupFirst | hmem)
  · rw [isAbs_slashed hplain] at habs
    cases habs
  · rw [hupOnly] at hup
    exact hup (by decide)
  · obtain ⟨rest, hrest⟩ := isPrefixOf_iff_prefix.mp hupFirst
    have hfirst : slashed ns = dotDot ++ slash :: rest := hrest.symm
    rw [hfirst, split_slash] at hup
    exact hup (mem_append_left _ (by decide))
  · exact hup hmem

/-- A path that `cleanViewRel` leaves as it is. -/
def Settled (p : Text) : Prop := cleanViewRel p = .ok p

instance (p : Text) : Decidable (Settled p) := by
  unfold Settled
  infer_instance

lemma length_cleanViewRel_le (h : cleanViewRel p = .ok c) : c.length ≤ (trimSpace p).length := by
  rcases eq_of_cleanViewRel h with rfl | ⟨rfl, hne, -, -⟩
  · exact Nat.zero_le _
  · calc (slashed (cleanNames (trimSlashes (trimSpace p)))).length
        ≤ (trimSlashes (trimSpace p)).length := length_cleanNames_le hne
      _ ≤ (trimSpace p).length :=
        (IsPrefix.length_le <| rdropWhile_prefix _ _).trans (dropWhile_suffix _).length_le

/-- **A settled path** is a list of names without blanks around it. -/
lemma settled_iff : Settled p ↔ (∀ name ∈ names p, ViewName name) ∧ Snug (names p) := by
  constructor
  · intro h
    have hnames := names_of_cleanViewRel h
    refine ⟨hnames, ?_⟩
    have hspace : trimSpace p = p :=
      (trimSpace_sublist p).eq_of_length_le (length_cleanViewRel_le h)
    rw [← slashed_names p] at hspace
    exact (trimSpace_slashed_iff fun name hname => (hnames name hname).plain.1).mp hspace
  · rintro ⟨hnames, hsnug⟩
    have h := cleanViewRel_slashed hnames hsnug
    rwa [slashed_names] at h

/-! ## Rules on names -/

section

variable {ns a b : List Text}

lemma pathWithin_slashed (hns : ∀ name ∈ ns, Plain name) (ha : ∀ name ∈ a, Plain name)
    (hne : a ≠ []) :
    pathWithin (slashed ns) (slashed a) = true ↔ a <+: ns := by
  have hroot : slashed a ≠ [] :=
    fun hnil => hne ((slashed_eq_nil fun name hname => (ha name hname).1).mp hnil)
  have hsplit := split_slashed (fun name hname => (ha name hname).2.2.2) hne
  simp only [pathWithin, Bool.or_eq_true, decide_eq_true_eq]
  constructor
  · rintro ((hnil | heq) | hbelow)
    · exact absurd hnil hroot
    · rw [slashed_inj hns ha heq]
    · obtain ⟨rest, hrest⟩ := isPrefixOf_iff_prefix.mp hbelow
      rw [append_assoc, singleton_append] at hrest
      have hns' : ns ≠ [] := by
        rintro rfl
        exact append_ne_nil_of_right_ne_nil _ (cons_ne_nil _ _) hrest
      have hnames : split (slashed a ++ slash :: rest) '/' = split (slashed ns) '/' := by rw [hrest]
      rw [split_slash, hsplit, split_slashed (fun name hname => (hns name hname).2.2.2) hns']
        at hnames
      exact ⟨_, hnames⟩
  · rintro ⟨rest, rfl⟩
    by_cases hrest : rest = []
    · rw [hrest, append_nil]
      exact .inl (.inr rfl)
    · rw [slashed_append hne hrest]
      refine .inr <| isPrefixOf_iff_prefix.mpr ⟨slashed rest, ?_⟩
      rw [append_assoc, singleton_append]

lemma joinViewRel_slashed (ha : ∀ name ∈ a, Plain name) (hb : ∀ name ∈ b, Plain name) :
    joinViewRel (slashed a) (slashed b) = slashed (a ++ b) := by
  have hnil (l : List Text) (hl : ∀ name ∈ l, Plain name) : slashed l = [] ↔ l = [] :=
    slashed_eq_nil fun name hname => (hl name hname).1
  unfold joinViewRel
  dsimp only
  rw [trimSlashes_slashed hb]
  by_cases ha' : a = []
  · rw [if_pos ((hnil a ha).mpr ha'), ha', nil_append]
  rw [if_neg (mt (hnil a ha).mp ha')]
  by_cases hb' : b = []
  · rw [if_pos ((hnil b hb).mpr hb'), hb', append_nil]
  · rw [if_neg (mt (hnil b hb).mp hb'), slashed_append ha' hb']

lemma replacePrefix_slashed {rest : List Text} (ha : ∀ name ∈ a, Plain name) (hne : a ≠ [])
    (hb : ∀ name ∈ b, Plain name) (hrest : ∀ name ∈ rest, Plain name) :
    replacePrefix (slashed (a ++ rest)) (slashed a) (slashed b) = slashed (b ++ rest) := by
  unfold replacePrefix
  by_cases hnil : rest = []
  · rw [hnil, append_nil, append_nil, if_pos rfl]
  · have hplain : ∀ name ∈ a ++ rest, Plain name := forall_mem_append.mpr ⟨ha, hrest⟩
    have hdiffers : slashed (a ++ rest) ≠ slashed a := fun heq =>
      hnil (append_right_eq_self.mp (slashed_inj hplain ha heq))
    have hprefix : trimPrefix (slashed (a ++ rest)) (slashed a ++ [slash]) = slashed rest := by
      have hlonger : hasPrefix (slashed a ++ [slash] ++ slashed rest)
          (slashed a ++ [slash]) = true :=
        isPrefixOf_iff_prefix.mpr (prefix_append _ _)
      rw [slashed_append hne hnil, ← singleton_append, ← append_assoc, trimPrefix, if_pos hlonger,
        drop_left]
    rw [if_neg hdiffers, hprefix, joinViewRel_slashed hb hrest]

end

def ViewRule.rename (r : ViewRule) : Option (Rename Text) :=
  if r.action = viewActionRename then some ⟨names r.pattern, names r.target⟩ else none

def ViewConfig.renames (cfg : ViewConfig) : List (Rename Text) := cfg.rules.filterMap rename

/-- A rename of paths of a view other than the whole. -/
structure ProperRename (q : Rename Text) : Prop where
  source : ∀ name ∈ q.source, ViewName name
  target : ∀ name ∈ q.target, ViewName name
  source_ne : q.source ≠ []
  target_ne : q.target ≠ []

namespace ProperRename

variable {q : Rename Text} (h : ProperRename q) {ns : List Text} (hns : ∀ name ∈ ns, ViewName name)

include h hns

lemma apply : ∀ name ∈ q.apply ns, ViewName name := by
  by_cases hsource : q.source <+: ns
  · obtain ⟨rest, rfl⟩ := hsource
    rw [apply_source]
    exact forall_mem_append.mpr ⟨h.target, (forall_mem_append.mp hns).2⟩
  · rwa [apply_of_not hsource]

lemma undo : ∀ name ∈ q.undo ns, ViewName name := by
  by_cases htarget : q.target <+: ns
  · obtain ⟨rest, rfl⟩ := htarget
    rw [undo_target]
    exact forall_mem_append.mpr ⟨h.source, (forall_mem_append.mp hns).2⟩
  · rwa [undo_of_not htarget]

end ProperRename

lemma replaced_slashed {source target ns : List Text} (hsource : ∀ name ∈ source, ViewName name)
    (htarget : ∀ name ∈ target, ViewName name) (hne : source ≠ [])
    (hns : ∀ name ∈ ns, ViewName name) :
    (if pathWithin (slashed ns) (slashed source) then
        replacePrefix (slashed ns) (slashed source) (slashed target)
      else slashed ns) = slashed (apply ⟨source, target⟩ ns) := by
  have hplain := plain_of_viewName hns
  have hwithin := pathWithin_slashed hplain (plain_of_viewName hsource) hne
  by_cases hbelow : source <+: ns
  · rw [if_pos (hwithin.mpr hbelow)]
    obtain ⟨rest, rfl⟩ := hbelow
    rw [apply_source ⟨source, target⟩]
    exact replacePrefix_slashed (plain_of_viewName hsource) hne
      (plain_of_viewName htarget) (forall_mem_append.mp hplain).2
  · rw [if_neg fun h => hbelow (hwithin.mp h), apply_of_not hbelow]

/-- A rule as `Normalize` returns it. -/
def ViewRule.Proper (r : ViewRule) : Prop := ∀ q, r.rename = some q → ProperRename q

section

variable {r : ViewRule} (h : r.Proper) {ns : List Text} (hns : ∀ name ∈ ns, ViewName name)

include h hns

/-- One turn of the loop of `VisiblePath` applies the rule's rename. -/
lemma ViewRule.toView_slashed :
    r.toView (slashed ns) = slashed (r.rename.elim ns fun q => q.apply ns) := by
  unfold toView
  by_cases haction : r.action = viewActionRename
  · have hrename : r.rename = some ⟨names r.pattern, names r.target⟩ := if_pos haction
    have hproper := h _ hrename
    have hturn := replaced_slashed hproper.source hproper.target hproper.source_ne hns
    dsimp only at hturn
    rw [slashed_names, slashed_names] at hturn
    simp only [haction, true_and, hrename, Option.elim_some]
    exact hturn
  · have hrename : r.rename = none := if_neg haction
    rw [if_neg fun hboth => haction hboth.1, hrename, Option.elim_none]

lemma ViewRule.toSource_slashed :
    r.toSource (slashed ns) = slashed (r.rename.elim ns fun q => q.undo ns) := by
  unfold toSource
  by_cases haction : r.action = viewActionRename
  · have hrename : r.rename = some ⟨names r.pattern, names r.target⟩ := if_pos haction
    have hproper := h _ hrename
    have hturn := replaced_slashed hproper.target hproper.source hproper.target_ne hns
    dsimp only at hturn
    rw [slashed_names, slashed_names] at hturn
    simp only [haction, true_and, hrename, Option.elim_some]
    exact hturn
  · have hrename : r.rename = none := if_neg haction
    rw [if_neg fun hboth => haction hboth.1, hrename, Option.elim_none]

end

variable {rules : List ViewRule}

/-- **`VisiblePath` applies the renames** of a view in their order. -/
lemma foldl_toView (h : ∀ r ∈ rules, r.Proper) {ns : List Text}
    (hns : ∀ name ∈ ns, ViewName name) : rules.foldl (fun p r => r.toView p) (slashed ns) =
      slashed (applyAll (rules.filterMap rename) ns) ∧
    ∀ name ∈ applyAll (rules.filterMap rename) ns, ViewName name := by
  induction rules generalizing ns with
  | nil => exact ⟨rfl, hns⟩
  | cons r rules ih =>
    have hr := h r mem_cons_self
    have hrest := fun r' hr' => h r' (mem_cons_of_mem _ hr')
    rw [foldl_cons, r.toView_slashed hr hns]
    cases hrename : r.rename with
    | none =>
      rw [filterMap_cons_none hrename]
      exact ih hrest hns
    | some q =>
      rw [filterMap_cons_some hrename]
      exact ih hrest ((hr q hrename).apply hns)

/-- **`SourcePath` undoes them** in the reverse order. -/
lemma foldr_toSource (h : ∀ r ∈ rules, r.Proper) {ns : List Text}
    (hns : ∀ name ∈ ns, ViewName name) : rules.foldr toSource (slashed ns) =
      slashed (undoAll (rules.filterMap rename) ns) ∧
    ∀ name ∈ undoAll (rules.filterMap rename) ns, ViewName name := by
  induction rules with
  | nil => exact ⟨rfl, hns⟩
  | cons r rules ih =>
    have hr := h r mem_cons_self
    obtain ⟨hpath, hnames⟩ := ih fun r' hr' => h r' (mem_cons_of_mem _ hr')
    rw [foldr_cons, hpath, r.toSource_slashed hr hnames]
    cases hrename : r.rename with
    | none =>
      rw [filterMap_cons_none hrename]
      exact ⟨rfl, hnames⟩
    | some q =>
      rw [filterMap_cons_some hrename]
      exact ⟨rfl, (hr q hrename).undo hnames⟩

/-! ## Blanks at the ends -/

lemma Snug.replace {a b rest : List Text} (hns : Snug (a ++ rest)) (hb : Snug b) (hne : b ≠ []) :
    Snug (b ++ rest) := by
  refine hb.append hne fun name hname => ?_
  by_cases hrest : rest = []
  · rw [hrest] at hname
    cases hname
  · refine hns.last name ?_
    rwa [getLast?_append_of_ne_nil _ hrest]

variable {rs : List (Rename Text)}

lemma Snug.applyAll (h : ∀ q ∈ rs, Snug q.target ∧ q.target ≠ []) {ns : List Text}
    (hns : Snug ns) : Snug (applyAll rs ns) := by
  refine foldlRecOn rs _ hns fun ns hns q hq => ?_
  obtain ⟨htarget, hne⟩ := h q hq
  by_cases hsource : q.source <+: ns
  · obtain ⟨rest, rfl⟩ := hsource
    rw [apply_source]
    exact hns.replace htarget hne
  · rwa [apply_of_not hsource]

lemma Snug.undoAll (h : ∀ q ∈ rs, Snug q.source ∧ q.source ≠ []) {ns : List Text}
    (hns : Snug ns) : Snug (undoAll rs ns) := by
  refine foldrRecOn rs _ hns fun ns hns q hq => ?_
  obtain ⟨hsource, hne⟩ := h q hq
  by_cases htarget : q.target <+: ns
  · obtain ⟨rest, rfl⟩ := htarget
    rw [undo_target]
    exact hns.replace hsource hne
  · rwa [undo_of_not htarget]

/-! ## `Normalize` -/

section

variable [Unicode]

variable {i : ℕ}

lemma normalizeRule_rename {r r' : ViewRule} (h : normalizeRule i r = .ok r')
    (haction : r'.action = viewActionRename) :
    (cleanViewRel r.pattern = .ok r'.pattern ∧ r'.pattern ≠ []) ∧
      cleanViewRel r.target = .ok r'.target ∧ r'.target ≠ [] := by
  unfold normalizeRule at h
  simp only [bind_eq_ok, mapError_eq_ok, require_eq_ok, decide_eq_true_eq] at h
  obtain ⟨pattern, hpattern, -, hroot, h⟩ := h
  by_cases hhide : toLower (trimSpace r.action) = viewActionHide
  · rw [if_pos hhide] at h
    rw [← ok.inj h] at haction
    exact absurd haction (show viewActionHide ≠ viewActionRename by decide)
  rw [if_neg hhide] at h
  split_ifs at h
  unfold normalizeRename at h
  simp only [bind_eq_ok, mapError_eq_ok, require_eq_ok, pure_eq_ok, decide_eq_true_eq] at h
  obtain ⟨-, -, target, htarget, -, htargetRoot, -, -, rfl⟩ := h
  exact ⟨⟨hpattern, hroot⟩, htarget, htargetRoot⟩

lemma normalizeRule_proper {r r' : ViewRule} (h : normalizeRule i r = .ok r') : r'.Proper := by
  intro q hq
  unfold rename at hq
  split_ifs at hq with haction
  obtain rfl := Option.some.inj hq
  obtain ⟨⟨hpattern, hroot⟩, htarget, htargetRoot⟩ := normalizeRule_rename h haction
  have hne {t : Text} (ht : t ≠ []) : names t ≠ [] := by
    intro hnil
    have hslashed := slashed_names t
    rw [hnil] at hslashed
    exact ht hslashed.symm
  exact ⟨names_of_cleanViewRel hpattern, names_of_cleanViewRel htarget, hne hroot, hne htargetRoot⟩

lemma normalizeRules_proper {rules rules' : List ViewRule}
    (h : normalizeRules i rules = .ok rules') :
    ∀ r ∈ rules', r.Proper := by
  induction rules generalizing i rules' with
  | nil =>
    obtain rfl := ok.inj h
    exact nofun
  | cons r rules ih =>
    unfold normalizeRules at h
    simp only [checks_ok] at h
    obtain ⟨r', hr', rest, hrest, rfl⟩ := h
    exact forall_mem_cons.mpr ⟨normalizeRule_proper hr', ih hrest⟩

variable {cfg view : ViewConfig}

theorem ViewConfig.normalize_proper (h : cfg.normalize = .ok view) :
    ∀ r ∈ view.rules, r.Proper := by
  unfold normalize at h
  simp only [bind_eq_ok, require_eq_ok, pure_eq_ok] at h
  obtain ⟨-, -, rules, hrules, rfl⟩ := h
  exact normalizeRules_proper hrules

lemma ViewConfig.renames_proper (h : cfg.normalize = .ok view) :
    ∀ q ∈ view.renames, ProperRename q := by
  intro q hq
  obtain ⟨r, hr, hrename⟩ := mem_filterMap.mp hq
  exact normalize_proper h r hr q hrename

lemma normalizeRule_settled {r : ViewRule} (h : normalizeRule i r = .ok r)
    (haction : r.action = viewActionRename) : Settled r.pattern ∧ Settled r.target :=
  ⟨(normalizeRule_rename h haction).1.1, (normalizeRule_rename h haction).2.1⟩

lemma normalizeRules_settled (h : normalizeRules i rules = .ok rules) :
    ∀ r ∈ rules, r.action = viewActionRename → Settled r.pattern ∧ Settled r.target := by
  induction rules generalizing i with
  | nil => exact nofun
  | cons r rules ih =>
    unfold normalizeRules at h
    simp only [checks_ok] at h
    obtain ⟨r', hr', rest, hrest, hsame⟩ := h
    obtain ⟨rfl, rfl⟩ := cons.inj hsame
    exact forall_mem_cons.mpr ⟨normalizeRule_settled hr', ih hrest⟩

lemma ViewConfig.settled_rules (h : view.normalize = .ok view) :
    ∀ r ∈ view.rules, r.action = viewActionRename → Settled r.pattern ∧ Settled r.target := by
  unfold normalize at h
  simp only [bind_eq_ok, require_eq_ok, pure_eq_ok] at h
  obtain ⟨-, -, rules, hrules, hsame⟩ := h
  rw [← hsame] at hrules ⊢
  exact normalizeRules_settled hrules

lemma ViewConfig.snug_renames (hview : view.normalize = .ok view) :
    ∀ q ∈ view.renames, Snug q.source ∧ Snug q.target := by
  intro q hq
  obtain ⟨r, hr, hrename⟩ := mem_filterMap.mp hq
  unfold rename at hrename
  split_ifs at hrename with haction
  obtain ⟨hpattern, htarget⟩ := settled_rules hview r hr haction
  rw [← Option.some.inj hrename]
  exact ⟨(settled_iff.mp hpattern).2, (settled_iff.mp htarget).2⟩

/-! ## `SourcePath` and `VisiblePath` -/

variable [PathMatch]

section

variable (hview : cfg.normalize = .ok view)
include hview

lemma ViewConfig.visiblePath_eq_ok {p v : Text} :
    cfg.visiblePath p = .ok (v, false) ↔ ∃ c, cleanViewRel p = .ok c ∧
      view.isHiddenSource c = false ∧ v = slashed (applyAll view.renames (names c)) := by
  unfold visiblePath
  rw [hview]
  simp only [bind_eq_ok, mapError_eq_ok, ok.injEq, exists_eq_left']
  refine exists_congr fun c => and_congr_right fun hc => ?_
  have hpath := (foldl_toView (normalize_proper hview) (names_of_cleanViewRel hc)).1
  rw [slashed_names] at hpath
  cases hhidden : view.isHiddenSource c with
  | true => simp
  | false =>
    rw [if_neg Bool.false_ne_true, hpath]
    simp only [ok.injEq, Prod.mk.injEq, and_true, true_and]
    exact eq_comm

lemma ViewConfig.visiblePath_slashed {ns : List Text}
    (hns : Settled (slashed ns)) (hnames : ∀ name ∈ ns, ViewName name) :
    cfg.visiblePath (slashed ns) =
      .ok (if view.isHiddenSource (slashed ns) then ([], true)
        else (slashed (applyAll view.renames ns), false)) := by
  unfold visiblePath
  rw [hview, hns]
  show (if view.isHiddenSource (slashed ns) then _ else _) = _
  cases view.isHiddenSource (slashed ns) with
  | true => rfl
  | false =>
    have hpath := (foldl_toView (normalize_proper hview) hnames).1
    rw [if_neg Bool.false_ne_true, if_neg Bool.false_ne_true, hpath]
    rfl

lemma ViewConfig.sourcePath_eq_ok {v p : Text}
    {hidden : Bool} : cfg.sourcePath v = .ok (p, hidden) ↔ ∃ c, cleanViewRel v = .ok c ∧
      p = slashed (undoAll view.renames (names c)) ∧ hidden = view.isHiddenSource p := by
  unfold sourcePath
  rw [hview]
  simp only [checks_ok, mapError_eq_ok, ok.injEq, exists_eq_left', Prod.mk.injEq]
  refine exists_congr fun c => and_congr_right fun hc => ?_
  have hpath := (foldr_toSource (normalize_proper hview) (names_of_cleanViewRel hc)).1
  rw [slashed_names] at hpath
  rw [hpath]
  constructor
  · rintro ⟨rfl, rfl⟩
    exact ⟨rfl, rfl⟩
  · rintro ⟨rfl, rfl⟩
    exact ⟨rfl, rfl⟩

end

end

/-! ## Hidden paths -/

section

variable [PathMatch]

lemma hideRuleMatches_append {pattern : Text} {a s : List Text} (ha : ∀ name ∈ a, Plain name)
    (hs : ∀ name ∈ s, Plain name) (h : hideRuleMatches pattern (slashed a) = true) :
    hideRuleMatches pattern (slashed (a ++ s)) = true := by
  by_cases hnil : s = []
  · rwa [hnil, append_nil]
  have hne : a ++ s ≠ [] := append_ne_nil_of_right_ne_nil _ hnil
  have hplain : ∀ name ∈ a ++ s, Plain name := forall_mem_append.mpr ⟨ha, hs⟩
  have hslash {l : List Text} (hl : ∀ name ∈ l, Plain name) : ∀ name ∈ l, slash ∉ name :=
    fun name hname => (hl name hname).2.2.2
  unfold hideRuleMatches at h ⊢
  by_cases hempty : pattern = []
  · rw [if_pos hempty] at h
    cases h
  rw [if_neg hempty] at h ⊢
  -- nothing matches the whole
  by_cases hroot : a = []
  · subst hroot
    split_ifs at h with hliteral hdeep hflat
    · simp only [pathWithin, Bool.or_eq_true, decide_eq_true_eq] at h
      rcases h with (h | h) | h
      · exact absurd h hempty
      · exact absurd h.symm hempty
      · have hempty := isPrefixOf_iff_prefix.mp h
        simp [slashed] at hempty
    · obtain ⟨seg, hseg, heq⟩ := any_eq_true.mp h
      rw [show split (slashed []) '/' = [[]] from rfl, mem_singleton] at hseg
      rw [hseg] at heq
      exact absurd (of_decide_eq_true heq).symm hempty
    · cases h
    · cases h
  have hprefixes {l : List Text} (hl : ∀ name ∈ l, Plain name) (hl' : l ≠ []) :
      pathPrefixes (slashed l) = l.inits.tail.map slashed := by
    have hnonempty : slashed l ≠ [] := fun hnil =>
      hl' ((slashed_eq_nil fun name hname => (hl name hname).1).mp hnil)
    unfold pathPrefixes
    dsimp only
    rw [trimSlashes_slashed hl, if_neg hnonempty, split_slashed (hslash hl) hl']
  have hcandidates : ∀ c ∈ pathPrefixes (slashed a), c ∈ pathPrefixes (slashed (a ++ s)) := by
    rw [hprefixes ha hroot, hprefixes hplain hne]
    intro c hc
    obtain ⟨l, hl, rfl⟩ := mem_map.mp hc
    refine mem_map.mpr ⟨l, ?_, rfl⟩
    have hinits : a.inits ≠ [] := ne_nil_of_mem (mem_of_mem_tail hl)
    rw [inits_append, tail_append_of_ne_nil hinits]
    exact mem_append_left _ hl
  split_ifs at h ⊢ with hliteral hdeep hflat
  · simp only [pathWithin, Bool.or_eq_true, decide_eq_true_eq] at h ⊢
    rw [slashed_append hroot hnil]
    rcases h with (h | h) | h
    · exact absurd h hempty
    · refine .inr <| isPrefixOf_iff_prefix.mpr ⟨slashed s, ?_⟩
      rw [h, append_assoc, singleton_append]
    · have hwithin := isPrefixOf_iff_prefix.mp h
      exact .inr <| isPrefixOf_iff_prefix.mpr (hwithin.trans (prefix_append _ _))
  · rw [split_slashed (hslash ha) hroot] at h
    rw [split_slashed (hslash hplain) hne, any_append, h, Bool.true_or]
  · obtain ⟨c, hc, hmatch⟩ := any_eq_true.mp h
    exact any_eq_true.mpr ⟨c, hcandidates c hc, hmatch⟩
  · obtain ⟨c, hc, hmatch⟩ := any_eq_true.mp h
    exact any_eq_true.mpr ⟨c, hcandidates c hc, hmatch⟩

/-- **Directories of paths that are not hidden** are not hidden. -/
lemma ViewConfig.isHiddenSource_append {view : ViewConfig} {a s : List Text}
    (ha : Settled (slashed a))
    (hs : Settled (slashed (a ++ s))) (hplain : ∀ name ∈ a ++ s, Plain name)
    (h : view.isHiddenSource (slashed (a ++ s)) = false) :
    view.isHiddenSource (slashed a) = false := by
  unfold isHiddenSource at h ⊢
  rw [hs] at h
  rw [ha]
  dsimp only at h ⊢
  rw [any_eq_false] at h ⊢
  intro r hr hhides
  refine h r hr ?_
  rw [Bool.and_eq_true] at hhides ⊢
  obtain ⟨hplain₁, hplain₂⟩ := forall_mem_append.mp hplain
  exact ⟨hhides.1, hideRuleMatches_append hplain₁ hplain₂ hhides.2⟩

end

lemma splitViewRel_slashed {ns : List Text} {name : Text} (h : ∀ n ∈ ns ++ [name], Plain n) :
    splitViewRel (slashed (ns ++ [name])) = (slashed ns, name) := by
  have hne : ns ++ [name] ≠ [] := append_ne_nil_of_right_ne_nil _ (cons_ne_nil _ _)
  unfold splitViewRel
  dsimp only
  rw [trimSlashes_slashed h, split_slashed (fun n hn => (h n hn).2.2.2) hne, dropLast_concat,
    getLast?_concat]
  rfl

end WeaverSSH.Vfs
