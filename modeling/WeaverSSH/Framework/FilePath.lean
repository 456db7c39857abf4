import WeaverSSH.Framework.Text

/-!
# Slash-separated paths

The package `path`, and `path/filepath` where the separator is a slash: `clean`, `join` and `rel`. A
name of an entry (`Plain`) is not empty, has no slash in it and is neither of the two that stand for
directories. Put behind a path it is the last element (`cleanNames_join_plain`), and lies below the
path (`below_join`).
-/

namespace WeaverSSH.FilePath

open List

def slash : Rune := .char '/'

def dot : Text := "."

def dotDot : Text := ".."

def slashed (names : List Text) : Text := intercalate [slash] names

def isAbs (t : Text) : Bool := t.head? = some slash

/-- `strings.Trim` of slashes. -/
def trimSlashes (t : Text) : Text := (t.dropWhile (· = slash)).rdropWhile (· = slash)

/-- One element of a path after those that are left of the ones before it. -/
def cleanStep (rooted : Bool) (names : List Text) (name : Text) : List Text :=
  if name = [] ∨ name = dot then names
  else if name = dotDot then
    match names.getLast? with
    | some last => if last = dotDot then names ++ [dotDot] else names.dropLast
    | none => if rooted then [] else [dotDot]
  else names ++ [name]

/-- The elements that `clean` leaves. -/
def cleanNames (t : Text) : List Text := (split t '/').foldl (cleanStep (isAbs t)) []

def clean (t : Text) : Text :=
  let names := cleanNames t
  if isAbs t then slash :: slashed names
  else if names = [] then dot
  else slashed names

def join (elems : List Text) : Text :=
  let elems := elems.filter (· ≠ [])
  if elems = [] then [] else clean (slashed elems)

def dir (t : Text) : Text := clean (slashed ((split t '/').dropLast ++ [[]]))

def base (t : Text) : Text :=
  let names := (split t '/').filter (· ≠ [])
  if t = [] then dot else names.getLast?.getD [slash]

/-- What is left of two lists after the part they have in common. -/
def dropCommon : List Text → List Text → List Text × List Text
  | a :: as, b :: bs => if a = b then dropCommon as bs else (a :: as, b :: bs)
  | as, bs => (as, bs)

def rel (basePath target : Text) : Option Text :=
  if isAbs basePath ≠ isAbs target then none
  else
    let (up, down) := dropCommon (cleanNames basePath) (cleanNames target)
    if dotDot ∈ up then none
    else
      let names := up.map (fun _ => dotDot) ++ down
      some (if names = [] then dot else slashed names)

/-- Whether a path is below a directory, by the way to it. -/
def withinRoot (root target : Text) : Bool :=
  match rel root target with
  | none => false
  | some way => way = dot || way = [] || (!hasPrefix way dotDot && !isAbs way)

def Plain (name : Text) : Prop :=
  name ≠ [] ∧ name ≠ dot ∧ name ≠ dotDot ∧ slash ∉ name

instance (name : Text) : Decidable (Plain name) := by
  unfold Plain
  infer_instance

/-! ## Plain names behind relative paths -/

lemma split_slash (a b : Text) : split (a ++ slash :: b) '/' = split a '/' ++ split b '/' :=
  splitOnP_append_cons a b rfl

variable {name t : Text} {rooted : Bool}

lemma split_plain (h : slash ∉ name) : split name '/' = [name] := by
  have hone : slashed [name] = name := by simp [slashed, intercalate]
  calc split name '/'
      = split (slashed [name]) '/' := by rw [hone]
    _ = [name] := by
      refine splitOn_intercalate slash ?_ (cons_ne_nil _ _)
      intro other hother
      rw [mem_singleton] at hother
      exact hother ▸ h

lemma slash_notMem_of_mem_split (h : name ∈ split t '/') : slash ∉ name := by
  induction t generalizing name with
  | nil =>
    rw [show split [] '/' = [[]] from rfl, mem_singleton] at h
    rw [h]
    exact not_mem_nil
  | cons r rest ih =>
    unfold split splitOn at h ih
    rw [splitOnP_cons_eq_if_modifyHead] at h
    split_ifs at h with hr
    · rcases mem_cons.mp h with h | h
      · rw [h]
        exact not_mem_nil
      · exact ih h
    · cases hparts : splitOnP (fun x => x == slash) rest with
      | nil =>
        rw [show (Rune.char '/') = slash from rfl, hparts] at h
        cases h
      | cons first others =>
        rw [show (Rune.char '/') = slash from rfl, hparts] at h ih
        rcases mem_cons.mp h with h | h
        · rw [h, mem_cons, not_or]
          refine ⟨fun heq => hr ?_, ih mem_cons_self⟩
          exact beq_iff_eq.mpr heq.symm
        · exact ih (mem_cons_of_mem _ h)

lemma mem_cleanStep {names : List Text} {other : Text} (h : other ∈ cleanStep rooted names name) :
    other ∈ names ∨ (other = name ∧ name ≠ [] ∧ name ≠ dot) := by
  unfold cleanStep at h
  by_cases hskip : name = [] ∨ name = dot
  · rw [if_pos hskip] at h
    exact .inl h
  have hne := not_or.mp hskip
  rw [if_neg hskip] at h
  by_cases hup : name = dotDot
  · rw [if_pos hup] at h
    split at h
    · split_ifs at h
      · rcases mem_append.mp h with h | h
        · exact .inl h
        · exact .inr ⟨(mem_singleton.mp h).trans hup.symm, hne⟩
      · exact .inl (mem_of_mem_dropLast h)
    · cases rooted with
      | true => cases h
      | false => exact .inr ⟨(mem_singleton.mp h).trans hup.symm, hne⟩
  · rw [if_neg hup] at h
    rcases mem_append.mp h with h | h
    · exact .inl h
    · exact .inr ⟨mem_singleton.mp h, hne⟩

lemma mem_foldl_cleanStep {parts names : List Text}
    (h : name ∈ parts.foldl (cleanStep rooted) names) :
    name ∈ names ∨ (name ∈ parts ∧ name ≠ [] ∧ name ≠ dot) := by
  induction parts generalizing names with
  | nil => exact .inl h
  | cons part rest ih =>
    rcases ih h with hstep | ⟨hmem, hne⟩
    · rcases mem_cleanStep hstep with hold | ⟨heq, hne⟩
      · exact .inl hold
      · exact .inr ⟨heq ▸ mem_cons_self, heq ▸ hne⟩
    · exact .inr ⟨mem_cons_of_mem _ hmem, hne⟩

lemma mem_cleanNames (h : name ∈ cleanNames t) : name ≠ [] ∧ slash ∉ name := by
  rcases mem_foldl_cleanStep h with h | ⟨hmem, hne, -⟩
  · cases h
  · exact ⟨hne, slash_notMem_of_mem_split hmem⟩

lemma head_slashed (hname : name ≠ []) (rest : List Text) :
    (slashed (name :: rest)).head? = name.head? := by
  cases name with
  | nil => exact absurd rfl hname
  | cons r name =>
    cases rest with
    | nil => simp [slashed, intercalate]
    | cons next rest => simp [slashed, intercalate_cons_cons]

lemma isAbs_clean (h : isAbs t = false) : isAbs (clean t) = false := by
  unfold clean
  rw [h, if_neg Bool.false_ne_true]
  cases hnames : cleanNames t with
  | nil => rfl
  | cons name rest =>
    rw [if_neg (cons_ne_nil _ _)]
    have hname := mem_cleanNames (hnames ▸ mem_cons_self : name ∈ cleanNames t)
    unfold isAbs
    rw [head_slashed hname.1, decide_eq_false_iff_not]
    exact fun hhead => hname.2 (mem_of_mem_head? hhead)

lemma join_eq_clean (hname : name ≠ []) :
    join [t, name] = clean (slashed ([t, name].filter (· ≠ []))) := by
  unfold join
  rw [if_neg]
  simp [hname]

/-! ## Paths that are made of plain names -/

lemma slashed_singleton (name : Text) : slashed [name] = name := by simp [slashed, intercalate]

lemma slashed_append {a b : List Text} (ha : a ≠ []) (hb : b ≠ []) :
    slashed (a ++ b) = slashed a ++ slash :: slashed b := by
  induction a with
  | nil => exact absurd rfl ha
  | cons name a ih =>
    cases a with
    | nil =>
      obtain ⟨first, rest, rfl⟩ := exists_cons_of_ne_nil hb
      simp [slashed, intercalate]
    | cons next a =>
      have hrest := ih (cons_ne_nil _ _)
      unfold slashed at hrest ⊢
      rw [cons_append, cons_append, intercalate_cons_cons, intercalate_cons_cons,
        ← cons_append, hrest]
      simp

lemma slashed_cons (name : Text) {rest : List Text} (hrest : rest ≠ []) :
    slashed (name :: rest) = name ++ slash :: slashed rest := by
  rw [← singleton_append, slashed_append (cons_ne_nil _ _) hrest, slashed_singleton]

lemma split_slashed {names : List Text} (h : ∀ name ∈ names, slash ∉ name) (hne : names ≠ []) :
    split (slashed names) '/' = names :=
  splitOn_intercalate slash h hne

lemma slashed_split (t : Text) : slashed (split t '/') = t := intercalate_splitOn slash

lemma slashed_eq_nil {names : List Text} (h : ∀ name ∈ names, name ≠ []) :
    slashed names = [] ↔ names = [] := by
  refine ⟨fun hnil => ?_, fun hnil => hnil ▸ rfl⟩
  cases names with
  | nil => rfl
  | cons name rest =>
    have hname := h name mem_cons_self
    have hhead := head_slashed hname rest
    rw [hnil] at hhead
    exact absurd (head?_eq_none_iff.mp hhead.symm) hname

lemma slashed_inj {a b : List Text} (ha : ∀ name ∈ a, Plain name) (hb : ∀ name ∈ b, Plain name)
    (h : slashed a = slashed b) : a = b := by
  by_cases hnil : a = []
  · rw [hnil] at h ⊢
    exact ((slashed_eq_nil fun name hname => (hb name hname).1).mp h.symm).symm
  · have hnil' : b ≠ [] := by
      rintro rfl
      exact hnil ((slashed_eq_nil fun name hname => (ha name hname).1).mp h)
    rw [← split_slashed (fun name hname => (ha name hname).2.2.2) hnil, h,
      split_slashed (fun name hname => (hb name hname).2.2.2) hnil']

lemma getLast_slashed {names : List Text} (hname : name ≠ []) :
    (slashed (names ++ [name])).getLast? = name.getLast? := by
  by_cases hnil : names = []
  · rw [hnil, nil_append, slashed_singleton]
  · rw [slashed_append hnil (cons_ne_nil _ _), slashed_singleton]
    obtain ⟨r, rest, rfl⟩ := exists_cons_of_ne_nil hname
    rw [getLast?_append, getLast?_cons_cons, getLast?_eq_some_getLast (cons_ne_nil r rest)]
    rfl

lemma trim_eq_self_iff {p : Rune → Bool} : (t.dropWhile p).rdropWhile p = t ↔
    (∀ r ∈ t.head?, p r = false) ∧ ∀ r ∈ t.getLast?, p r = false := by
  constructor
  · intro h
    have hdrop : t.dropWhile p = t := by
      refine (dropWhile_suffix p).sublist.eq_of_length_le ?_
      calc t.length = ((t.dropWhile p).rdropWhile p).length := by rw [h]
        _ ≤ (t.dropWhile p).length := IsPrefix.length_le <| rdropWhile_prefix p _
    rw [hdrop] at h
    refine ⟨fun r hr => ?_, fun r hr => ?_⟩
    · cases t with
      | nil => cases hr
      | cons r' t =>
        obtain rfl : r' = r := Option.some.inj hr
        by_contra hp
        rw [dropWhile_cons_of_pos (by simpa using hp)] at hdrop
        have hlength := (dropWhile_suffix p (l := t)).length_le
        rw [hdrop, length_cons] at hlength
        omega
    · have hne : t ≠ [] := by
        rintro rfl
        cases hr
      have hlast := rdropWhile_eq_self_iff.mp h hne
      rw [getLast?_eq_some_getLast hne] at hr
      rw [← Option.some.inj hr]
      simpa using hlast
  · rintro ⟨hhead, hlast⟩
    have hdrop : t.dropWhile p = t := by
      cases t with
      | nil => rfl
      | cons r t => exact dropWhile_cons_of_neg (by rw [hhead r rfl]; exact Bool.false_ne_true)
    rw [hdrop, rdropWhile_eq_self_iff]
    intro hne
    rw [hlast _ (getLast?_eq_some_getLast hne)]
    exact Bool.false_ne_true

section plain

variable {names : List Text} (h : ∀ name ∈ names, Plain name)

include h

lemma head_slashed_ne {r : Rune} (hr : r ∈ (slashed names).head?) : r ≠ slash := by
  cases names with
  | nil => cases hr
  | cons name rest =>
    have hname := h name mem_cons_self
    rw [head_slashed hname.1] at hr
    rintro rfl
    exact hname.2.2.2 (mem_of_mem_head? hr)

lemma getLast_slashed_ne {r : Rune} (hr : r ∈ (slashed names).getLast?) : r ≠ slash := by
  induction names using reverseRecOn with
  | nil => cases hr
  | append_singleton names name _ =>
    have hname := h name (mem_append_right _ mem_cons_self)
    rw [getLast_slashed hname.1] at hr
    rintro rfl
    exact hname.2.2.2 (mem_of_getLast? hr)

lemma trimSlashes_slashed : trimSlashes (slashed names) = slashed names :=
  trim_eq_self_iff.mpr ⟨fun _ hr => decide_eq_false (head_slashed_ne h hr),
    fun _ hr => decide_eq_false (getLast_slashed_ne h hr)⟩

lemma isAbs_slashed : isAbs (slashed names) = false :=
  decide_eq_false fun hhead => head_slashed_ne h hhead rfl

lemma foldl_cleanStep_plain (rooted : Bool) (before : List Text) :
    names.foldl (cleanStep rooted) before = before ++ names := by
  induction names generalizing before with
  | nil => rw [foldl_nil, append_nil]
  | cons name rest ih =>
    obtain ⟨hnil, hdot, hup, -⟩ := h name mem_cons_self
    rw [foldl_cons, cleanStep, if_neg (not_or.mpr ⟨hnil, hdot⟩), if_neg hup,
      ih fun name hname => h name (mem_cons_of_mem _ hname), append_assoc]
    rfl

lemma clean_slashed (hne : names ≠ []) : clean (slashed names) = slashed names := by
  have hnames : cleanNames (slashed names) = names := by
    rw [cleanNames, split_slashed (fun name hname => (h name hname).2.2.2) hne,
      foldl_cleanStep_plain h, nil_append]
  unfold clean
  rw [hnames, isAbs_slashed h, if_neg Bool.false_ne_true, if_neg hne]

end plain

lemma ne_dot_of_mem_cleanNames (h : name ∈ cleanNames t) : name ≠ dot := by
  rcases mem_foldl_cleanStep h with h | ⟨-, -, hdot⟩
  · cases h
  · exact hdot

lemma mem_slashed {names : List Text} (hname : name ∈ names) {r : Rune} (hr : r ∈ name) :
    r ∈ slashed names := by
  induction names with
  | nil => cases hname
  | cons first rest ih =>
    rw [← singleton_append]
    by_cases hrest : rest = []
    · rw [hrest, append_nil, slashed_singleton]
      rw [hrest, mem_singleton] at hname
      exact hname ▸ hr
    · rw [slashed_append (cons_ne_nil _ _) hrest, slashed_singleton]
      rcases mem_cons.mp hname with rfl | hmem
      · exact mem_append_left _ hr
      · exact mem_append_right _ (mem_cons_of_mem _ (ih hmem))

lemma mem_of_mem_slashed {names : List Text} {r : Rune} (h : r ∈ slashed names) :
    r = slash ∨ ∃ name ∈ names, r ∈ name := by
  induction names with
  | nil => cases h
  | cons first rest ih =>
    rw [← singleton_append] at h
    by_cases hrest : rest = []
    · rw [hrest, append_nil, slashed_singleton] at h
      exact .inr ⟨first, mem_cons_self, h⟩
    · rw [slashed_append (cons_ne_nil _ _) hrest, slashed_singleton] at h
      rcases mem_append.mp h with h | h
      · exact .inr ⟨first, mem_cons_self, h⟩
      · rcases mem_cons.mp h with h | h
        · exact .inl h
        · rcases ih h with h | ⟨name, hname, h⟩
          · exact .inl h
          · exact .inr ⟨name, mem_cons_of_mem _ hname, h⟩

def nameLength (names : List Text) : ℕ := (names.map fun name => name.length + 1).sum

lemma length_slashed {names : List Text} (hne : names ≠ []) :
    (slashed names).length + 1 = nameLength names := by
  induction names with
  | nil => exact absurd rfl hne
  | cons name rest ih =>
    by_cases hrest : rest = []
    · rw [hrest, slashed_singleton]
      rfl
    · rw [← singleton_append, slashed_append (cons_ne_nil _ _) hrest, slashed_singleton]
      have hlength := ih hrest
      simp only [nameLength, length_append, length_cons, map_append, sum_append,
        map_cons, map_nil, sum_cons, sum_nil] at hlength ⊢
      omega

lemma nameLength_cleanStep_le (rooted : Bool) (names : List Text) (name : Text) :
    nameLength (cleanStep rooted names name) ≤ nameLength names + (name.length + 1) := by
  have hadd (other : Text) :
      nameLength (names ++ [other]) = nameLength names + (other.length + 1) := by
    simp [nameLength]
  unfold cleanStep
  by_cases hskip : name = [] ∨ name = dot
  · rw [if_pos hskip]
    exact Nat.le_add_right _ _
  rw [if_neg hskip]
  by_cases hup : name = dotDot
  · rw [if_pos hup, hup]
    cases hlast : names.getLast? with
    | none =>
      dsimp only
      split_ifs
      · exact Nat.zero_le _
      · exact Nat.le_add_left _ _
    | some last =>
      dsimp only
      split_ifs
      · exact (hadd dotDot).le
      · refine Nat.le_trans ?_ (Nat.le_add_right _ _)
        exact List.Sublist.sum_le_sum ((dropLast_sublist names).map _) fun _ _ => Nat.zero_le _
  · rw [if_neg hup]
    exact (hadd name).le

lemma length_cleanNames_le (hne : cleanNames t ≠ []) :
    (slashed (cleanNames t)).length ≤ t.length := by
  have hfold (rooted : Bool) (parts before : List Text) :
      nameLength (parts.foldl (cleanStep rooted) before) ≤
        nameLength before + nameLength parts := by
    induction parts generalizing before with
    | nil => exact Nat.le_add_right _ _
    | cons part parts ih =>
      have hstep := nameLength_cleanStep_le rooted before part
      have hrest := ih (cleanStep rooted before part)
      rw [foldl_cons]
      simp only [nameLength, map_cons, sum_cons] at hstep hrest ⊢
      omega
  have hparts : split t '/' ≠ [] := splitOnP_ne_nil _ _
  have hwhole := length_slashed hparts
  rw [slashed_split] at hwhole
  have hclean := length_slashed hne
  have hbound := hfold (isAbs t) (split t '/') []
  change nameLength (cleanNames t) ≤ 0 + _ at hbound
  omega

/-! ## Cleaning a clean path -/

def Canonical (rooted : Bool) (names : List Text) : Prop :=
  names.foldl (cleanStep rooted) [] = names

/-- Without the last name, unless that is the directory above: it was added to what was left of
those before. -/
lemma Canonical.init {init : List Text} {last : Text} (h : Canonical rooted (init ++ [last]))
    (hup : last ≠ dotDot) : Canonical rooted init := by
  have hlist : last ∈ (init ++ [last]).foldl (FilePath.cleanStep rooted) [] := by
    rw [h]
    exact mem_concat_self
  rcases mem_foldl_cleanStep hlist with hnone | ⟨-, hne, hdot⟩
  · exact absurd hnone not_mem_nil
  · rw [Canonical, foldl_append] at h
    change FilePath.cleanStep rooted (init.foldl (FilePath.cleanStep rooted) []) last =
      init ++ [last] at h
    rw [FilePath.cleanStep, if_neg (not_or.mpr ⟨hne, hdot⟩), if_neg hup] at h
    exact (append_inj' h rfl).1

lemma Canonical.cleanStep {names : List Text} (h : Canonical rooted names) (name : Text) :
    Canonical rooted (cleanStep rooted names name) := by
  have hfold (last : Text) : (names ++ [last]).foldl (FilePath.cleanStep rooted) [] =
      FilePath.cleanStep rooted names last := by
    rw [foldl_append, h]
    rfl
  by_cases hskip : name = [] ∨ name = dot
  · have hsame : FilePath.cleanStep rooted names name = names := if_pos hskip
    rwa [hsame]
  by_cases hup : name = dotDot
  · subst hup
    cases hlast : names.getLast? with
    | none =>
      obtain rfl := getLast?_eq_none_iff.mp hlast
      cases rooted with
      | true => exact show Canonical true [] from rfl
      | false => exact show Canonical false [dotDot] by unfold Canonical; decide
    | some last =>
      obtain ⟨init, rfl⟩ := getLast?_eq_some_iff.mp hlast
      by_cases hdots : last = dotDot
      · have hadds : FilePath.cleanStep rooted (init ++ [last]) dotDot = init ++ [last] ++
            [dotDot] := by
          unfold FilePath.cleanStep
          rw [if_neg (by decide), if_pos rfl, hlast]
          exact if_pos hdots
        rw [hadds]
        exact (hfold dotDot).trans hadds
      · have hdrops : FilePath.cleanStep rooted (init ++ [last]) dotDot = init := by
          unfold FilePath.cleanStep
          rw [if_neg (by decide), if_pos rfl, hlast]
          exact (if_neg hdots).trans dropLast_concat
        rw [hdrops]
        exact h.init hdots
  · have hadds : FilePath.cleanStep rooted names name = names ++ [name] := by
      unfold FilePath.cleanStep
      rw [if_neg hskip, if_neg hup]
    rw [hadds]
    exact (hfold name).trans hadds

lemma canonical_cleanNames (t : Text) : Canonical (isAbs t) (cleanNames t) := by
  unfold cleanNames
  induction split t '/' using reverseRecOn with
  | nil => rfl
  | append_singleton parts part ih =>
    rw [foldl_append]
    exact ih.cleanStep part

lemma isAbs_clean_eq (t : Text) : isAbs (clean t) = isAbs t := by
  cases habs : isAbs t with
  | true =>
    rw [clean, habs]
    rfl
  | false => exact isAbs_clean habs

lemma split_clean (hne : cleanNames t ≠ []) :
    split (clean t) '/' = if isAbs t then [] :: cleanNames t else cleanNames t := by
  have hparts := split_slashed (fun _ hname => (mem_cleanNames hname).2) hne
  cases habs : isAbs t with
  | true =>
    rw [clean, if_pos habs, if_pos rfl]
    calc split (slash :: slashed (cleanNames t)) '/'
        = split [] '/' ++ split (slashed (cleanNames t)) '/' := split_slash [] _
      _ = [] :: cleanNames t := by rw [hparts]; rfl
  | false =>
    rw [clean, habs]
    exact (congrArg (split · '/') (if_neg hne)).trans hparts

@[simp] lemma cleanNames_clean (t : Text) : cleanNames (clean t) = cleanNames t := by
  have hcanonical := canonical_cleanNames t
  rw [cleanNames, isAbs_clean_eq]
  by_cases hnone : cleanNames t = []
  · rw [clean, hnone]
    cases isAbs t with
    | true => rfl
    | false => rfl
  · rw [split_clean hnone]
    cases habs : isAbs t with
    | true =>
      rw [habs] at hcanonical
      exact hcanonical
    | false =>
      rw [habs] at hcanonical
      exact hcanonical

lemma cleanNames_join_plain (hname : Plain name) (t : Text) :
    cleanNames (join [t, name]) = cleanNames t ++ [name] := by
  have hstep (rooted : Bool) (names : List Text) :
      cleanStep rooted names name = names ++ [name] := by
    rw [cleanStep, if_neg (not_or.mpr ⟨hname.1, hname.2.1⟩), if_neg hname.2.2.1]
  rw [join_eq_clean hname.1, cleanNames_clean]
  by_cases ht : t = []
  · have hslashed : slashed ([t, name].filter (· ≠ [])) = name := by
      simp [ht, hname.1, slashed, intercalate]
    rw [hslashed, ht, cleanNames, split_plain hname.2.2.2]
    exact hstep _ []
  · have hslashed : slashed ([t, name].filter (· ≠ [])) = t ++ slash :: name := by
      simp [ht, hname.1, slashed, intercalate]
    have habs : isAbs (t ++ slash :: name) = isAbs t := by
      obtain ⟨r, rest, rfl⟩ := exists_cons_of_ne_nil ht
      rfl
    rw [hslashed, cleanNames, habs, split_slash, split_plain hname.2.2.2, foldl_append]
    exact hstep _ _

lemma isAbs_join_eq (hname : slash ∉ name) (t : Text) : isAbs (join [t, name]) = isAbs t := by
  have hrelative : isAbs name = false := decide_eq_false fun h => hname (mem_of_mem_head? h)
  by_cases ht : t = []
  · subst ht
    by_cases hnil : name = []
    · subst hnil
      rfl
    · rw [join_eq_clean hnil, isAbs_clean_eq]
      have hslashed : slashed ([[], name].filter (· ≠ [])) = name := by
        simp [hnil, slashed, intercalate]
      rw [hslashed, hrelative]
      rfl
  · obtain ⟨r, rest, rfl⟩ := exists_cons_of_ne_nil ht
    by_cases hnil : name = []
    · subst hnil
      have hjoin : join [r :: rest, []] = clean (r :: rest) := by simp [join, slashed, intercalate]
      rw [hjoin, isAbs_clean_eq]
    · have hslashed : slashed ([r :: rest, name].filter (· ≠ [])) = r ::
          (rest ++ slash :: name) := by
        simp [hnil, slashed, intercalate]
      rw [join_eq_clean hnil, isAbs_clean_eq, hslashed]
      rfl

lemma cleanNames_join_nil (t : Text) : cleanNames (join [t, []]) = cleanNames t := by
  by_cases ht : t = []
  · rw [ht]
    rfl
  · have hjoin : join [t, []] = clean t := by simp [join, ht, slashed, intercalate]
    rw [hjoin, cleanNames_clean]

lemma cleanNames_join_dot (t : Text) : cleanNames (join [t, dot]) = cleanNames t := by
  have hdot : split dot '/' = [dot] := by decide
  rw [join_eq_clean (by decide), cleanNames_clean]
  by_cases ht : t = []
  · rw [ht]
    decide
  · have hslashed : slashed ([t, dot].filter (· ≠ [])) = t ++ slash :: dot := by
      have hfilter : [t, dot].filter (· ≠ []) = [t, dot] := by simp [ht, show dot ≠ [] by decide]
      rw [hfilter, slashed_cons _ (cons_ne_nil _ _), slashed_singleton]
    have habs : isAbs (t ++ slash :: dot) = isAbs t := by
      obtain ⟨r, rest, rfl⟩ := exists_cons_of_ne_nil ht
      rfl
    rw [hslashed, cleanNames, habs, split_slash, hdot, foldl_append]
    rfl

lemma dir_clean {init : List Text} {last : Text} (hnames : cleanNames t = init ++ [last])
    (hup : last ≠ dotDot) :
    isAbs (dir (clean t)) = isAbs t ∧ cleanNames (dir (clean t)) = init := by
  have hne : cleanNames t ≠ [] := by
    rw [hnames]
    exact append_ne_nil_of_right_ne_nil _ (cons_ne_nil _ _)
  have hcanonical : Canonical (isAbs t) init := (hnames ▸ canonical_cleanNames t).init hup
  have hinit : ∀ name ∈ init, name ≠ [] ∧ slash ∉ name := fun name hname =>
    mem_cleanNames (hnames ▸ mem_append_left _ hname : name ∈ cleanNames t)
  have hparts : ∀ name ∈ init ++ [[]], slash ∉ name := by
    refine forall_mem_append.mpr ⟨fun name hname => (hinit name hname).2, ?_⟩
    intro name hname
    rw [mem_singleton.mp hname]
    exact not_mem_nil
  -- the empty part that is left behind the last slash is skipped
  have hfold (rooted : Bool) (h : Canonical rooted init) :
      (init ++ [[]]).foldl (cleanStep rooted) [] = init := by
    rw [foldl_append, h]
    rfl
  unfold dir
  rw [isAbs_clean_eq, cleanNames_clean, split_clean hne, hnames]
  cases habs : isAbs t with
  | true =>
    rw [habs] at hcanonical
    rw [if_pos rfl, dropLast_cons_of_ne_nil (append_ne_nil_of_right_ne_nil _ (cons_ne_nil _ _)),
      dropLast_concat]
    have hrooted : isAbs (slashed ([] :: init ++ [[]])) = true := by
      rw [cons_append, slashed_cons _ (append_ne_nil_of_right_ne_nil _ (cons_ne_nil _ _))]
      rfl
    refine ⟨hrooted, ?_⟩
    rw [cleanNames, hrooted, split_slashed]
    · exact hfold true hcanonical
    · exact forall_mem_cons.mpr ⟨not_mem_nil, hparts⟩
    · exact cons_ne_nil _ _
  | false =>
    rw [habs] at hcanonical
    rw [if_neg Bool.false_ne_true, dropLast_concat]
    have hrelative : isAbs (slashed (init ++ [[]])) = false := by
      cases init with
      | nil => rfl
      | cons first rest =>
        have hfirst := hinit first mem_cons_self
        rw [cons_append, isAbs, head_slashed hfirst.1]
        exact decide_eq_false fun h => hfirst.2 (mem_of_mem_head? h)
    refine ⟨hrelative, ?_⟩
    rw [cleanNames, hrelative,
      split_slashed hparts (append_ne_nil_of_right_ne_nil _ (cons_ne_nil _ _))]
    exact hfold false hcanonical

/-! ## Paths below a directory -/

/-- The path is the directory or lies below it: it has more plain names. -/
structure Below (root p : Text) : Prop where
  sort : isAbs p = isAbs root
  names : ∃ rest, (∀ name ∈ rest, Plain name) ∧ cleanNames p = cleanNames root ++ rest

/-- The path is that of the directory, which may be written otherwise. -/
structure SamePath (root p : Text) : Prop where
  sort : isAbs p = isAbs root
  names : cleanNames p = cleanNames root

lemma Below.refl (root : Text) : Below root root := ⟨rfl, [], nofun, (append_nil _).symm⟩

lemma Below.trans {a b c : Text} (hab : Below a b) (hbc : Below b c) : Below a c := by
  obtain ⟨rest, hrest, hb⟩ := hab.names
  obtain ⟨rest', hrest', hc⟩ := hbc.names
  refine ⟨hbc.sort.trans hab.sort, rest ++ rest', forall_mem_append.mpr ⟨hrest, hrest'⟩, ?_⟩
  rw [hc, hb, append_assoc]

lemma below_join (hname : name = [] ∨ name = dot ∨ Plain name) (t : Text) :
    Below t (join [t, name]) := by
  rcases hname with rfl | rfl | hname
  · exact ⟨isAbs_join_eq not_mem_nil t, [], nofun, by rw [cleanNames_join_nil, append_nil]⟩
  · exact ⟨isAbs_join_eq (by decide) t, [], nofun, by rw [cleanNames_join_dot, append_nil]⟩
  · refine ⟨isAbs_join_eq hname.2.2.2 t, [name], ?_, cleanNames_join_plain hname t⟩
    intro other hother
    rwa [mem_singleton.mp hother]

lemma Below.dir_join {root : Text} {elems : List Text} (h : Below root (join elems)) :
    Below root (dir (join elems)) ∨ SamePath root (join elems) := by
  obtain ⟨rest, hrest, hnames⟩ := h.names
  rcases eq_nil_or_concat' rest with rfl | ⟨s, name, rfl⟩
  · exact .inr ⟨h.sort, hnames.trans (append_nil _)⟩
  · left
    have hjoin : join elems = clean (slashed (elems.filter (· ≠ []))) := by
      unfold join
      refine if_neg fun hnone => ?_
      rw [join, if_pos hnone, ← append_assoc] at hnames
      exact append_ne_nil_of_right_ne_nil _ (cons_ne_nil _ _) hnames.symm
    have hsort := h.sort
    rw [hjoin] at hnames hsort ⊢
    rw [cleanNames_clean, ← append_assoc] at hnames
    rw [isAbs_clean_eq] at hsort
    obtain ⟨hs, hname⟩ := forall_mem_append.mp hrest
    obtain ⟨habs, hdir⟩ := dir_clean hnames (hname name (mem_singleton_self _)).2.2.1
    exact ⟨habs.trans hsort, s, hs, hdir⟩

end WeaverSSH.FilePath
