import Mathlib.Data.List.Lex
import WeaverSSH.Framework.Text

/-!
# Maps, and the order in which they are gone through

A map is the list of its entries in the order of their keys, so that maps with the same entries are
the same (`OrderedMap.ext_get`). A program meets the entries of a map in an order that is not for it
to choose: `Orders` says which, for each place in a run.

`collect` makes a map of entries that are met one by one under new names, of which the last one met
stays; so it depends on the order exactly where entries of one name differ.
-/

namespace WeaverSSH

open List Option Rune

structure OrderedMap (κ ν : Type) [LinearOrder κ] where
  entries : List (κ × ν)
  ordered : entries.Pairwise fun a b => a.1 < b.1
deriving DecidableEq

/-- The order in which the entries of a map are met, at each address. -/
def Orders (κ ν : Type) : Type := List ℕ → List (κ × ν) → List (κ × ν)

def Orders.sub {κ ν : Type} (σ : Orders κ ν) (i : ℕ) : Orders κ ν := fun address => σ (i :: address)

def Orders.Fair {κ ν : Type} (σ : Orders κ ν) : Prop := ∀ address l, (σ address l).Perm l

lemma Orders.Fair.sub {κ ν : Type} {σ : Orders κ ν} (h : σ.Fair) (i : ℕ) : (σ.sub i).Fair :=
  fun address l => h (i :: address) l

namespace OrderedMap

section

variable {κ ν : Type} [LinearOrder κ]

/-- The entry of a key is put in its place, instead of the one that is there. -/
def insert (key : κ) (value : ν) : List (κ × ν) → List (κ × ν)
  | [] => [(key, value)]
  | entry :: rest =>
    if key < entry.1 then (key, value) :: entry :: rest
    else if key = entry.1 then (key, value) :: rest
    else entry :: insert key value rest

variable {key : κ} {l : List (κ × ν)} {m : OrderedMap κ ν} {name : κ → Option κ}

variable {value : ν} {entry : κ × ν}

lemma mem_insert (h : entry ∈ insert key value l) : entry = (key, value) ∨ entry ∈ l := by
  induction l with
  | nil =>
    rw [insert, mem_singleton] at h
    exact .inl h
  | cons first rest ih =>
    rw [insert] at h
    split_ifs at h
    · exact mem_cons.mp h
    · rcases mem_cons.mp h with rfl | h
      · exact .inl rfl
      · exact .inr (mem_cons_of_mem _ h)
    · rcases mem_cons.mp h with rfl | h
      · exact .inr mem_cons_self
      · exact (ih h).imp_right (mem_cons_of_mem _)

lemma ordered_insert (key : κ) (value : ν) (h : l.Pairwise fun a b => a.1 < b.1) :
    (insert key value l).Pairwise fun a b => a.1 < b.1 := by
  induction l with
  | nil => exact pairwise_singleton _ _
  | cons first rest ih =>
    obtain ⟨hfirst, hrest⟩ := pairwise_cons.mp h
    rw [insert]
    split_ifs with hlt heq
    · refine pairwise_cons.mpr ⟨fun entry hentry => ?_, h⟩
      rcases mem_cons.mp hentry with rfl | hentry
      · exact hlt
      · exact hlt.trans (hfirst entry hentry)
    · subst heq
      exact pairwise_cons.mpr ⟨hfirst, hrest⟩
    · refine pairwise_cons.mpr ⟨fun entry hentry => ?_, ih hrest⟩
      rcases mem_insert hentry with rfl | hentry
      · exact lt_of_le_of_ne (not_lt.mp hlt) (Ne.symm heq)
      · exact hfirst entry hentry

def empty : OrderedMap κ ν := ⟨[], List.Pairwise.nil⟩

def put (m : OrderedMap κ ν) (key : κ) (value : ν) : OrderedMap κ ν :=
  ⟨insert key value m.entries, ordered_insert key value m.ordered⟩

def get (m : OrderedMap κ ν) (key : κ) : Option ν := m.entries.lookup key

/-- The map without the entries of some keys. -/
def filter (keep : κ → Bool) (m : OrderedMap κ ν) : OrderedMap κ ν :=
  ⟨m.entries.filter fun entry => keep entry.1, m.ordered.sublist filter_sublist⟩

@[simp]
lemma get_empty (key : κ) : (empty : OrderedMap κ ν).get key = none := rfl

lemma lookup_insert (key key' : κ) (value : ν) (l : List (κ × ν)) :
    (insert key value l).lookup key' = if key' = key then some value else l.lookup key' := by
  induction l with
  | nil =>
    by_cases hkey : key' = key
    · simp [insert, hkey]
    · simp [insert, lookup_cons, hkey, beq_false_of_ne hkey]
  | cons first rest ih =>
    by_cases hkey : key' = key
    · subst hkey
      rw [if_pos rfl, insert]
      split_ifs with hlt heq
      · exact lookup_cons_self
      · exact lookup_cons_self
      · rw [lookup_cons, beq_false_of_ne heq, ih, if_pos rfl]
    · rw [if_neg hkey, insert]
      split_ifs with hlt heq
      · rw [lookup_cons, beq_false_of_ne hkey]
      · subst heq
        rw [lookup_cons, lookup_cons, beq_false_of_ne hkey]
      · rw [lookup_cons, lookup_cons, ih, if_neg hkey]

lemma get_put (m : OrderedMap κ ν) (key key' : κ) (value : ν) :
    (m.put key value).get key' = if key' = key then some value else m.get key' :=
  lookup_insert key key' value m.entries

lemma get_eq_some : m.get key = some value ↔ (key, value) ∈ m.entries := by
  obtain ⟨l, h⟩ := m
  change l.lookup key = some value ↔ (key, value) ∈ l
  induction l with
  | nil => simp
  | cons first rest ih =>
    obtain ⟨hfirst, hrest⟩ := pairwise_cons.mp h
    rw [lookup_cons, mem_cons]
    by_cases hkey : key = first.1
    · have hnot : (key, value) ∉ rest := fun hmem => (hkey ▸ hfirst _ hmem).false
      subst hkey
      simp [hnot, Prod.ext_iff, eq_comm]
    · simp [beq_false_of_ne hkey, ih hrest, Prod.ext_iff, hkey]

lemma ext_get {m' : OrderedMap κ ν} (h : ∀ key, m.get key = m'.get key) : m = m' := by
  have hmem : ∀ entry, entry ∈ m.entries ↔ entry ∈ m'.entries := fun entry => by
    rw [← Prod.mk.eta (p := entry), ← get_eq_some, ← get_eq_some, h]
  have hperm : m.entries.Perm m'.entries :=
    (perm_ext_iff_of_nodup (m.ordered.imp fun hlt heq => (heq ▸ hlt).false)
      (m'.ordered.imp fun hlt heq => (heq ▸ hlt).false)).mpr hmem
  obtain ⟨l, hl⟩ := m
  obtain ⟨l', hl'⟩ := m'
  simp only [mk.injEq]
  exact hperm.eq_of_pairwise (fun a b _ _ hab hba => absurd hba hab.asymm) hl hl'

/-! ## Collecting -/

/-- Entries that are met one by one are put under the names they get, if they get one. -/
def collect (name : κ → Option κ) (m : OrderedMap κ ν) (l : List (κ × ν)) : OrderedMap κ ν :=
  l.foldl (fun m entry => (name entry.1).elim m fun key => m.put key entry.2) m

lemma get_collect (name : κ → Option κ) (m : OrderedMap κ ν) (l : List (κ × ν)) (key : κ) :
    (m.collect name l).get key =
      ((l.filter fun entry => name entry.1 = some key).getLast?.elim (m.get key)
        fun entry => some entry.2) := by
  induction l generalizing m with
  | nil => rfl
  | cons entry rest ih =>
    change (collect name ((name entry.1).elim m fun key => m.put key entry.2) rest).get key = _
    rw [ih]
    by_cases hname : name entry.1 = some key
    · rw [filter_cons_of_pos (by simpa using hname), List.getLast?_cons]
      cases (rest.filter fun entry => name entry.1 = some key).getLast? with
      | none => simp [hname, get_put]
      | some last => simp
    · rw [filter_cons_of_neg (by simpa using hname)]
      have hother : ((name entry.1).elim m fun key => m.put key entry.2).get key = m.get key := by
        cases hentry : name entry.1 with
        | none => rfl
        | some key' =>
          rw [hentry, some.injEq] at hname
          rw [elim_some, get_put, if_neg (Ne.symm hname)]
      rw [hother]

lemma get_collect_of_ne
    (h : ∀ entry ∈ l, name entry.1 ≠ some key) : (m.collect name l).get key = m.get key := by
  have hnone : (l.filter fun entry => name entry.1 = some key) = [] :=
    filter_eq_nil_iff.mpr fun entry hmem => by simpa using h entry hmem
  rw [get_collect, hnone]
  rfl

lemma exists_of_get_collect (h : (m.collect name l).get key = some value) :
    m.get key = some value ∨ ∃ entry ∈ l, name entry.1 = some key ∧ entry.2 = value := by
  rw [get_collect] at h
  cases hlast : (l.filter fun entry => name entry.1 = some key).getLast? with
  | none =>
    rw [hlast] at h
    exact .inl h
  | some last =>
    rw [hlast, elim_some, some.injEq] at h
    obtain ⟨hmem, hname⟩ := mem_filter.mp (mem_of_getLast? hlast)
    exact .inr ⟨last, hmem, by simpa using hname, h⟩

/-- Entries that get one name have one value. -/
def Agreed (name : κ → Option κ) (l : List (κ × ν)) (key : κ) : Prop :=
  ∀ entry ∈ l, ∀ entry' ∈ l, name entry.1 = some key → name entry'.1 = some key → entry.2 = entry'.2

lemma get_collect_of_agreed
    (h : Agreed name l key) (hmem : entry ∈ l) (hname : name entry.1 = some key) :
    (m.collect name l).get key = some entry.2 := by
  rw [get_collect]
  cases hlast : (l.filter fun entry => name entry.1 = some key).getLast? with
  | none =>
    rw [List.getLast?_eq_none_iff, filter_eq_nil_iff] at hlast
    exact absurd hname (by simpa using hlast entry hmem)
  | some last =>
    obtain ⟨hlmem, hlname⟩ := mem_filter.mp (mem_of_getLast? hlast)
    rw [elim_some, h last hlmem entry hmem (by simpa using hlname) hname]

lemma get_collect_perm {l' : List (κ × ν)} (hperm : l.Perm l') (h : Agreed name l' key) :
    (m.collect name l).get key = (m.collect name l').get key := by
  by_cases hsome : ∃ entry ∈ l', name entry.1 = some key
  · obtain ⟨entry, hmem, hname⟩ := hsome
    have h' : Agreed name l key := fun a ha b hb =>
      h a (hperm.mem_iff.mp ha) b (hperm.mem_iff.mp hb)
    rw [get_collect_of_agreed h hmem hname, get_collect_of_agreed h' (hperm.mem_iff.mpr hmem) hname]
  · have hnone : ∀ entry ∈ l', name entry.1 ≠ some key := fun entry hmem hname =>
      hsome ⟨entry, hmem, hname⟩
    rw [get_collect_of_ne hnone,
      get_collect_of_ne fun entry hmem => hnone entry (hperm.mem_iff.mp hmem)]

lemma collect_entries (hperm : l.Perm m.entries) :
    (empty : OrderedMap κ ν).collect some l = m := by
  refine ext_get fun key => ?_
  cases hget : m.get key with
  | none =>
    rw [get_collect_of_ne, get_empty]
    intro entry hentry hkey
    have hsome := get_eq_some.mpr (hperm.mem_iff.mp hentry)
    rw [some.inj hkey, hget] at hsome
    cases hsome
  | some value =>
    have hagreed : Agreed some l key := by
      intro entry hentry entry' hentry' hkey hkey'
      have hsome := get_eq_some.mpr (hperm.mem_iff.mp hentry)
      have hsome' := get_eq_some.mpr (hperm.mem_iff.mp hentry')
      rw [some.inj hkey] at hsome
      rw [some.inj hkey'] at hsome'
      exact some.inj (hsome.symm.trans hsome')
    exact get_collect_of_agreed hagreed (hperm.mem_iff.mpr (get_eq_some.mp hget)) rfl

def lastly [DecidableEq ν] (entry : κ × ν) : Orders κ ν :=
  fun _ l => if entry ∈ l then l.erase entry ++ [entry] else l

lemma fair_lastly [DecidableEq ν] (entry : κ × ν) : (lastly entry).Fair := by
  intro address l
  unfold lastly
  split_ifs with hmem
  · exact (perm_append_singleton entry (l.erase entry)).trans (perm_cons_erase hmem).symm
  · exact .refl l

lemma exists_get_collect [DecidableEq ν] (hmem : entry ∈ l)
    (hname : name entry.1 = some key) (address : List ℕ) :
    (m.collect name (lastly entry address l)).get key = some entry.2 := by
  rw [get_collect, lastly, if_pos hmem, filter_append,
    filter_cons_of_pos (by simpa using hname), List.getLast?_append]
  rfl

end

end OrderedMap

/-! ## Texts as keys -/

def Rune.code : Rune → ℕ
  | .char c => c.toNat
  | .raw b => 0x110000 + b.toNat

lemma Rune.toNat_lt (c : Char) : c.toNat < 0x110000 := by
  have hvalid := c.valid
  simp only [UInt32.isValidChar, Nat.isValidChar] at hvalid
  change c.val.toNat < 0x110000
  omega

lemma Rune.code_injective : Function.Injective code := by
  intro r r' h
  cases r with
  | char c =>
    have hc := toNat_lt c
    cases r' with
    | char c' => exact congrArg char (Char.toNat_inj.mp h)
    | raw b => simp only [code] at h; omega
  | raw b =>
    cases r' with
    | char c =>
      have hc := toNat_lt c
      simp only [code] at h
      omega
    | raw b' => exact congrArg raw (UInt8.toNat_inj.mp (Nat.add_left_cancel h))

instance : LinearOrder Text :=
  LinearOrder.lift' (fun t : Text => t.map code)
    (map_injective_iff.mpr code_injective)

end WeaverSSH
