import Mathlib.Data.Nat.Bitwise
import Mathlib.Tactic

/-!
# Trees of digests

A list of digests is reduced level by level: two neighbours are put together by `node`, a last one
that has no neighbour with itself (`above`). A path goes up from a digest through siblings, as the
bits of its position say (`climb`).

`node` need only tell apart the pairs that occur, a set `P`. Then a path to the root has gone
through the tree's levels (`climb_levels`), and if no digest at the bottom of either is one that
`node` makes, both end at the bottom together (`climb_bottom`).
-/

namespace WeaverSSH.MerkleTree

open List

variable {δ : Type*}

def pairs : List δ → List (δ × δ)
  | [] => []
  | [a] => [(a, a)]
  | a :: b :: rest => (a, b) :: pairs rest

def above (node : δ → δ → δ) (level : List δ) : List δ := (pairs level).map fun p => node p.1 p.2

/-- The levels from one on up, until there is one digest left; so many at most. -/
def levels (node : δ → δ → δ) : ℕ → List δ → List (List δ)
  | 0, level => [level]
  | fuel + 1, level =>
    if level.length ≤ 1 then [level] else level :: levels node fuel (above node level)

/-- The pair of a digest and its sibling, by the position of the digest. -/
def beside (position : ℕ) (current sibling : δ) : δ × δ :=
  if position % 2 = 1 then (sibling, current) else (current, sibling)

/-- The digest that a path comes to. -/
def climb (node : δ → δ → δ) : δ → ℕ → List δ → δ
  | current, _, [] => current
  | current, position, sibling :: rest =>
    let p := beside position current sibling
    climb node (node p.1 p.2) (position / 2) rest

/-- The pairs that are put together on a path. -/
def climbed (node : δ → δ → δ) : δ → ℕ → List δ → List (δ × δ)
  | _, _, [] => []
  | current, position, sibling :: rest =>
    let p := beside position current sibling
    p :: climbed node (node p.1 p.2) (position / 2) rest

variable {node : δ → δ → δ}

/-! ## One level -/

lemma length_pairs (level : List δ) : (pairs level).length = (level.length + 1) / 2 := by
  induction level using pairs.induct with
  | case1 => simp [pairs]
  | case2 a => simp [pairs]
  | case3 a b rest ih =>
    rw [pairs, length_cons, ih, length_cons, length_cons]
    omega

lemma length_above (level : List δ) : (above node level).length = (level.length + 1) / 2 := by
  rw [above, length_map, length_pairs]

lemma getElem?_pairs (level : List δ) (p : ℕ) :
    (pairs level)[p]? = level[2 * p]?.map fun a => (a, level[2 * p + 1]?.getD a) := by
  induction level using pairs.induct generalizing p with
  | case1 => rfl
  | case2 a =>
    cases p with
    | zero => rfl
    | succ p => simp [pairs, show 2 * (p + 1) = 2 * p + 1 + 1 by omega]
  | case3 a b rest ih =>
    cases p with
    | zero => rfl
    | succ p =>
      rw [pairs, getElem?_cons_succ, ih p, show 2 * (p + 1) = 2 * p + 1 + 1 by omega,
        getElem?_cons_succ, getElem?_cons_succ, getElem?_cons_succ, getElem?_cons_succ]

/-- The node above a digest is of it and its sibling, which is itself where the level ends. -/
lemma getElem?_above {level : List δ} {position sibling : ℕ} {current : δ}
    (hget : level[position]? = some current)
    (h : sibling = if position ^^^ 1 < level.length then position ^^^ 1 else position) :
    ∃ other, level[sibling]? = some other ∧ (sibling < position ↔ position % 2 = 1) ∧
      (above node level)[position / 2]? =
        some (if position % 2 = 1 then node other current else node current other) := by
  have hposition := (List.getElem?_eq_some_iff.mp hget).1
  rw [above, List.getElem?_map, getElem?_pairs]
  rcases Nat.even_or_odd position with heven | hodd
  · have hmod := Nat.even_iff.mp heven
    rw [Nat.xor_one_of_even heven] at h
    rw [show 2 * (position / 2) = position by omega, hget]
    by_cases hlast : position + 1 < level.length
    · exact ⟨level[position + 1], by simp [h, hlast, hmod]⟩
    · exact ⟨current, by simp [h, hlast, hmod, hget]⟩
  · have hmod := Nat.odd_iff.mp hodd
    have hbefore : position - 1 < level.length := by omega
    rw [Nat.xor_one_of_odd hodd, if_pos hbefore] at h
    rw [show 2 * (position / 2) = position - 1 by omega,
      show position - 1 + 1 = position by omega, hget, h, getElem?_eq_getElem hbefore]
    exact ⟨_, rfl, by omega, by simp [hmod]⟩

/-! ## Paths -/

lemma climb_append (current : δ) (position : ℕ) (siblings others : List δ) :
    climb node current position (siblings ++ others) =
      climb node (climb node current position siblings) (position / 2 ^ siblings.length)
        others := by
  induction siblings generalizing current position with
  | nil => rw [nil_append, length_nil, pow_zero, Nat.div_one]; rfl
  | cons sibling rest ih =>
    rw [cons_append, climb, ih, climb, length_cons, pow_succ', Nat.div_div_eq_div_mul]

lemma climbed_append (current : δ) (position : ℕ) (siblings others : List δ) :
    climbed node current position (siblings ++ others) = climbed node current position siblings ++
        climbed node (climb node current position siblings) (position / 2 ^ siblings.length)
          others := by
  induction siblings generalizing current position with
  | nil => rw [nil_append, length_nil, pow_zero, Nat.div_one]; rfl
  | cons sibling rest ih =>
    rw [cons_append, climbed, ih, climbed, climb, length_cons, pow_succ',
      Nat.div_div_eq_div_mul, cons_append]

lemma climb_take_succ {siblings : List δ} {i : ℕ} (hi : i < siblings.length) (current : δ)
    (position : ℕ) : ∃ p ∈ climbed node current position siblings,
      climb node current position (siblings.take (i + 1)) = node p.1 p.2 ∧
      ∃ sibling, p = beside (position / 2 ^ i)
        (climb node current position (siblings.take i)) sibling := by
  have hlen : (siblings.take i).length = i := length_take_of_le hi.le
  have hsplit : siblings.take (i + 1) = siblings.take i ++ [siblings[i]] := by
    rw [take_succ_eq_append_getElem hi]
  refine ⟨beside (position / 2 ^ i) (climb node current position (siblings.take i)) siblings[i],
    ?_, ?_, siblings[i], rfl⟩
  · have hall : siblings = siblings.take i ++ (siblings[i] :: siblings.drop (i + 1)) := by
      rw [cons_getElem_drop_succ, take_append_drop]
    have hmem := @climbed_append δ node current position (siblings.take i)
      (siblings[i] :: siblings.drop (i + 1))
    rw [← hall, hlen] at hmem
    rw [hmem, climbed]
    exact mem_append_right _ mem_cons_self
  · rw [hsplit, climb_append, hlen]
    rfl

/-! ## A path to the root of a tree -/

section Sound

variable {P : Set (δ × δ)} {level : List δ} {depth : ℕ} {root current : δ} {position : ℕ}
  {siblings : List δ}

/-- **A path to the root goes through the levels of the tree**: so many steps below the root it is
at a digest of the level so far below it, at its own position unless the level ends before. -/
lemma climb_levels (hinj : Set.InjOn (fun p : δ × δ => node p.1 p.2) P)
    (htree : ∀ i < depth, ∀ p ∈ pairs ((above node)^[i] level), p ∈ P)
    (hpath : ∀ p ∈ climbed node current position siblings, p ∈ P)
    (htop : (above node)^[depth] level = [root])
    (hclimb : climb node current position siblings = root)
    (hposition : position / 2 ^ siblings.length = 0) {j : ℕ} (hdepth : j ≤ depth)
    (hlength : j ≤ siblings.length) : ∃ p, ((above node)^[depth - j] level)[p]? =
        some (climb node current position (siblings.take (siblings.length - j))) ∧
      (p = position / 2 ^ (siblings.length - j) ∨
        ((above node)^[depth - j] level).length ≤ position / 2 ^ (siblings.length - j)) := by
  induction j with
  | zero =>
    refine ⟨0, ?_, .inl hposition.symm⟩
    rw [Nat.sub_zero, htop, Nat.sub_zero, take_length, hclimb]
    rfl
  | succ j ih =>
    obtain ⟨p, hp, hbeyond⟩ := ih (by omega) (by omega)
    -- The node here is put together from the level below, and by the step of the path.
    set here := (above node)^[depth - (j + 1)] level with hhere
    have hup : (above node)^[depth - j] level = above node here := by
      rw [show depth - j = depth - (j + 1) + 1 by omega, Function.iterate_succ_apply']
    have hi : siblings.length - (j + 1) < siblings.length := by omega
    obtain ⟨q, hq, hstep, sibling, hbeside⟩ :=
      @climb_take_succ δ node siblings _ hi current position
    rw [show siblings.length - (j + 1) + 1 = siblings.length - j by omega] at hstep
    rw [hup, above, getElem?_map, hstep] at hp
    obtain ⟨q', hq', heq⟩ := Option.map_eq_some_iff.mp hp
    have hsame : q' = q := by
      refine hinj ?_ (hpath q hq) heq
      exact htree (depth - (j + 1)) (by omega) q' (mem_of_getElem? hq')
    rw [hsame, getElem?_pairs, hbeside] at hq'
    obtain ⟨a, ha, hpair⟩ := Option.map_eq_some_iff.mp hq'
    have hhalf : position / 2 ^ (siblings.length - j) =
        position / 2 ^ (siblings.length - (j + 1)) / 2 := by
      rw [Nat.div_div_eq_div_mul, ← pow_succ,
        show siblings.length - (j + 1) + 1 = siblings.length - j by omega]
    rw [hhalf] at hbeyond
    rw [hup, length_above] at hbeyond
    -- The path came from the left of the pair or from the right, as its position says.
    unfold beside at hpair
    by_cases hodd : position / 2 ^ (siblings.length - (j + 1)) % 2 = 1
    · rw [if_pos hodd, Prod.mk.injEq] at hpair
      cases hnext : here[2 * p + 1]? with
      | some b =>
        rw [hnext, Option.getD_some] at hpair
        exact ⟨2 * p + 1, hpair.2 ▸ hnext, by omega⟩
      | none =>
        rw [hnext, Option.getD_none] at hpair
        have hend := getElem?_eq_none_iff.mp hnext
        exact ⟨2 * p, hpair.2 ▸ ha, by omega⟩
    · rw [if_neg hodd, Prod.mk.injEq] at hpair
      exact ⟨2 * p, hpair.1 ▸ ha, by omega⟩

/-- **A path to the root begins in the list**, where no digest at the bottom is one that is put
together from two. -/
lemma climb_bottom (hinj : Set.InjOn (fun p : δ × δ => node p.1 p.2) P)
    (htree : ∀ i < depth, ∀ p ∈ pairs ((above node)^[i] level), p ∈ P)
    (hpath : ∀ p ∈ climbed node current position siblings, p ∈ P)
    (hlevel : ∀ d ∈ level, ∀ p ∈ P, d ≠ node p.1 p.2) (hcurrent : ∀ p ∈ P, current ≠ node p.1 p.2)
    (htop : (above node)^[depth] level = [root])
    (hclimb : climb node current position siblings = root)
    (hposition : position / 2 ^ siblings.length = 0) : siblings.length = depth ∧
      ∃ p, level[p]? = some current ∧ (p = position ∨ level.length ≤ position) := by
  have hlevels := @climb_levels δ node P level depth root current position siblings hinj htree hpath
    htop hclimb hposition
  rcases lt_trichotomy siblings.length depth with hshort | heq | hlong
  · -- The path is at its beginning where the tree still has a level below.
    obtain ⟨p, hp, -⟩ := @hlevels siblings.length hshort.le le_rfl
    rw [Nat.sub_self, take_zero, show depth - siblings.length = depth - siblings.length - 1 + 1
      by omega, Function.iterate_succ_apply', above, List.getElem?_map] at hp
    obtain ⟨q, hq, hcur⟩ := Option.map_eq_some_iff.mp hp
    have hmem := htree (depth - siblings.length - 1) (by omega) q (mem_of_getElem? hq)
    exact absurd hcur.symm (hcurrent q hmem)
  · obtain ⟨p, hp, hbeyond⟩ := @hlevels depth le_rfl heq.ge
    rw [Nat.sub_self, heq, Nat.sub_self, take_zero] at hp
    rw [Nat.sub_self, heq, Nat.sub_self, pow_zero, Nat.div_one] at hbeyond
    exact ⟨heq, p, hp, hbeyond⟩
  · -- The tree is at its bottom where the path has still steps below.
    obtain ⟨p, hp, -⟩ := @hlevels depth le_rfl hlong.le
    obtain ⟨q, hq, hstep, -⟩ := @climb_take_succ δ node siblings _
      (show siblings.length - depth - 1 < siblings.length by omega) current position
    rw [show siblings.length - depth - 1 + 1 = siblings.length - depth by omega] at hstep
    rw [Nat.sub_self, hstep] at hp
    exact absurd rfl (hlevel _ (mem_of_getElem? hp) q (hpath q hq))

end Sound

/-! ## The levels of a list -/

lemma exists_depth {fuel : ℕ} {level : List δ} (hne : level ≠ [])
    (hfuel : level.length ≤ fuel + 1) :
    ∃ depth root, (above node)^[depth] level = [root] ∧
      levels node fuel level = (List.range (depth + 1)).map fun i => (above node)^[i] level := by
  induction fuel generalizing level with
  | zero =>
    obtain ⟨root, rfl⟩ := length_eq_one_iff.mp
      (le_antisymm (by omega) (length_pos_of_ne_nil hne))
    exact ⟨0, root, rfl, rfl⟩
  | succ fuel ih =>
    unfold levels
    by_cases hone : level.length ≤ 1
    · obtain ⟨root, rfl⟩ := length_eq_one_iff.mp
        (le_antisymm hone (length_pos_of_ne_nil hne))
      exact ⟨0, root, rfl, if_pos hone⟩
    · rw [if_neg hone]
      have hlen := @length_above δ node level
      obtain ⟨depth, root, htop, hlevels⟩ := ih
        (ne_nil_of_length_pos (by rw [hlen]; omega) : above node level ≠ []) (by omega)
      refine ⟨depth + 1, root, htop, ?_⟩
      rw [hlevels, show List.range (depth + 1 + 1) = 0 :: (List.range (depth + 1)).map Nat.succ from
        range_succ_eq_map, map_cons, map_map]
      rfl

end WeaverSSH.MerkleTree
