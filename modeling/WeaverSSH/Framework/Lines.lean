import Mathlib.Tactic

/-!
# Lines

A text in lines, each with a newline behind it. `lines` reads them as `bufio.ScanLines` does: what
stands behind the last newline is a line as well, unless it is empty.
-/

namespace WeaverSSH

open List

def newline : UInt8 := 10

/-- The lines of some bytes, the first of which has begun. -/
def linesFrom (line : List UInt8) : List UInt8 → List (List UInt8)
  | [] => if line = [] then [] else [line]
  | b :: rest => if b = newline then line :: linesFrom [] rest else linesFrom (line ++ [b]) rest

def lines (b : List UInt8) : List (List UInt8) := linesFrom [] b

/-- A line without the carriage return at its end. -/
def dropReturn (line : List UInt8) : List UInt8 :=
  if line.getLast? = some 13 then line.dropLast else line

def unlines (l : List (List UInt8)) : List UInt8 := l.flatMap (· ++ [newline])

lemma linesFrom_append {line : List UInt8} (h : newline ∉ line) (begun rest : List UInt8) :
    linesFrom begun (line ++ newline :: rest) = (begun ++ line) :: linesFrom [] rest := by
  induction line generalizing begun with
  | nil => rw [nil_append, linesFrom, if_pos rfl, append_nil]
  | cons b line ih =>
    rw [mem_cons, not_or] at h
    rw [cons_append, linesFrom, if_neg (Ne.symm h.1), ih h.2, append_assoc, singleton_append]

lemma lines_unlines {l : List (List UInt8)} (h : ∀ line ∈ l, newline ∉ line) :
    lines (unlines l) = l := by
  induction l with
  | nil => rfl
  | cons line l ih =>
    rw [unlines, flatMap_cons, append_assoc, singleton_append, lines,
      linesFrom_append (h line mem_cons_self), nil_append]
    exact congrArg (line :: ·) (ih fun other hother => h other (mem_cons_of_mem _ hother))

lemma unlines_concat (l : List (List UInt8)) (line : List UInt8) :
    unlines (l ++ [line]) = unlines l ++ (line ++ [newline]) := by
  rw [unlines, flatMap_append, flatMap_singleton]
  rfl

end WeaverSSH
