import WeaverSSH.Framework.Text

/-!
# Words for a shell

`shellJoin` of the command `wv` writes arguments as one line for a POSIX shell, each as it is or
between single quotes, and the shell gets it back. `shellWords` is what the shell makes of a line:
cut at blanks, with backslashes and quotes. It gives no words where a quote is not closed, or at an
operator or the beginning of a comment or an expansion.
-/

namespace WeaverSSH.Shell

open List

def quote : Rune := .char '\x27'

/-- The characters an argument may have outside of quotes. -/
def safe : Rune → Bool
  | .char c => c ∈ "-_./:=,+@%".toList || ('0' ≤ c && c ≤ '9') || ('A' ≤ c && c ≤ 'Z') ||
      ('a' ≤ c && c ≤ 'z')
  | .raw _ => false

def shellQuote (s : Text) : Text :=
  if s = [] then [quote, quote]
  else if s.all safe then s
  else quote :: s.flatMap (fun r =>
    if r = quote then [quote, .char '\\', quote, quote] else [r]) ++ [quote]

def shellJoin (argv : List Text) : Text := intercalate [.char ' '] (argv.map shellQuote)

inductive Quoting where
  | bare
  | single
  | double
  | escaped (within : Quoting)
deriving DecidableEq

/-- The words of what is left of a line, after the beginning of a word, if there is one. -/
def wordsFrom : Quoting → Option Text → Text → Option (List Text)
  | .bare, word, [] => some word.toList
  | _, _, [] => none
  | .bare, word, r :: rest =>
    if r ∈ text " \t" then (wordsFrom .bare none rest).map (word.toList ++ ·)
    else if r = quote then wordsFrom .single (some (word.getD [])) rest
    else if r = .char '"' then wordsFrom .double (some (word.getD [])) rest
    else if r = .char '\\' then wordsFrom (.escaped .bare) word rest
    else if r ∈ text "|&;<>()\n$\x60*?[#~" then none
    else wordsFrom .bare (some (word.getD [] ++ [r])) rest
  | .single, word, r :: rest =>
    if r = quote then wordsFrom .bare word rest
      else wordsFrom .single (some (word.getD [] ++ [r])) rest
  | .double, word, r :: rest =>
    if r = .char '"' then wordsFrom .bare word rest
    else if r ∈ text "$\x60" then none
    else if r = .char '\\' then wordsFrom (.escaped .double) word rest
    else wordsFrom .double (some (word.getD [] ++ [r])) rest
  | .escaped within, word, r :: rest =>
    if r = .char '\n' then wordsFrom within word rest
    else if within = .bare ∨
      r ∈ text "$\x60\"\\" then wordsFrom within (some (word.getD [] ++ [r])) rest
    else wordsFrom within (some (word.getD [] ++ [.char '\\', r])) rest

def shellWords (line : Text) : Option (List Text) := wordsFrom .bare none line

variable {s rest : Text} {word : Option Text}

lemma wordsFrom_safe {r : Rune} (h : safe r = true) :
    wordsFrom .bare word (r :: rest) = wordsFrom .bare (some (word.getD [] ++ [r])) rest := by
  have hnot {t : Text} (ht : ∀ r ∈ t, safe r = false) : r ∉ t := by
    intro hmem
    rw [ht r hmem] at h
    cases h
  have hne {r' : Rune} (hr : safe r' = false) : r ≠ r' :=
    fun heq => hnot (t := [r']) (by simpa using hr) (by simp [heq])
  rw [wordsFrom, if_neg (hnot (by decide)), if_neg (hne (by decide)), if_neg (hne (by decide)),
    if_neg (hne (by decide)), if_neg (hnot (by decide))]

lemma wordsFrom_all_safe {w : Text} (h : ∀ r ∈ s, safe r = true) :
    wordsFrom .bare (some w) (s ++ rest) = wordsFrom .bare (some (w ++ s)) rest := by
  induction s generalizing w with
  | nil => simp
  | cons r s ih =>
    rw [forall_mem_cons] at h
    rw [cons_append, wordsFrom_safe h.1, ih h.2]
    simp

lemma wordsFrom_quoted {w : Text} : wordsFrom .single (some w) (s.flatMap (fun r =>
      if r = quote then [quote, .char '\\', quote, quote] else [r]) ++ quote :: rest) =
    wordsFrom .bare (some (w ++ s)) rest := by
  induction s generalizing w with
  | nil => simp [wordsFrom]
  | cons r s ih =>
    rw [flatMap_cons, append_assoc]
    by_cases hr : r = quote
    · rw [if_pos hr]
      refine (ih (w := w ++ [quote])).trans ?_
      simp [hr]
    · rw [if_neg hr, singleton_append, wordsFrom, if_neg hr, ih]
      simp

lemma wordsFrom_shellQuote :
    wordsFrom .bare none (shellQuote s ++ rest) = wordsFrom .bare (some s) rest := by
  have hopen {rest : Text} :
      wordsFrom .bare none (quote :: rest) = wordsFrom .single (some []) rest := rfl
  unfold shellQuote
  split_ifs with hnil hsafe
  · rw [hnil]
    rfl
  · obtain ⟨r, s, rfl⟩ := exists_cons_of_ne_nil hnil
    rw [all_eq_true, forall_mem_cons] at hsafe
    rw [cons_append, wordsFrom_safe hsafe.1, wordsFrom_all_safe hsafe.2]
    rfl
  · rw [cons_append, cons_append, hopen, append_assoc, singleton_append, wordsFrom_quoted]
    rfl

/-- **Quoting is exact**: a shell takes what is written for some arguments for these. -/
theorem shellWords_shellJoin (argv : List Text) : shellWords (shellJoin argv) = some argv := by
  unfold shellWords shellJoin
  induction argv with
  | nil => rfl
  | cons arg rest ih =>
    cases rest with
    | nil => simpa [wordsFrom] using @wordsFrom_shellQuote arg []
    | cons next rest =>
      rw [map_cons, map_cons, intercalate_cons_cons, append_assoc, wordsFrom_shellQuote,
        singleton_append, wordsFrom, if_pos (by decide), ← map_cons, ih]
      rfl

end WeaverSSH.Shell
