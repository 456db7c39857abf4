import WeaverSSH.Framework.Json
import WeaverSSH.Framework.Utf8

/-!
# What is written in JSON is read back

`Fits d j` says that `j` is a text of the kind the program writes: its numbers are integers, and it
is nested no deeper than `d`. Reading what `print` writes of it gives it back, with the replacement
character for stray bytes (`parse_print`). Only a number cares what follows it (`Stops`).
-/

namespace WeaverSSH.Json

open List Nat Option Rune

/-- A text the program writes, nested no deeper than `d`. -/
inductive Fits : ℕ → Json → Prop
  | null {d : ℕ} : Fits d .null
  | bool {d : ℕ} (b : Bool) : Fits d (.bool b)
  | int {d : ℕ} (n : ℤ) : Fits d (.int n)
  | str {d : ℕ} (value : Text) : Fits d (.str value)
  | arr {d : ℕ} {items : List Json} (h : ∀ j ∈ items, Fits d j) : Fits (d + 1) (.arr items)
  | obj {d : ℕ} {members : List (Text × Json)} (h : ∀ m ∈ members, Fits d m.2) :
      Fits (d + 1) (.obj members)

attribute [simp] Fits.null Fits.bool Fits.int Fits.str

/-- Nothing here continues a number. -/
def Stops (t : Text) : Prop :=
  ∀ r ∈ t.head?, isDigit r = false ∧ r ≠ .char '.' ∧ r ≠ .char 'e' ∧ r ≠ .char 'E'

lemma stops_nil : Stops [] := by
  intro r hr
  cases hr

variable {r : Rune} {c : Char} {rest : Text} {d : ℕ} {ms : List (Text × Json)} {j : Json}
  {name : String}

lemma stops_cons {t : Text}
    (h : isDigit r = false ∧ r ≠ .char '.' ∧ r ≠ .char 'e' ∧ r ≠ .char 'E') : Stops (r :: t) := by
  intro r' hr'
  obtain rfl : r = r' := some.inj hr'
  exact h

/-! ## Tokens -/

lemma skipBlank_cons (hr : isBlank r = false) (t : Text) : skipBlank (r :: t) = r :: t := by
  simp [skipBlank, hr]

lemma symbol_self {c : Rune} (hc : isBlank c = false) (t : Text) : symbol c (c :: t) = some t := by
  simp [symbol, skipBlank_cons hc]

lemma symbol_other {c : Rune} (hr : isBlank r = false) (hne : r ≠ c) (t : Text) :
    symbol c (r :: t) = none := by
  simp [symbol, skipBlank_cons hr, hne]

/-! ## Strings -/

variable {n : ℕ}

lemma hexValue_hexDigit (hn : n < 16) : hexValue (hexDigit n) = some n := by
  have hall : ∀ n : Fin 16, hexValue (hexDigit n) = some n.val := by decide
  exact hall ⟨n, hn⟩

lemma hex4_hexDigit (hn : n < 65536) :
    hex4 (hexDigit (n / 4096)) (hexDigit (n / 256 % 16)) (hexDigit (n / 16 % 16))
      (hexDigit (n % 16)) = some n := by
  unfold hex4
  rw [hexValue_hexDigit (by omega), hexValue_hexDigit (by omega), hexValue_hexDigit (by omega),
    hexValue_hexDigit (by omega)]
  simp only [Option.bind_eq_bind, Option.bind_some, Option.pure_def, Option.some.injEq]
  omega

lemma shortEscape_read {letter : Char} (h : shortEscapes.lookup c = some letter) (rest : Text) :
    scanChar (backslash :: .char letter :: rest) = some (c, 1) := by
  have hmem : (c, letter) ∈ shortEscapes := by
    obtain ⟨l₁, l₂, hl, -⟩ := lookup_eq_some_iff.mp h
    simp [hl]
  have hall : ∀ p ∈ shortEscapes, char p.2 ≠ .char 'u' ∧ char p.2 ≠ .char '/' ∧
      (shortEscapes.find? fun q => (.char q.2 : Rune) = .char p.2) = some p := by decide
  obtain ⟨hu, hslash, hfind⟩ := hall _ hmem
  simp only [scanChar, if_true, scanEscape, if_neg hu, if_neg hslash, hfind, map_some]

lemma mustEscape_lt (h : mustEscape c = true) : c.toNat < 65536 ∧ isSurrogate c.toNat = false := by
  simp only [mustEscape, Bool.or_eq_true, decide_eq_true_eq, beq_iff_eq] at h
  unfold isSurrogate
  rw [Bool.and_eq_false_iff]
  rcases h with ((((h | rfl) | rfl) | rfl) | h) | h
  · simp only [decide_eq_false_iff_not]
    omega
  · decide
  · decide
  · decide
  · simp [h]
  · simp [h]

lemma unicodeEscape_read (h : mustEscape c = true) (rest : Text) :
    scanChar (unicodeEscape c.toNat ++ rest) = some (c, 5) := by
  obtain ⟨hlt, hpair⟩ := mustEscape_lt h
  simp only [unicodeEscape, cons_append, nil_append, scanChar, scanEscape, if_true,
    hex4_hexDigit hlt, hpair, Bool.false_eq_true, if_false, Char.ofNat_toNat]

lemma escape_char (c : Char) : (∃ letter, shortEscapes.lookup c = some letter ∧
      escape (.char c) = [backslash, .char letter]) ∨
    (mustEscape c = true ∧ escape (.char c) = unicodeEscape c.toNat) ∨
    (char c ≠ backslash ∧ char c ≠ quoteMark ∧ ¬c.toNat < 0x20 ∧
      escape (.char c) = [.char c]) := by
  cases hshort : shortEscapes.lookup c with
  | some letter => exact .inl ⟨letter, rfl, by simp only [escape, hshort]⟩
  | none =>
    cases hmust : mustEscape c with
    | true => exact .inr (.inl ⟨rfl, by simp only [escape, hshort, hmust, if_true]⟩)
    | false =>
      refine .inr (.inr ⟨?_, ?_, ?_, by simp [escape, hshort, hmust]⟩)
      · rintro hc
        obtain rfl := char.inj hc
        simp [shortEscapes] at hshort
      · rintro hc
        obtain rfl := char.inj hc
        simp [shortEscapes] at hshort
      · intro hlt
        simp [mustEscape, hlt] at hmust

lemma scanChar_escape (c : Char) : ∃ r t, escape (.char c) = r :: t ∧ r ≠ quoteMark ∧
    ∀ rest, scanChar (r :: (t ++ rest)) = some (c, t.length) := by
  have hback : backslash ≠ quoteMark := by decide
  rcases escape_char c with ⟨letter, hshort, hesc⟩ | ⟨hmust, hesc⟩ | ⟨hslash, hquote, hctl, hesc⟩
  · exact ⟨_, _, hesc, hback, fun rest => shortEscape_read hshort rest⟩
  · exact ⟨_, _, hesc, hback, fun rest => unicodeEscape_read hmust rest⟩
  · exact ⟨_, _, hesc, hquote, fun rest => by simp [scanChar, hslash, hctl]⟩

lemma scanChar_raw (b : UInt8) : ∃ r t, escape (.raw b) = r :: t ∧ r ≠ quoteMark ∧
    ∀ rest, scanChar (r :: (t ++ rest)) = some ('�', t.length) := by
  refine ⟨_, _, rfl, by decide, fun rest => ?_⟩
  have hhex := hex4_hexDigit (n := 0xFFFD) (by decide)
  have hpair : isSurrogate 0xFFFD = false := by decide
  simp only [cons_append, nil_append, scanChar, scanEscape, if_true, hhex, hpair,
    Bool.false_eq_true, if_false]
  rfl

lemma unquote_skip (l rest : Text) : unquote l.length (l ++ rest) = unquote 0 rest := by
  induction l with
  | nil => rfl
  | cons r l ih => exact ih

lemma unquote_escape (r : Rune) (rest : Text) :
    unquote 0 (escape r ++ rest) = (unquote 0 rest).map fun p => (r.scrub :: p.1, p.2) := by
  obtain ⟨c, hc, x, t, hesc, hx, hscan⟩ : ∃ c, r.scrub = .char c ∧
      ∃ x t, escape r = x :: t ∧ x ≠ quoteMark ∧
        ∀ rest, scanChar (x :: (t ++ rest)) = some (c, t.length) := by
    cases r with
    | char c => exact ⟨c, rfl, scanChar_escape c⟩
    | raw b => exact ⟨'�', rfl, scanChar_raw b⟩
  rw [hesc, cons_append, unquote, if_neg hx, hscan, hc]
  simp only [unquote_skip]

/-- **A string is read as it was written**, but for what is no character. -/
lemma unquote_quote (t rest : Text) :
    unquote 0 (t.flatMap escape ++ quoteMark :: rest) = some (WeaverSSH.scrub t, rest) := by
  induction t with
  | nil => simp [unquote, WeaverSSH.scrub]
  | cons r t ih =>
    rw [flatMap_cons, append_assoc, unquote_escape, ih]
    rfl

/-! ## Numbers -/

lemma isDigit_of_mem_toDigits (h : r ∈ (toDigits 10 n).map char) : isDigit r = true := by
  obtain ⟨c, hc, rfl⟩ := mem_map.mp h
  exact isDigit_of_mem_toDigits (by decide) (by decide) hc

lemma toDigits_cons (n : ℕ) : ∃ c t, Nat.toDigits 10 n = c :: t ∧ (c = '0' → t = []) := by
  induction n using Nat.strong_induction_on with
  | _ n ih =>
    by_cases hn : n < 10
    · exact ⟨_, [], toDigits_of_lt_base hn, fun _ => rfl⟩
    · have hten : 10 ≤ n := not_lt.mp hn
      obtain ⟨c, t, hct, hzero⟩ := ih (n / 10) (by omega)
      refine ⟨c, t ++ [digitChar (n % 10)], ?_, fun hc => ?_⟩
      · rw [toDigits_of_base_le (by decide) hten, hct]
        rfl
      · -- the digits before the last are those of a number that is not nought
        exfalso
        have hval := ofDigitChars_toDigits (n := n / 10) (show 1 < 10 by decide) le_rfl
        rw [hct, hzero hc, hc] at hval
        simp [ofDigitChars] at hval
        omega

lemma takeWhile_stop {p : Rune → Bool} {l : Text} (hl : ∀ r ∈ l, p r = true)
    (hrest : ∀ r ∈ rest.head?, p r = false) :
    (l ++ rest).takeWhile p = l ∧ (l ++ rest).dropWhile p = rest := by
  have hnone : rest.takeWhile p = [] ∧ rest.dropWhile p = rest := by
    cases rest with
    | nil => simp
    | cons r rest => simp [hrest r rfl]
  rw [takeWhile_append_of_pos hl, dropWhile_append_of_pos hl, hnone.1, hnone.2]
  simp

lemma readInt_toDigits (n : ℕ) (hrest : Stops rest) :
    readInt ((toDigits 10 n).map char ++ rest) =
      some ((toDigits 10 n).map char, rest) := by
  have hdigit := fun r => isDigit_of_mem_toDigits (n := n) (r := r)
  obtain ⟨c, t, hct, hzero⟩ := toDigits_cons n
  rw [hct, map_cons] at hdigit ⊢
  rw [cons_append, readInt]
  split
  · rename_i hc
    simp [hzero (char.inj hc)]
  · have ht := takeWhile_stop (fun r hr => hdigit r (mem_cons_of_mem _ hr))
      fun r hr => (hrest r hr).1
    rw [if_pos (hdigit _ mem_cons_self), ht.1, ht.2]

lemma readFraction_stop (h : Stops rest) : readFraction rest = some ([], rest) := by
  cases rest with
  | nil => rfl
  | cons r rest => simp [readFraction, (h r rfl).2.1]

lemma readExponent_stop (h : Stops rest) : readExponent rest = some ([], rest) := by
  cases rest with
  | nil => rfl
  | cons r rest => simp [readExponent, (h r rfl).2.2.1, (h r rfl).2.2.2]

lemma readNumber_decimal (n : ℤ) (hrest : Stops rest) :
    readNumber (decimal n ++ rest) = some (decimal n, rest) := by
  cases n with
  | ofNat n =>
    obtain ⟨c, t, hct, -⟩ := toDigits_cons n
    have hsign : char c ≠ .char '-' := by
      have hdigit : isDigit (.char c) = true :=
        isDigit_of_mem_toDigits (n := n) (by rw [hct]; exact mem_cons_self)
      rintro hc
      rw [hc] at hdigit
      cases hdigit
    have hread := readInt_toDigits n hrest
    rw [hct] at hread
    simp only [decimal, hct, readNumber, map_cons, cons_append, take_succ_cons,
      take_zero, filter_cons, hsign, decide_false, Bool.false_eq_true, if_false,
      filter_nil, length_nil, drop_zero] at hread ⊢
    rw [hread]
    simp [readFraction_stop hrest, readExponent_stop hrest]
  | negSucc n =>
    have hread := readInt_toDigits (n + 1) hrest
    simp only [decimal, readNumber, cons_append, take_succ_cons, take_zero,
      filter_cons, decide_true, if_true, filter_nil, length_cons, length_nil,
      zero_add, drop_succ_cons, drop_zero]
    rw [hread]
    simp [readFraction_stop hrest, readExponent_stop hrest]

/-! ## Values -/

/-- The readers read `j` as it is written, whatever may follow. -/
def Reads (d : ℕ) (j : Json) : Prop :=
  ∀ fuel rest, 2 * (print j).length + 1 ≤ fuel → Stops rest →
    readValue fuel d (print j ++ rest) = some (j.scrub, rest)

lemma unquote_quote_append (key rest : Text) :
    (symbol quoteMark (quote key ++ rest)).bind (unquote 0) = some (WeaverSSH.scrub key, rest) := by
  rw [quote, cons_append, symbol_self (by decide), bind_some, append_assoc]
  exact unquote_quote key rest

variable {js : List Json}

lemma readItems_print : ∀ {j : Json}, (∀ x ∈ j :: js, Reads d x) →
    ∀ fuel rest, 2 * (print j ++ printItems js).length + 2 ≤ fuel →
      readItems fuel d (print j ++ (printItems js ++ .char ']' :: rest)) =
        some (scrubItems (j :: js), rest) := by
  induction js with
  | nil =>
    intro j h fuel rest hfuel
    obtain ⟨fuel, rfl⟩ := exists_eq_add_one_of_ne_zero (show fuel ≠ 0 by omega)
    have hread := h j mem_cons_self fuel (.char ']' :: rest)
      (by simp [printItems] at hfuel; omega) (stops_cons (by decide))
    simp only [printItems, nil_append, readItems, hread]
    rw [symbol_other (by decide) (by decide), symbol_self (by decide)]
    rfl
  | cons k ks ih =>
    intro j h fuel rest hfuel
    obtain ⟨fuel, rfl⟩ := exists_eq_add_one_of_ne_zero (show fuel ≠ 0 by omega)
    simp only [printItems, length_append, length_cons] at hfuel
    have hread := h j mem_cons_self fuel
      (.char ',' :: (print k ++ (printItems ks ++ .char ']' :: rest))) (by omega)
      (stops_cons (by decide))
    have hrest := ih (fun x hx => h x (mem_cons_of_mem j hx)) fuel rest
      (by rw [length_append]; omega)
    simp only [printItems, cons_append, append_assoc, readItems, hread]
    rw [symbol_self (by decide)]
    dsimp only
    rw [hrest]
    rfl

lemma readMembers_print : ∀ {m : Text × Json}, (∀ x ∈ m :: ms, Reads d x.2) →
    ∀ fuel rest, 2 * (quote m.1 ++ .char ':' :: (print m.2 ++ printMembers ms)).length + 1 ≤ fuel →
      readMembers fuel d (quote m.1 ++ .char ':' :: (print m.2 ++
        (printMembers ms ++ closeBrace :: rest))) = some (scrubMembers (m :: ms), rest) := by
  induction ms with
  | nil =>
    intro m h fuel rest hfuel
    obtain ⟨fuel, rfl⟩ := exists_eq_add_one_of_ne_zero (show fuel ≠ 0 by omega)
    simp only [printMembers, length_append, length_cons, length_nil] at hfuel
    have hread := h m mem_cons_self fuel (closeBrace :: rest) (by omega)
      (stops_cons (by decide))
    simp only [printMembers, nil_append, readMembers, unquote_quote_append, bind_some]
    rw [symbol_self (by decide), bind_some, hread]
    dsimp only [map_some]
    rw [symbol_other (by decide) (by decide), symbol_self (by decide)]
    rfl
  | cons n ms ih =>
    intro m h fuel rest hfuel
    obtain ⟨fuel, rfl⟩ := exists_eq_add_one_of_ne_zero (show fuel ≠ 0 by omega)
    simp only [printMembers, length_append, length_cons] at hfuel
    have hread := h m mem_cons_self fuel (.char ',' :: (quote n.1 ++ .char ':' ::
      (print n.2 ++ (printMembers ms ++ closeBrace :: rest)))) (by omega) (stops_cons (by decide))
    have hrest := ih (fun x hx => h x (mem_cons_of_mem m hx)) fuel rest
      (by simp only [length_append, length_cons]; omega)
    simp only [printMembers, cons_append, append_assoc, readMembers,
      unquote_quote_append, bind_some]
    rw [symbol_self (by decide), bind_some, hread]
    dsimp only [map_some]
    rw [symbol_self (by decide)]
    dsimp only
    rw [hrest]
    rfl

lemma readValue_scalar (hblank : isBlank r = false)
    (hne : r ≠ quoteMark ∧ r ≠ .char '[' ∧ r ≠ openBrace) (fuel d : ℕ) (t : Text) :
    readValue (fuel + 1) d (r :: t) = readScalar (r :: t) := by
  simp only [readValue, skipBlank_cons hblank, if_neg hne.1, if_neg hne.2.1, if_neg hne.2.2]

lemma readWord_self (word : String) (t : Text) : readWord word (text word ++ t) = some t := by
  simp [readWord, hasPrefix]

lemma readWord_none {word : String} (hne : (text word).head? ≠ some r)
    (hword : text word ≠ []) (t : Text) : readWord word (r :: t) = none := by
  cases hlist : text word with
  | nil => exact absurd hlist hword
  | cons w ws =>
    have hw : w ≠ r := fun heq => hne (by rw [hlist, heq, List.head?_cons])
    simp [readWord, hasPrefix, hlist, hw]

lemma readValue_word (d : ℕ) (h : j = .null ∨ j = .bool true ∨ j = .bool false) : Reads d j := by
  intro fuel rest hfuel hrest
  obtain ⟨fuel, rfl⟩ := exists_eq_add_one_of_ne_zero (show fuel ≠ 0 by omega)
  rcases h with rfl | rfl | rfl
  · have hself : readWord "null" (.char 'n' :: (text "ull" ++ rest)) = some rest :=
      readWord_self "null" rest
    change readValue (fuel + 1) d (.char 'n' :: (text "ull" ++ rest)) = _
    rw [readValue_scalar (by decide) (by decide), readScalar, hself]
    rfl
  · have hself : readWord "true" (.char 't' :: (text "rue" ++ rest)) = some rest :=
      readWord_self "true" rest
    change readValue (fuel + 1) d (.char 't' :: (text "rue" ++ rest)) = _
    rw [readValue_scalar (by decide) (by decide), readScalar, hself,
      readWord_none (by decide) (by decide)]
    rfl
  · have hself : readWord "false" (.char 'f' :: (text "alse" ++ rest)) = some rest :=
      readWord_self "false" rest
    change readValue (fuel + 1) d (.char 'f' :: (text "alse" ++ rest)) = _
    rw [readValue_scalar (by decide) (by decide), readScalar, hself,
      readWord_none (by decide) (by decide), readWord_none (by decide) (by decide)]
    rfl

lemma decimal_cons (n : ℤ) : ∃ c t, decimal n = .char c :: t ∧ (c.isDigit = true ∨ c = '-') := by
  cases n with
  | ofNat n =>
    obtain ⟨c, t, hct, -⟩ := toDigits_cons n
    have hdigit : isDigit (.char c) = true :=
      isDigit_of_mem_toDigits (n := n) (by rw [hct]; exact mem_cons_self)
    exact ⟨c, t.map .char, congrArg (List.map char) hct, .inl hdigit⟩
  | negSucc n => exact ⟨'-', _, rfl, .inr rfl⟩

lemma char_ne {d : Char} (hd : d.isDigit = true ∨ d = '-') (hdigit : c.isDigit = false)
    (hsign : c ≠ '-') : d ≠ c := by
  rintro rfl
  rcases hd with hd | hd
  · rw [hdigit] at hd
    cases hd
  · exact hsign hd

lemma isBlank_of_number (hc : c.isDigit = true ∨ c = '-') : isBlank (.char c) = false := by
  simp [isBlank, char_ne hc (c := ' ') (by decide) (by decide),
    char_ne hc (c := '\t') (by decide) (by decide), char_ne hc (c := '\r') (by decide) (by decide),
    char_ne hc (c := '\n') (by decide) (by decide)]

lemma Fits.starts (h : Fits d j) : ∃ r t, print j = r :: t ∧ isBlank r = false ∧ r ≠ .char ']' := by
  cases h with
  | null => exact ⟨_, _, rfl, by decide, by decide⟩
  | bool b =>
    cases b with
    | true => exact ⟨_, _, rfl, by decide, by decide⟩
    | false => exact ⟨_, _, rfl, by decide, by decide⟩
  | int n =>
    obtain ⟨c, t, hct, hc⟩ := decimal_cons n
    refine ⟨.char c, t, hct, ?_⟩
    have hne : ∀ c' : Char, c'.isDigit = false → c' ≠ '-' → char c ≠ .char c' :=
      fun c' hdigit hsign heq => char_ne hc hdigit hsign (char.inj heq)
    exact ⟨isBlank_of_number hc, hne _ (by decide) (by decide)⟩
  | str value => exact ⟨_, _, rfl, by decide, by decide⟩
  | @arr _ items h =>
    cases items with
    | nil => exact ⟨_, _, rfl, by decide, by decide⟩
    | cons j js => exact ⟨_, _, rfl, by decide, by decide⟩
  | @obj _ members h =>
    cases members with
    | nil => exact ⟨_, _, rfl, by decide, by decide⟩
    | cons m ms => exact ⟨_, _, rfl, by decide, by decide⟩

lemma readValue_int (d : ℕ) (n : ℤ) : Reads d (.int n) := by
  intro fuel rest hfuel hrest
  obtain ⟨fuel, rfl⟩ := exists_eq_add_one_of_ne_zero (show fuel ≠ 0 by omega)
  obtain ⟨c, t, hct, hc⟩ := decimal_cons n
  have hne : ∀ c' : Char, c'.isDigit = false → c' ≠ '-' → char c ≠ .char c' :=
    fun c' hdigit hsign heq => char_ne hc hdigit hsign (char.inj heq)
  have hword : ∀ (word : String) (w : Char), (text word).head? = some (.char w) →
      w.isDigit = false → w ≠ '-' → readWord word (.char c :: (t ++ rest)) = none := by
    intro word w hw hdigit hsign
    refine readWord_none (fun heq => ?_) (fun hnil => ?_) _
    · exact hne w hdigit hsign (some.inj (heq.symm.trans hw))
    · rw [hnil] at hw
      cases hw
  have hnumber := readNumber_decimal n hrest
  have hprint : print (.int n) = .char c :: t := by simp only [int, print, hct]
  rw [hct, cons_append] at hnumber
  rw [hprint, cons_append, readValue_scalar (isBlank_of_number hc)
    ⟨hne _ (by decide) (by decide), hne _ (by decide) (by decide), hne _ (by decide) (by decide)⟩,
    readScalar, hword "null" 'n' rfl (by decide) (by decide),
    hword "true" 't' rfl (by decide) (by decide), hword "false" 'f' rfl (by decide) (by decide),
    hnumber, int, hct]
  rfl

lemma readValue_print (h : Fits d j) : Reads d j := by
  induction h with
  | null => exact readValue_word _ (.inl rfl)
  | bool b =>
    cases b with
    | true => exact readValue_word _ (.inr (.inl rfl))
    | false => exact readValue_word _ (.inr (.inr rfl))
  | int n => exact readValue_int _ n
  | str value =>
    intro fuel rest hfuel hrest
    obtain ⟨fuel, rfl⟩ := exists_eq_add_one_of_ne_zero (show fuel ≠ 0 by omega)
    simp only [print, quote, cons_append, append_assoc, nil_append, readValue]
    rw [skipBlank_cons (by decide)]
    dsimp only
    rw [if_pos rfl, unquote_quote]
    rfl
  | @arr d items h ih =>
    intro fuel rest hfuel hrest
    obtain ⟨fuel, rfl⟩ := exists_eq_add_one_of_ne_zero (show fuel ≠ 0 by omega)
    cases items with
    | nil =>
      simp only [print, cons_append, nil_append, readValue]
      rw [skipBlank_cons (by decide)]
      dsimp only
      rw [if_neg (by decide), if_pos rfl, if_neg (by omega), symbol_self (by decide)]
      rfl
    | cons j js =>
      obtain ⟨r, t, hprint, hblank, hend⟩ := (h j mem_cons_self).starts
      simp only [print, length_append, length_cons, length_nil] at hfuel
      have hread := readItems_print ih fuel rest (by rw [length_append]; omega)
      simp only [print, cons_append, append_assoc, nil_append, readValue]
      rw [skipBlank_cons (by decide)]
      dsimp only
      rw [if_neg (by decide), if_pos rfl, if_neg (by omega), Nat.add_sub_cancel, hread]
      rw [hprint, cons_append, symbol_other hblank hend]
      rfl
  | @obj d members h ih =>
    intro fuel rest hfuel hrest
    obtain ⟨fuel, rfl⟩ := exists_eq_add_one_of_ne_zero (show fuel ≠ 0 by omega)
    cases members with
    | nil =>
      simp only [print, cons_append, nil_append, readValue]
      rw [skipBlank_cons (by decide)]
      dsimp only
      rw [if_neg (by decide), if_neg (by decide), if_pos rfl, if_neg (by omega),
        symbol_self (by decide)]
      rfl
    | cons m ms =>
      simp only [print, length_append, length_cons, length_nil] at hfuel
      have hread := readMembers_print ih fuel rest
        (by simp only [length_append, length_cons]; omega)
      simp only [print, cons_append, append_assoc, nil_append, readValue]
      rw [skipBlank_cons (by decide)]
      dsimp only
      rw [if_neg (by decide), if_neg (by decide), if_pos rfl, if_neg (by omega),
        Nat.add_sub_cancel, hread]
      rw [quote, cons_append, symbol_other (by decide) (by decide)]
      rfl

/-- **A text is read as it was written**, but for what is no character. -/
lemma parse_print (h : Fits maxDepth j) : parse (print j) = some j.scrub := by
  have hread := readValue_print h (2 * (print j).length + 1) [] le_rfl stops_nil
  rw [append_nil] at hread
  simp only [parse, hread]
  rfl

/-! ## Bytes -/

/-- The runes of strings, of numbers and of what stands between them are such. -/
structure Writes (p : Rune → Bool) : Prop where
  quote : ∀ t, (quote t).all p = true
  decimal : ∀ n, (decimal n).all p = true
  symbols : (text "[],:nulltruefalse").all p = true
  braces : [openBrace, closeBrace].all p = true

section

variable {p : Rune → Bool}

section

variable (hw : Writes p)
include hw

lemma Writes.symbol (hc : .char c ∈ text "[],:nulltruefalse") :
    p (.char c) = true := all_eq_true.mp hw.symbols _ hc

lemma Writes.openBrace : p openBrace = true :=
  all_eq_true.mp hw.braces _ mem_cons_self

lemma Writes.closeBrace : p closeBrace = true :=
  all_eq_true.mp hw.braces _ (mem_cons_of_mem _ mem_cons_self)

lemma all_printItems (h : ∀ j ∈ js, (print j).all p = true) : (printItems js).all p = true := by
  induction js with
  | nil => rfl
  | cons j js ih =>
    simp only [printItems, all_cons, all_append, Bool.and_eq_true]
    exact ⟨hw.symbol (by decide), h j mem_cons_self, ih fun k hk => h k (mem_cons_of_mem j hk)⟩

lemma all_printMembers
    (h : ∀ m ∈ ms, (print m.2).all p = true) : (printMembers ms).all p = true := by
  induction ms with
  | nil => rfl
  | cons m ms ih =>
    simp only [printMembers, all_cons, all_append, Bool.and_eq_true]
    exact ⟨hw.symbol (by decide), hw.quote m.1, hw.symbol (by decide), h m mem_cons_self,
      ih fun k hk => h k (mem_cons_of_mem m hk)⟩

lemma Fits.all_print (h : Fits d j) : (print j).all p = true := by
  have hword {word : String} (hword : ∀ r ∈ text word, r ∈ text "[],:nulltruefalse") :
      (text word).all p = true :=
    all_eq_true.mpr fun r hr => all_eq_true.mp hw.symbols r (hword r hr)
  induction h with
  | null => exact @hword "null" (by decide)
  | bool b =>
    cases b with
    | true => exact @hword "true" (by decide)
    | false => exact @hword "false" (by decide)
  | int n => exact hw.decimal n
  | str value => exact hw.quote value
  | @arr d items h ih =>
    cases items with
    | nil =>
      simp only [print, all_cons, all_nil, Bool.and_eq_true, and_true]
      exact ⟨hw.symbol (by decide), hw.symbol (by decide)⟩
    | cons j js =>
      simp only [print, all_cons, all_append, all_nil, Bool.and_eq_true, and_true]
      exact ⟨hw.symbol (by decide), ih j mem_cons_self,
        all_printItems hw fun k hk => ih k (mem_cons_of_mem j hk), hw.symbol (by decide)⟩
  | @obj d members h ih =>
    cases members with
    | nil =>
      simp only [print, all_cons, all_nil, Bool.and_eq_true, and_true]
      exact ⟨hw.openBrace, hw.closeBrace⟩
    | cons m ms =>
      simp only [print, all_cons, all_append, all_nil, Bool.and_eq_true, and_true]
      exact ⟨hw.openBrace, hw.quote m.1, hw.symbol (by decide), ih m mem_cons_self,
        all_printMembers hw fun k hk => ih k (mem_cons_of_mem m hk), hw.closeBrace⟩

end

lemma all_quote (hmark : p quoteMark = true) (hescape : ∀ r, (escape r).all p = true) (t : Text) :
    (quote t).all p = true := by
  simp only [quote, all_cons, all_append, all_flatMap, all_nil, Bool.and_eq_true, and_true]
  exact ⟨hmark, all_eq_true.mpr fun r _ => hescape r, hmark⟩

lemma all_decimal (hsign : p (.char '-') = true) (hdigit : ∀ r, isDigit r = true → p r = true)
    (n : ℤ) : (decimal n).all p = true := by
  have hdigits (n : ℕ) : ((toDigits 10 n).map char).all p = true :=
    all_eq_true.mpr fun r hr => hdigit r (isDigit_of_mem_toDigits hr)
  cases n with
  | ofNat n => exact hdigits n
  | negSucc n =>
    rw [decimal, all_cons, hsign, hdigits]
    rfl

end

lemma valid_escape (r : Rune) : validUTF8 (escape r) = true := by
  cases r with
  | raw b => rfl
  | char c =>
    rcases escape_char c with ⟨letter, -, hesc⟩ | ⟨-, hesc⟩ | ⟨-, -, -, hesc⟩
    · rw [hesc]
      rfl
    · rw [hesc]
      rfl
    · rw [hesc]
      rfl

lemma Fits.valid_print (h : Fits d j) : validUTF8 (print j) = true := by
  refine h.all_print ⟨all_quote rfl valid_escape, all_decimal rfl fun r hr => ?_, by decide, rfl⟩
  cases r with
  | char c => rfl
  | raw b => cases hr

/-- What is written has no control characters. -/
def Rune.printable : Rune → Bool
  | .char c => 0x20 ≤ c.toNat
  | .raw _ => false

lemma printable_escape (r : Rune) : (escape r).all Rune.printable = true := by
  have hhex (n : ℕ) : Rune.printable (hexDigit n) = true := by
    by_cases hn : n < 16
    · have hall : ∀ n : Fin 16, Rune.printable (hexDigit n) = true := by decide
      exact hall ⟨n, hn⟩
    · unfold hexDigit Nat.digitChar
      repeat rw [if_neg (by omega)]
      decide
  have hunicode (n : ℕ) : (unicodeEscape n).all Rune.printable = true := by
    simp only [unicodeEscape, all_cons, hhex, all_nil, Bool.and_true]
    decide
  cases r with
  | raw b => exact hunicode 0xFFFD
  | char c =>
    rcases escape_char c with ⟨letter, hshort, hesc⟩ | ⟨-, hesc⟩ | ⟨-, -, hctl, hesc⟩
    · rw [hesc]
      have hmem : (c, letter) ∈ shortEscapes := by
        obtain ⟨l₁, l₂, hl, -⟩ := lookup_eq_some_iff.mp hshort
        simp [hl]
      have hall : ∀ p ∈ shortEscapes, [backslash, .char p.2].all Rune.printable = true := by decide
      exact hall (c, letter) hmem
    · rw [hesc]
      exact hunicode _
    · rw [hesc]
      simpa [Rune.printable] using hctl

theorem Fits.printable_print (h : Fits d j) : (print j).all Rune.printable = true := by
  refine h.all_print ⟨all_quote (by decide) printable_escape,
    all_decimal (by decide) fun r hr => ?_, by decide, by decide⟩
  cases r with
  | char c =>
    simp only [isDigit, Char.isDigit, Bool.and_eq_true, decide_eq_true_eq,
      UInt32.le_iff_toNat_le] at hr
    simp only [Rune.printable, decide_eq_true_eq]
    change 48 ≤ c.toNat ∧ _ at hr
    omega
  | raw b => cases hr

lemma le_of_mem_utf8EncodeChar (hc : 0x20 ≤ c.toNat) {b : UInt8}
    (hb : b ∈ String.utf8EncodeChar c) : 0x20 ≤ b.toNat := by
  change 32 ≤ c.val.toNat at hc
  rw [String.utf8EncodeChar] at hb
  split_ifs at hb <;>
    simp only [mem_cons, not_mem_nil, or_false] at hb
  · subst hb
    rw [UInt8.toNat_ofNat']
    omega
  · rcases hb with rfl | rfl <;> rw [UInt8.toNat_ofNat'] <;> omega
  · rcases hb with rfl | rfl | rfl <;> rw [UInt8.toNat_ofNat'] <;> omega
  · rcases hb with rfl | rfl | rfl | rfl <;> rw [UInt8.toNat_ofNat'] <;> omega

lemma Fits.le_of_mem_marshal (h : Fits d j) {b : UInt8} (hb : b ∈ marshal j) :
    0x20 ≤ b.toNat := by
  obtain ⟨r, hr, hb⟩ := mem_flatMap.mp hb
  have hprintable := all_eq_true.mp h.printable_print r hr
  cases r with
  | char c => exact le_of_mem_utf8EncodeChar (of_decide_eq_true hprintable) hb
  | raw b => cases hprintable

lemma trimSpace_print_obj (ms : List (Text × Json)) :
    trimSpace (print (.obj ms)) = print (.obj ms) := by
  obtain ⟨inner, hinner⟩ : ∃ inner, print (.obj ms) = openBrace :: (inner ++ [closeBrace]) := by
    match ms with
    | [] => exact ⟨[], rfl⟩
    | (key, j) :: ms =>
      refine ⟨quote key ++ .char ':' :: (print j ++ printMembers ms), ?_⟩
      simp only [print, append_assoc, cons_append]
  rw [hinner, trimSpace, dropWhile_cons_of_neg (by decide), rdropWhile_eq_self_iff]
  intro _
  rw [getLast_cons (by simp), getLast_append_singleton]
  decide

lemma parse_marshal (h : Fits maxDepth j) : parse (ofBytes (marshal j)) = some j.scrub := by
  rw [marshal, ofBytes_bytes h.valid_print, parse_print h]

lemma parse_marshal_newline (h : Fits maxDepth j) :
    parse (ofBytes (marshal j ++ [10])) = some j.scrub := by
  let ended : Text := print j ++ [.char '\n']
  have hbytes : marshal j ++ [10] = bytes ended := by
    rw [marshal, bytes, bytes, flatMap_append]
    rfl
  have hvalid : validUTF8 ended = true := validUTF8_append.mpr ⟨h.valid_print, by decide⟩
  have hread : readValue (2 * ended.length + 1) maxDepth ended = some (j.scrub, [.char '\n']) := by
    refine readValue_print h _ [.char '\n'] ?_ (stops_cons (by decide))
    rw [length_append]
    omega
  rw [hbytes, ofBytes_bytes hvalid]
  simp only [parse, hread]
  rfl

lemma scrub_eq_of_marshal_eq {k : Json} (hj : Fits maxDepth j) (hk : Fits maxDepth k)
    (h : marshal j = marshal k) : j.scrub = k.scrub := by
  have hparse := parse_marshal hj
  rw [h, parse_marshal hk] at hparse
  exact (some.inj hparse).symm

/-! ## What scrubbing changes -/

/-- Scrubbing does not make what is written longer, and makes it shorter where it changes it. -/
def Shrinks (t u : Text) (same : Prop) : Prop :=
  t.length ≤ u.length ∧ (t.length = u.length → same)

lemma Shrinks.append {t u t' u' : Text} {p q : Prop} (h : Shrinks t u p) (h' : Shrinks t' u' q) :
    Shrinks (t ++ t') (u ++ u') (p ∧ q) := by
  obtain ⟨hle, heq⟩ := h
  obtain ⟨hle', heq'⟩ := h'
  unfold Shrinks
  rw [length_append, length_append]
  exact ⟨by omega, fun hlen => ⟨heq (by omega), heq' (by omega)⟩⟩

lemma Shrinks.imp {t u : Text} {p q : Prop} (h : Shrinks t u p) (hpq : p → q) : Shrinks t u q :=
  ⟨h.1, fun hlen => hpq (h.2 hlen)⟩

lemma Shrinks.refl (t : Text) : Shrinks t t True := ⟨le_rfl, fun _ => trivial⟩

lemma shrinks_escape (r : Rune) : Shrinks (escape r.scrub) (escape r) (r.scrub = r) := by
  cases r with
  | char c => exact ⟨le_rfl, fun _ => rfl⟩
  | raw b =>
    have hlong : (escape (.raw b)).length = 6 := rfl
    have hshort : (escape (.char '\uFFFD')).length = 1 := by decide
    change _ ≤ _ ∧ _
    rw [Rune.scrub, hlong, hshort]
    exact ⟨by omega, fun h => by omega⟩

lemma shrinks_quote (t : Text) :
    Shrinks (quote (WeaverSSH.scrub t)) (quote t) (WeaverSSH.scrub t = t) := by
  have hbody : Shrinks ((WeaverSSH.scrub t).flatMap escape) (t.flatMap escape)
      (WeaverSSH.scrub t = t) := by
    induction t with
    | nil => exact ⟨le_rfl, fun _ => rfl⟩
    | cons r t ih =>
      exact ((shrinks_escape r).append ih).imp fun h => congrArg₂ List.cons h.1 h.2
  exact ((Shrinks.refl [quoteMark]).append (hbody.append (.refl [quoteMark]))).imp
    fun h => h.2.1

mutual

lemma shrinks_print : (j : Json) → Shrinks (print j.scrub) (print j) (j.scrub = j)
  | .null => ⟨le_rfl, fun _ => rfl⟩
  | .bool b => ⟨le_rfl, fun _ => rfl⟩
  | .num literal => ⟨le_rfl, fun _ => rfl⟩
  | .str value => (shrinks_quote value).imp fun h => congrArg Json.str h
  | .arr [] => ⟨le_rfl, fun _ => rfl⟩
  | .arr (j :: js) =>
    ((Shrinks.refl [.char '[']).append ((shrinks_print j).append
      ((shrinks_printItems js).append (.refl [.char ']'])))).imp fun h => by
        simp only [scrub, scrubItems, h.2.1, h.2.2.1]
  | .obj [] => ⟨le_rfl, fun _ => rfl⟩
  | .obj ((key, j) :: ms) =>
    ((Shrinks.refl [openBrace]).append
      ((shrinks_quote key).append ((Shrinks.refl [.char ':']).append
      ((shrinks_print j).append ((shrinks_printMembers ms).append (.refl [closeBrace])))))).imp
        fun h => by simp only [scrub, scrubMembers, h.2.1, h.2.2.2.1, h.2.2.2.2.1]

lemma shrinks_printItems : (js : List Json) →
    Shrinks (printItems (scrubItems js)) (printItems js) (scrubItems js = js)
  | [] => ⟨le_rfl, fun _ => rfl⟩
  | j :: js =>
    ((Shrinks.refl [.char ',']).append ((shrinks_print j).append (shrinks_printItems js))).imp
      fun h => by simp only [scrubItems, h.2.1, h.2.2]

lemma shrinks_printMembers : (ms : List (Text × Json)) →
    Shrinks (printMembers (scrubMembers ms)) (printMembers ms) (scrubMembers ms = ms)
  | [] => ⟨le_rfl, fun _ => rfl⟩
  | (key, j) :: ms =>
    ((Shrinks.refl [.char ',']).append ((shrinks_quote key).append
      ((Shrinks.refl [.char ':']).append ((shrinks_print j).append (shrinks_printMembers ms))))).imp
        fun h => by simp only [scrubMembers, h.2.1, h.2.2.2.1, h.2.2.2.2]

end

lemma scrub_eq_self_of_marshal_eq (hj : Fits d j) (hs : Fits d j.scrub)
    (h : marshal j.scrub = marshal j) : j.scrub = j := by
  have hprint := bytes_injective hs.valid_print hj.valid_print h
  exact (shrinks_print j).2 (by rw [hprint])

/-! ## Records -/

lemma decimal_injective : Function.Injective decimal := by
  have hdigits : ∀ m n : ℕ, (toDigits 10 m).map char = (toDigits 10 n).map char →
      m = n := by
    intro m n h
    have hlist := map_injective_iff.mpr (fun _ _ => char.inj) h
    rw [← ofDigitChars_ten_toDigits (n := m), hlist, ofDigitChars_ten_toDigits]
  have hsign : ∀ (m : ℕ) (t : Text), (toDigits 10 m).map char ≠ .char '-' :: t := by
    intro m t h
    have hdigit := isDigit_of_mem_toDigits (n := m) (r := .char '-')
      (by rw [h]; exact mem_cons_self)
    cases hdigit
  intro m n h
  cases m with
  | ofNat m =>
    cases n with
    | ofNat n => exact congrArg Int.ofNat (hdigits m n h)
    | negSucc n => exact absurd h (hsign m _)
  | negSucc m =>
    cases n with
    | ofNat n => exact absurd h.symm (hsign n _)
    | negSucc n =>
      have hsucc := hdigits (m + 1) (n + 1) (cons_injective h)
      exact congrArg Int.negSucc (succ_injective hsucc)

lemma hexValue_digitChar (hn : n < 10) : (hexValue (.char (digitChar n))).getD 0 = n := by
  have h := hexValue_hexDigit (n := n) (by omega)
  rw [hexDigit] at h
  rw [h]
  rfl

lemma foldl_toDigits (n : ℕ) :
    ((Nat.toDigits 10 n).map Rune.char).foldl (fun n r => 10 * n + (hexValue r).getD 0) 0 = n := by
  induction n using Nat.strong_induction_on with
  | _ n ih =>
    by_cases hn : n < 10
    · rw [toDigits_of_lt_base hn]
      simp [hexValue_digitChar hn]
    · rw [toDigits_of_base_le (by norm_num) (not_lt.mp hn), map_append, foldl_append,
        ih (n / 10) (by omega)]
      simp [hexValue_digitChar (show n % 10 < 10 by omega)]
      omega

lemma toInt64_decimal {n : ℤ} (hn : IsInt64 n) : toInt64 (decimal n) = some n := by
  obtain ⟨hlo, hhi⟩ := hn
  have hdigits : ∀ m : ℕ, ((toDigits 10 m).map char).all isDigit = true := fun m =>
    all_eq_true.mpr fun r hr => isDigit_of_mem_toDigits hr
  cases n with
  | ofNat m =>
    have hsign : hasPrefix (decimal (.ofNat m)) "-" = false := by
      obtain ⟨c, t, hct, -⟩ := toDigits_cons m
      have hc : isDigit (.char c) = true := isDigit_of_mem_toDigits (n := m) (by simp [hct])
      have hne : (char '-' == .char c) = false := by
        rw [beq_eq_false_iff_ne]
        rintro ⟨⟩
        cases hc
      rw [decimal, hct]
      change (char '-' == .char c && true) = false
      rw [hne]
      rfl
    simp only [toInt64, trimPrefix, hsign, Bool.false_eq_true, if_false]
    rw [decimal, if_pos (hdigits m), foldl_toDigits]
    exact if_pos (by rw [Bool.and_eq_true, decide_eq_true_eq, decide_eq_true_eq]; exact ⟨hlo, hhi⟩)
  | negSucc m =>
    have hsign : hasPrefix (decimal (.negSucc m)) "-" = true := rfl
    have hdrop : (decimal (.negSucc m)).drop (text "-").length =
        (toDigits 10 (m + 1)).map char := rfl
    simp only [toInt64, trimPrefix, hsign, if_true]
    rw [hdrop, if_pos (hdigits (m + 1)), foldl_toDigits]
    exact if_pos (by rw [Bool.and_eq_true, decide_eq_true_eq, decide_eq_true_eq]; exact ⟨hlo, hhi⟩)

@[simp]
lemma int_inj {m n : ℤ} : int m = int n ↔ m = n := by
  simp [int, decimal_injective.eq_iff]

@[simp]
lemma scrub_int (n : ℤ) : (int n).scrub = int n := by
  simp [int, scrub]

lemma scrubItems_eq_map (js : List Json) : scrubItems js = js.map scrub := by
  induction js with
  | nil => rfl
  | cons j js ih => simp [scrubItems, ih]

section

variable (h : ∀ m ∈ ms, WeaverSSH.scrub m.1 = m.1 ∧ m.2.scrub = m.2)
include h

lemma scrubMembers_eq_self : scrubMembers ms = ms := by
  induction ms with
  | nil => rfl
  | cons m ms ih =>
    obtain ⟨⟨hkey, hvalue⟩, hrest⟩ := forall_mem_cons.mp h
    rw [scrubMembers, hkey, hvalue, ih hrest]

lemma scrub_obj : (obj ms).scrub = obj ms := by
  rw [scrub, scrubMembers_eq_self h]

end

lemma scrubMembers_append (ms ns : List (Text × Json)) :
    scrubMembers (ms ++ ns) = scrubMembers ms ++ scrubMembers ns := by
  induction ms with
  | nil => rfl
  | cons m ms ih => simp [scrubMembers, ih]

lemma scrubMembers_optional (name : String) (value : Text) :
    scrubMembers (optional name value) = optional name (WeaverSSH.scrub value) := by
  unfold optional
  by_cases h : value = []
  · simp [h, scrubMembers, WeaverSSH.scrub]
  · simp [h, scrubMembers, scrub]

lemma optional_append_inj {v w : Text} {ns : List (Text × Json)}
    (h : optional name v ++ ms = optional name w ++ ns)
    (hms : ∀ m ∈ ms.head?, m.1 ≠ text name) (hns : ∀ m ∈ ns.head?, m.1 ≠ text name) :
    v = w ∧ ms = ns := by
  unfold optional at h
  by_cases hv : v = []
  · by_cases hw : w = []
    · simp only [hv, hw, if_true, nil_append] at h
      exact ⟨hv.trans hw.symm, h⟩
    · simp only [hv, if_true, nil_append, if_neg hw, singleton_append] at h
      exact absurd rfl (hms _ (by rw [h]; rfl))
  · by_cases hw : w = []
    · simp only [hw, if_true, nil_append, if_neg hv, singleton_append] at h
      exact absurd rfl (hns _ (by rw [← h]; rfl))
    · simp only [if_neg hv, if_neg hw, singleton_append, List.cons.injEq, Prod.mk.injEq,
        true_and, str.injEq] at h
      exact h

lemma readInt64_int (old : ℤ) {n : ℤ} (hn : IsInt64 n) : readInt64 old (.int n) = some n :=
  toInt64_decimal hn

lemma readUint64_int (old n : UInt64) : readUint64 old (.int n.toNat) = some n := by
  have hdigits : ((Nat.toDigits 10 n.toNat).map Rune.char).all isDigit = true :=
    all_eq_true.mpr fun r hr => isDigit_of_mem_toDigits hr
  have hvalue := foldl_toDigits n.toNat
  show (if (decimal n.toNat).all isDigit &&
    (decimal n.toNat).foldl (fun n r => 10 * n + (hexValue r).getD 0) 0 < 2 ^ 64
    then some (UInt64.ofNat ((decimal n.toNat).foldl (fun n r => 10 * n + (hexValue r).getD 0) 0))
    else none) = some n
  rw [show decimal n.toNat = (Nat.toDigits 10 n.toNat).map Rune.char from rfl, hvalue, hdigits,
    Bool.true_and, if_pos (decide_eq_true n.toNat_lt), UInt64.ofNat_toNat]

lemma readList_map {α : Type} {zero : α} {item : α → Json → Option α} {f : α → Json}
    {l : List α} (h : ∀ a ∈ l, item zero (f a) = some a) :
    readList zero item [] (.arr (l.map f)) = some l := by
  have hindex : ∀ n : ℕ,
      ((l.map f).zipIdx n).mapM (fun p => item (([] : List α).getD p.2 zero) p.1) =
      some l := by
    induction l with
    | nil => exact fun _ => rfl
    | cons a l ih =>
      intro n
      rw [map_cons, zipIdx_cons, mapM_cons, getD_nil, h a mem_cons_self,
        ih (fun b hb => h b (mem_cons_of_mem a hb)) (n + 1)]
      rfl
  exact hindex 0

/-! ## Reading a record

A record is read member by member. The rules say what one member does to the record: it sets a
field, and where it may be missing the field was the zero value before. -/

section Fills

variable {α β : Type} {member : α → Text → Json → Option α} {a b c : α} {ms ns : List (Text × Json)}
  {key : Text} {j : Json} {set : β → α} {r : Option β} {v zero : β}

/-- Reading some members over `a` gives `b`. -/
def Fills (member : α → Text → Json → Option α) (a : α) (members : List (Text × Json)) (b : α) :
    Prop :=
  members.foldlM (fun a p => member a p.1 p.2) a = some b

lemma Fills.nil (h : a = b) : Fills member a [] b := congrArg some h

lemma Fills.append (h : Fills member a ms b) (h' : Fills member b ns c) :
    Fills member a (ms ++ ns) c := by
  rw [Fills, foldlM_append, h]
  exact h'

lemma Fills.cons (h : member a key j = some b) (h' : Fills member b ms c) :
    Fills member a ((key, j) :: ms) c := by
  rw [Fills, foldlM_cons, h]
  exact h'

lemma Fills.field (hmember : member a key j = r.map set) (hread : r = some v)
    (h : Fills member (set v) ms c) : Fills member a ((key, j) :: ms) c :=
  .cons (by rw [hmember, hread]; rfl) h

lemma Fills.omitted {P : Prop} [Decidable P] (hmember : member a key j = r.map set)
    (hread : r = some v) (hzero : set zero = a) (hmissing : P → v = zero) :
    Fills member a (if P then [] else [(key, j)]) (set v) := by
  split_ifs with hP
  · rw [hmissing hP, hzero]
    exact .nil rfl
  · exact .field hmember hread (.nil rfl)

lemma Fills.optional {v : Text} {set : Text → α}
    (hmember : ∀ v, member a (text name) (.str v) = some (set v)) (hzero : set [] = a) :
    Fills member a (Json.optional name v) (set v) := .omitted (r := some v) (hmember v) rfl hzero id

lemma Fills.flag {v : Bool} {set : Bool → α} (hmember : ∀ v, member a key (.bool v) = some (set v))
    (hzero : set false = a) : Fills member a (if v = false then [] else [(key, .bool v)]) (set v) :=
  .omitted (r := some v) (hmember v) rfl hzero id

end Fills

end WeaverSSH.Json
