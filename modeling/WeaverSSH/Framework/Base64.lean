import WeaverSSH.Framework.Text

/-!
# Base64 as the program writes it

`base64.RawURLEncoding`: the alphabet that is safe in addresses, without padding. `decode` passes
over line breaks and ignores the bits of the last digit that no byte takes, so several texts decode
to the same bytes; what `encode` writes decodes to what was encoded (`decode_encode`).
`base64.StdEncoding` has two other digits and pads the last group (`encodeStd`, `decodeStd`).
-/

namespace WeaverSSH.Base64

open List

/-- The digits: the upper-case letters, the lower-case ones, the figures, a hyphen, an
underscore. -/
def alphabet : List Char :=
  (range' 65 26 ++ range' 97 26 ++ range' 48 10 ++ [45, 95]).map Char.ofNat

def digit (n : ℕ) : Rune := .char (alphabet.getD n 'A')

def value : Rune → Option ℕ
  | .char c => alphabet.idxOf? c
  | .raw _ => none

/-- `EncodeToString`. -/
def encode : List UInt8 → Text
  | [] => []
  | [a] => [digit (a.toNat / 4), digit (a.toNat % 4 * 16)]
  | [a, b] =>
    [digit (a.toNat / 4), digit (a.toNat % 4 * 16 + b.toNat / 16), digit (b.toNat % 16 * 4)]
  | a :: b :: c :: rest =>
    digit (a.toNat / 4) :: digit (a.toNat % 4 * 16 + b.toNat / 16) ::
      digit (b.toNat % 16 * 4 + c.toNat / 64) :: digit (c.toNat % 64) :: encode rest

/-- The bytes some digits stand for. -/
def join : List ℕ → Option (List UInt8)
  | [] => some []
  | [_] => none
  | [p, q] => some [UInt8.ofNat (p * 4 + q / 16)]
  | [p, q, r] => some [UInt8.ofNat (p * 4 + q / 16), UInt8.ofNat (q % 16 * 16 + r / 4)]
  | p :: q :: r :: s :: rest =>
    (join rest).map ([UInt8.ofNat (p * 4 + q / 16), UInt8.ofNat (q % 16 * 16 + r / 4),
      UInt8.ofNat (r % 4 * 64 + s)] ++ ·)

def isBreak (r : Rune) : Bool := r = .char '\n' || r = .char '\r'

/-- `DecodeString`. -/
def decode (t : Text) : Option (List UInt8) :=
  ((t.filter (!isBreak ·)).mapM value).bind join

lemma value_digit {n : ℕ} (hn : n < 64) : value (digit n) = some n := by
  have hall : ∀ n : Fin 64, value (digit n) = some n.val := by decide +kernel
  exact hall ⟨n, hn⟩

lemma digit_plain (n : ℕ) : isBreak (digit n) = false ∧ (digit n).isSpace = false := by
  have hall : (alphabet.all fun c => !isBreak (.char c) && !(Rune.char c).isSpace) = true := by
    decide +kernel
  simp only [all_eq_true, Bool.and_eq_true, Bool.not_eq_true'] at hall
  apply hall
  rw [getD_eq_getElem?_getD]
  cases hn : alphabet[n]? with
  | none => decide
  | some c => exact mem_of_getElem? hn

/-- The digits `encode` writes, as numbers. -/
def sextets : List UInt8 → List ℕ
  | [] => []
  | [a] => [a.toNat / 4, a.toNat % 4 * 16]
  | [a, b] => [a.toNat / 4, a.toNat % 4 * 16 + b.toNat / 16, b.toNat % 16 * 4]
  | a :: b :: c :: rest =>
    a.toNat / 4 :: (a.toNat % 4 * 16 + b.toNat / 16) :: (b.toNat % 16 * 4 + c.toNat / 64) ::
      c.toNat % 64 :: sextets rest

lemma encode_eq_map (l : List UInt8) : encode l = (sextets l).map digit := by
  induction l using sextets.induct with
  | case1 => rfl
  | case2 a => rfl
  | case3 a b => rfl
  | case4 a b c rest ih => simp [encode, sextets, ih]

lemma sextets_lt (l : List UInt8) : ∀ n ∈ sextets l, n < 64 := by
  induction l using sextets.induct with
  | case1 => simp [sextets]
  | case2 a =>
    have ha := a.toNat_lt
    simp only [sextets, mem_cons, not_mem_nil, or_false]
    omega
  | case3 a b =>
    have ha := a.toNat_lt
    have hb := b.toNat_lt
    simp only [sextets, mem_cons, not_mem_nil, or_false]
    omega
  | case4 a b c rest ih =>
    have ha := a.toNat_lt
    have hb := b.toNat_lt
    have hc := c.toNat_lt
    simp only [sextets, mem_cons]
    rintro n (rfl | rfl | rfl | rfl | hn)
    · omega
    · omega
    · omega
    · omega
    · exact ih n hn

lemma join_sextets (l : List UInt8) : join (sextets l) = some l := by
  have hbyte : ∀ (a : UInt8) (n : ℕ), n = a.toNat → UInt8.ofNat n = a := by
    rintro a n rfl
    exact UInt8.ofNat_toNat
  induction l using sextets.induct with
  | case1 => rfl
  | case2 a =>
    have ha := a.toNat_lt
    simp only [sextets, join]
    rw [hbyte a _ (by omega)]
  | case3 a b =>
    have ha := a.toNat_lt
    have hb := b.toNat_lt
    simp only [sextets, join]
    rw [hbyte a _ (by omega), hbyte b _ (by omega)]
  | case4 a b c rest ih =>
    have ha := a.toNat_lt
    have hb := b.toNat_lt
    have hc := c.toNat_lt
    simp only [sextets, join, ih]
    rw [hbyte a _ (by omega), hbyte b _ (by omega), hbyte c _ (by omega)]
    rfl

lemma mapM_sextets {digit : ℕ → Rune} {value : Rune → Option ℕ}
    (h : ∀ n < 64, value (digit n) = some n) (l : List UInt8) :
    ((sextets l).map digit).mapM value = some (sextets l) := by
  rw [mapM_map]
  have hlt := sextets_lt l
  generalize sextets l = ns at hlt
  induction ns with
  | nil => rfl
  | cons n ns ih =>
    rw [mapM_cons, ih fun m hm => hlt m (mem_cons_of_mem n hm)]
    simp [h n (hlt n mem_cons_self)]

@[simp]
lemma decode_encode (l : List UInt8) : decode (encode l) = some l := by
  have hkeep : (encode l).filter (!isBreak ·) = encode l := by
    rw [filter_eq_self, encode_eq_map]
    intro r hr
    obtain ⟨n, -, rfl⟩ := mem_map.mp hr
    simp [(digit_plain n).1]
  have hvalue : (encode l).mapM value = some (sextets l) := by
    rw [encode_eq_map]
    exact mapM_sextets (fun n hn => value_digit hn) l
  rw [decode, hkeep, hvalue, Option.bind_some, join_sextets]

lemma encode_eq_nil {l : List UInt8} (h : encode l = []) : l = [] := by
  have hdecode := decode_encode l
  rw [h] at hdecode
  exact (Option.some.inj hdecode).symm

lemma valid_of_decode {t : Text} {l : List UInt8} (h : decode t = some l) : validUTF8 t = true := by
  rw [validUTF8, all_eq_true]
  intro r hr
  cases r with
  | char c => rfl
  | raw b =>
    -- a stray byte is no line break, and stands for no digit
    obtain ⟨ns, hns, -⟩ := Option.bind_eq_some_iff.mp h
    have hkept : Rune.raw b ∈ t.filter (!isBreak ·) := mem_filter.mpr ⟨hr, rfl⟩
    obtain ⟨n, hn⟩ : ∃ n, value (.raw b) = some n := by
      generalize t.filter (!isBreak ·) = kept at hns hkept
      induction kept generalizing ns with
      | nil => cases hkept
      | cons r kept ih =>
        rw [mapM_cons] at hns
        obtain ⟨n, hn, hrest⟩ := Option.bind_eq_some_iff.mp hns
        obtain ⟨ns', hns', -⟩ := Option.bind_eq_some_iff.mp hrest
        rcases mem_cons.mp hkept with rfl | hkept
        · exact ⟨n, hn⟩
        · exact ih ns' hns' hkept
    cases hn

lemma isSpace_encode (l : List UInt8) : ∀ r ∈ encode l, r.isSpace = false := by
  rw [encode_eq_map]
  intro r hr
  obtain ⟨n, -, rfl⟩ := mem_map.mp hr
  exact (digit_plain n).2

/-! ## The standard encoding -/

/-- The digits of `base64.StdEncoding`, with a plus sign and a slash at the end. -/
def stdAlphabet : List Char :=
  (range' 65 26 ++ range' 97 26 ++ range' 48 10 ++ [43, 47]).map Char.ofNat

def stdDigit (n : ℕ) : Rune := .char (stdAlphabet.getD n 'A')

def stdValue : Rune → Option ℕ
  | .char c => stdAlphabet.idxOf? c
  | .raw _ => none

def pad : Rune := .char '='

/-- `StdEncoding.EncodeToString`. -/
def encodeStd (l : List UInt8) : Text :=
  (sextets l).map stdDigit ++ replicate ((3 - l.length % 3) % 3) pad

/-- `StdEncoding.DecodeString`. -/
def decodeStd (t : Text) : Option (List UInt8) :=
  let t := t.filter (!isBreak ·)
  let body := t.takeWhile (· ≠ pad)
  if t.drop body.length = replicate ((4 - body.length % 4) % 4) pad then
    (body.mapM stdValue).bind join
  else none

lemma stdDigit_mem (n : ℕ) : ∃ c ∈ stdAlphabet, stdDigit n = .char c := by
  rw [stdDigit, getD_eq_getElem?_getD]
  cases hn : stdAlphabet[n]? with
  | none => exact ⟨'A', by decide, rfl⟩
  | some c => exact ⟨c, mem_of_getElem? hn, rfl⟩

lemma length_sextets (l : List UInt8) : (sextets l).length = (4 * l.length + 2) / 3 := by
  induction l using sextets.induct with
  | case1 => simp [sextets]
  | case2 a => simp [sextets]
  | case3 a b => simp [sextets]
  | case4 a b c rest ih =>
    simp only [sextets, length_cons, ih]
    omega

lemma length_encodeStd (l : List UInt8) : (encodeStd l).length = (l.length + 2) / 3 * 4 := by
  rw [encodeStd, length_append, length_map, length_replicate, length_sextets]
  omega

lemma mem_encodeStd {l : List UInt8} {r : Rune} (h : r ∈ encodeStd l) :
    ∃ c ∈ '=' :: stdAlphabet, r = .char c := by
  rcases mem_append.mp h with h | h
  · obtain ⟨n, -, rfl⟩ := mem_map.mp h
    obtain ⟨c, hc, hdigit⟩ := stdDigit_mem n
    exact ⟨c, mem_cons_of_mem _ hc, hdigit⟩
  · exact ⟨'=', mem_cons_self, eq_of_mem_replicate h⟩

lemma decodeStd_encodeStd (l : List UInt8) : decodeStd (encodeStd l) = some l := by
  have hkeep : (encodeStd l).filter (!isBreak ·) = encodeStd l := by
    rw [filter_eq_self]
    intro r hr
    obtain ⟨c, hc, rfl⟩ := mem_encodeStd hr
    have hall : (('=' :: stdAlphabet).all fun c => !isBreak (.char c)) = true := by decide +kernel
    exact all_eq_true.mp hall c hc
  have hdigits : ∀ r ∈ (sextets l).map stdDigit, decide (r ≠ pad) = true := by
    intro r hr
    obtain ⟨n, -, rfl⟩ := mem_map.mp hr
    obtain ⟨c, hc, hdigit⟩ := stdDigit_mem n
    have hall : (stdAlphabet.all fun c => decide (Rune.char c ≠ pad)) = true := by decide +kernel
    rw [hdigit]
    exact all_eq_true.mp hall c hc
  have hpads : ∀ k, (replicate k pad).takeWhile (· ≠ pad) = [] := by
    intro k
    cases k with
    | zero => rfl
    | succ k => exact takeWhile_cons_of_neg (by decide)
  have hbody : (encodeStd l).takeWhile (· ≠ pad) = (sextets l).map stdDigit := by
    rw [encodeStd, takeWhile_append_of_pos hdigits, hpads, append_nil]
  have hvalue : ∀ n < 64, stdValue (stdDigit n) = some n := by
    have hall : ∀ n : Fin 64, stdValue (stdDigit n) = some n.val := by decide +kernel
    exact fun n hn => hall ⟨n, hn⟩
  have hfill : (4 - (sextets l).length % 4) % 4 = (3 - l.length % 3) % 3 := by
    rw [length_sextets]
    have hrest : l.length % 3 < 3 := Nat.mod_lt _ (by decide)
    have hsplit : (4 * l.length + 2) / 3 = 4 * (l.length / 3) + (4 * (l.length % 3) + 2) / 3 := by
      omega
    rw [hsplit, Nat.mul_add_mod]
    interval_cases l.length % 3
    · rfl
    · rfl
    · rfl
  unfold decodeStd
  dsimp only
  rw [hkeep, hbody, length_map, hfill, if_pos, mapM_sextets hvalue, Option.bind_some, join_sextets]
  have hdrop := @drop_left _ ((sextets l).map stdDigit) (replicate ((3 - l.length % 3) % 3) pad)
  rwa [length_map] at hdrop

end WeaverSSH.Base64
