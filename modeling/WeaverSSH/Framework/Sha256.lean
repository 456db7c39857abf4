import WeaverSSH.Framework.Digest

/-!
# SHA-256

The digest itself (FIPS 180-4), so that a run of the program can be evaluated. Words are natural
numbers below `2 ^ 32`. Results are stated for any digest of the right shape (`SHA256`).
-/

namespace WeaverSSH

namespace Sha256

def roundConstants : List ℕ :=
  [0x428a2f98, 0x71374491, 0xb5c0fbcf, 0xe9b5dba5, 0x3956c25b, 0x59f111f1, 0x923f82a4, 0xab1c5ed5,
   0xd807aa98, 0x12835b01, 0x243185be, 0x550c7dc3, 0x72be5d74, 0x80deb1fe, 0x9bdc06a7, 0xc19bf174,
   0xe49b69c1, 0xefbe4786, 0x0fc19dc6, 0x240ca1cc, 0x2de92c6f, 0x4a7484aa, 0x5cb0a9dc, 0x76f988da,
   0x983e5152, 0xa831c66d, 0xb00327c8, 0xbf597fc7, 0xc6e00bf3, 0xd5a79147, 0x06ca6351, 0x14292967,
   0x27b70a85, 0x2e1b2138, 0x4d2c6dfc, 0x53380d13, 0x650a7354, 0x766a0abb, 0x81c2c92e, 0x92722c85,
   0xa2bfe8a1, 0xa81a664b, 0xc24b8b70, 0xc76c51a3, 0xd192e819, 0xd6990624, 0xf40e3585, 0x106aa070,
   0x19a4c116, 0x1e376c08, 0x2748774c, 0x34b0bcb5, 0x391c0cb3, 0x4ed8aa4a, 0x5b9cca4f, 0x682e6ff3,
   0x748f82ee, 0x78a5636f, 0x84c87814, 0x8cc70208, 0x90befffa, 0xa4506ceb, 0xbef9a3f7, 0xc67178f2]

/-- Words are natural numbers; this is what 32 bits hold of one. -/
def word (n : ℕ) : ℕ := n % 2 ^ 32

def rotr (n x : ℕ) : ℕ := (x >>> n) ||| word (x <<< (32 - n))

/-- The message schedule, newest word first. -/
def schedule : ℕ → List ℕ → List ℕ
  | 0, w => w
  | n + 1, w =>
    let w15 := w.getD 14 0
    let w2 := w.getD 1 0
    let s0 := rotr 7 w15 ^^^ rotr 18 w15 ^^^ (w15 >>> 3)
    let s1 := rotr 17 w2 ^^^ rotr 19 w2 ^^^ (w2 >>> 10)
    schedule n (word (w.getD 15 0 + s0 + w.getD 6 0 + s1) :: w)

/-- The eight words of the state. -/
structure Words where
  a : ℕ
  b : ℕ
  c : ℕ
  d : ℕ
  e : ℕ
  f : ℕ
  g : ℕ
  h : ℕ

def round (v : Words) (kw : ℕ × ℕ) : Words :=
  let s1 := rotr 6 v.e ^^^ rotr 11 v.e ^^^ rotr 25 v.e
  let ch := (v.e &&& v.f) ^^^ ((0xffffffff - v.e) &&& v.g)
  let t1 := v.h + s1 + ch + kw.1 + kw.2
  let s0 := rotr 2 v.a ^^^ rotr 13 v.a ^^^ rotr 22 v.a
  let maj := (v.a &&& v.b) ^^^ (v.a &&& v.c) ^^^ (v.b &&& v.c)
  ⟨word (t1 + s0 + maj), v.a, v.b, v.c, word (v.d + t1), v.e, v.f, v.g⟩

/-- The state after one block of sixteen words. -/
def compress (v : Words) (block : List ℕ) : Words :=
  let r := (roundConstants.zip (schedule 48 block.reverse).reverse).foldl round v
  ⟨word (v.a + r.a), word (v.b + r.b), word (v.c + r.c), word (v.d + r.d), word (v.e + r.e),
    word (v.f + r.f), word (v.g + r.g), word (v.h + r.h)⟩

def initial : Words :=
  ⟨0x6a09e667, 0xbb67ae85, 0x3c6ef372, 0xa54ff53a, 0x510e527f, 0x9b05688c, 0x1f83d9ab, 0x5be0cd19⟩

/-- The `n` low digits of a number in a base, highest first. -/
def digits (base : ℕ) : ℕ → ℕ → List ℕ
  | 0, _ => []
  | n + 1, x => digits base n (x / base) ++ [x % base]

/-- A one bit, zeros up to eight bytes before the end of a block, and the length in bits. -/
def pad (m : List ℕ) : List ℕ :=
  m ++ 0x80 :: List.replicate ((119 - m.length % 64) % 64) 0 ++ digits 256 8 (8 * m.length)

/-- The first `k` pieces of length `n`. -/
def chunks {α : Type*} (n : ℕ) : ℕ → List α → List (List α)
  | 0, _ => []
  | k + 1, l => l.take n :: chunks n k (l.drop n)

def ofDigits (l : List ℕ) : ℕ := l.foldl (fun n b => 256 * n + b) 0

/-- `sha256.Sum256`, as eight words. -/
def sum256 (m : List UInt8) : List ℕ :=
  let padded := pad (m.map UInt8.toNat)
  let words := (chunks 4 (padded.length / 4) padded).map ofDigits
  let v := (chunks 16 (words.length / 16) words).foldl compress initial
  [v.a, v.b, v.c, v.d, v.e, v.f, v.g, v.h]

def hexDigits : List Char :=
  ['0', '1', '2', '3', '4', '5', '6', '7', '8', '9', 'a', 'b', 'c', 'd', 'e', 'f']

/-- `hex.EncodeToString`. -/
def hex (m : List UInt8) : Text :=
  (sum256 m).flatMap fun w => (digits 16 8 w).map fun d => .char (hexDigits.getD d '0')

lemma length_digits (base n x : ℕ) : (digits base n x).length = n := by
  induction n generalizing x with
  | zero => rfl
  | succ n ih => simp [digits, ih]

lemma isLowerHex_getD (d : ℕ) : (Rune.char (hexDigits.getD d '0')).isLowerHex = true := by
  have hall : (hexDigits.all fun c => (Rune.char c).isLowerHex) = true := by decide
  rw [List.getD_eq_getElem?_getD]
  cases h : hexDigits[d]? with
  | none => rfl
  | some c => exact List.all_eq_true.mp hall c (List.mem_of_getElem? h)

end Sha256

/-- SHA-256 prints sixty-four lower-case hexadecimal digits. -/
@[reducible] def sha256 : SHA256 where
  hex := Sha256.hex
  length_hex m := by
    simp [Sha256.hex, Sha256.sum256, Sha256.length_digits]
  lowerHex_hex m r hr := by
    obtain ⟨w, -, hw⟩ := List.mem_flatMap.mp hr
    obtain ⟨d, -, rfl⟩ := List.mem_map.mp hw
    exact Sha256.isLowerHex_getD d

example : Sha256.hex (bytes "abc") =
    "ba7816bf8f01cfea414140de5dae2223b00361a396177a9cb410ff61f20015ad" := by decide +kernel

end WeaverSSH
