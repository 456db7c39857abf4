import WeaverSSH.Framework.Clock
import WeaverSSH.Framework.Text

/-!
# JSON as `encoding/json` writes and reads it

`Json` is a JSON text as a tree, with numbers as they are written. `print` is what `json.Marshal`
writes, without blanks and with its escapes. `parse` is what `json.Unmarshal` and `Decoder.Decode`
read: blanks between tokens, nesting up to `maxDepth`, escapes, and the replacement character for
what is no character.

The readers recur with fuel, which `parse` gives in excess. `decode` reads an object into a record:
each member into the field whose name it matches up to case, `null` leaving the field as it was.
-/

namespace WeaverSSH

/-- A JSON text; a number is its literal. -/
inductive Json where
  | null
  | bool (b : Bool)
  | num (literal : Text)
  | str (value : Text)
  | arr (items : List Json)
  | obj (members : List (Text × Json))

namespace Json

def quoteMark : Rune := .char '\x22'

def backslash : Rune := .char '\x5c'

def openBrace : Rune := .char '\x7b'

def closeBrace : Rune := .char '\x7d'

/-! ## Writing -/

def hexDigit (n : ℕ) : Rune := .char (Nat.digitChar n)

/-- An escape of four hexadecimal digits. -/
def unicodeEscape (n : ℕ) : Text :=
  [backslash, .char 'u', hexDigit (n / 4096), hexDigit (n / 256 % 16), hexDigit (n / 16 % 16),
    hexDigit (n % 16)]

/-- The characters with an escape of one letter, and the letter. -/
def shortEscapes : List (Char × Char) :=
  [('\x22', '\x22'), ('\x5c', '\x5c'), ('\n', 'n'), ('\r', 'r'), ('\t', 't'), ('\x08', 'b'),
    ('\x0c', 'f')]

def mustEscape (c : Char) : Bool :=
  c.toNat < 0x20 || c = '<' || c = '>' || c = '&' || c.toNat == 0x2028 || c.toNat == 0x2029

def escape : Rune → Text
  | .raw _ => unicodeEscape 0xFFFD
  | .char c =>
    match shortEscapes.lookup c with
    | some letter => [backslash, .char letter]
    | none => if mustEscape c then unicodeEscape c.toNat else [.char c]

def quote (t : Text) : Text := quoteMark :: (t.flatMap escape ++ [quoteMark])

/-- `strconv.FormatInt` in base ten. -/
def decimal : ℤ → Text
  | .ofNat n => (Nat.toDigits 10 n).map .char
  | .negSucc n => .char '-' :: (Nat.toDigits 10 (n + 1)).map .char

def int (n : ℤ) : Json := .num (decimal n)

/-- A member that is left out where it is empty. -/
def optional (name : String) (value : Text) : List (Text × Json) :=
  if value = [] then [] else [(text name, .str value)]

/-- A number that is left out where it is zero (`omitempty`). -/
def optionalInt (name : String) (n : ℤ) : List (Text × Json) :=
  if n = 0 then [] else [(text name, .int n)]

mutual

/-- `json.Marshal`. -/
def print : Json → Text
  | .null => "null"
  | .bool true => "true"
  | .bool false => "false"
  | .num literal => literal
  | .str value => quote value
  | .arr [] => [.char '[', .char ']']
  | .arr (j :: js) => .char '[' :: (print j ++ (printItems js ++ [.char ']']))
  | .obj [] => [openBrace, closeBrace]
  | .obj ((key, j) :: ms) =>
    openBrace :: (quote key ++ .char ':' :: (print j ++ (printMembers ms ++ [closeBrace])))

def printItems : List Json → Text
  | [] => []
  | j :: js => .char ',' :: (print j ++ printItems js)

def printMembers : List (Text × Json) → Text
  | [] => []
  | (key, j) :: ms => .char ',' :: (quote key ++ .char ':' :: (print j ++ printMembers ms))

end

mutual

/-- The text with its strings scrubbed: what is left of it when it has been written and read. -/
def scrub : Json → Json
  | .null => .null
  | .bool b => .bool b
  | .num literal => .num literal
  | .str value => .str (WeaverSSH.scrub value)
  | .arr items => .arr (scrubItems items)
  | .obj members => .obj (scrubMembers members)

def scrubItems : List Json → List Json
  | [] => []
  | j :: js => j.scrub :: scrubItems js

def scrubMembers : List (Text × Json) → List (Text × Json)
  | [] => []
  | (key, j) :: ms => (WeaverSSH.scrub key, j.scrub) :: scrubMembers ms

end

def marshal (j : Json) : List UInt8 := bytes (print j)

/-! ## Reading -/

def isBlank (r : Rune) : Bool :=
  r = .char ' ' || r = .char '\t' || r = .char '\r' || r = .char '\n'

def skipBlank (t : Text) : Text := t.dropWhile isBlank

/-- Blanks, then the character `c`. -/
def symbol (c : Rune) (t : Text) : Option Text :=
  match skipBlank t with
  | [] => none
  | r :: rest => if r = c then some rest else none

def hexValue : Rune → Option ℕ
  | .char c =>
    if '0' ≤ c && c ≤ '9' then some (c.toNat - 48)
    else if 'a' ≤ c && c ≤ 'f' then some (c.toNat - 87)
    else if 'A' ≤ c && c ≤ 'F' then some (c.toNat - 55)
    else none
  | .raw _ => none

/-- The number four hexadecimal digits stand for. -/
def hex4 (a b c d : Rune) : Option ℕ := do
  let a ← hexValue a
  let b ← hexValue b
  let c ← hexValue c
  let d ← hexValue d
  return ((a * 16 + b) * 16 + c) * 16 + d

def isSurrogate (n : ℕ) : Bool := 0xD800 ≤ n && n < 0xE000

/-- The number of an escape of four digits, if one stands here. -/
def nextEscape : Text → Option ℕ
  | s :: u :: a :: b :: c :: d :: _ =>
    if s = backslash && u = .char 'u' then hex4 a b c d else none
  | _ => none

/-- The character a pair of surrogates stands for. -/
def combine (high low : ℕ) : Option Char :=
  if high < 0xDC00 && 0xDC00 ≤ low && low < 0xE000 then
    some (Char.ofNat ((high - 0xD800) * 0x400 + (low - 0xDC00) + 0x10000))
  else none

/-- The character after a backslash, and how many places it takes. -/
def scanEscape : Text → Option (Char × ℕ)
  | [] => none
  | e :: rest =>
    if e = .char 'u' then
      match rest with
      | a :: b :: c :: d :: rest =>
        match hex4 a b c d with
        | none => none
        | some n =>
          if isSurrogate n then
            match (nextEscape rest).bind (combine n) with
            | some c => some (c, 11)
            | none => some ('�', 5)
          else some (Char.ofNat n, 5)
      | _ => none
    else if e = .char '/' then some ('/', 1)
    else (shortEscapes.find? fun p => .char p.2 = e).map fun p => (p.1, 1)

/-- A character of a string, and how many places after the first it takes. -/
def scanChar : Text → Option (Char × ℕ)
  | [] => none
  | r :: rest =>
    if r = backslash then scanEscape rest
    else
      match r with
      | .raw _ => some ('�', 0)
      | .char c => if c.toNat < 0x20 then none else some (c, 0)

/-- A string from after its quotation mark, but for the first `k` places; with what follows it. -/
def unquote : ℕ → Text → Option (Text × Text)
  | _, [] => none
  | k + 1, _ :: rest => unquote k rest
  | 0, r :: rest =>
    if r = quoteMark then some ([], rest)
    else
      match scanChar (r :: rest) with
      | none => none
      | some (c, k) => (unquote k rest).map fun p => (.char c :: p.1, p.2)

def isDigit : Rune → Bool
  | .char c => c.isDigit
  | .raw _ => false

def readInt : Text → Option (Text × Text)
  | [] => none
  | r :: rest =>
    if r = .char '0' then some ([r], rest)
    else if isDigit r then some (r :: rest.takeWhile isDigit, rest.dropWhile isDigit)
    else none

def readDigits (t : Text) : Option (Text × Text) :=
  if t.takeWhile isDigit = [] then none else some (t.takeWhile isDigit, t.dropWhile isDigit)

/-- The point and the digits after it, if there are any. -/
def readFraction : Text → Option (Text × Text)
  | [] => some ([], [])
  | r :: rest =>
    if r = .char '.' then (readDigits rest).map fun p => (r :: p.1, p.2) else some ([], r :: rest)

def readExponent : Text → Option (Text × Text)
  | [] => some ([], [])
  | r :: rest =>
    if r = .char 'e' || r = .char 'E' then
      match rest with
      | [] => none
      | s :: rest' =>
        if s = .char '+' || s = .char '-' then
          (readDigits rest').map fun p => (r :: s :: p.1, p.2)
        else (readDigits rest).map fun p => (r :: p.1, p.2)
    else some ([], r :: rest)

def readNumber (t : Text) : Option (Text × Text) := do
  let sign : Text := t.take 1 |>.filter (· = .char '-')
  let (whole, t) ← readInt (t.drop sign.length)
  let (fraction, t) ← readFraction t
  let (exponent, t) ← readExponent t
  return (sign ++ whole ++ fraction ++ exponent, t)

def readWord (word : String) (t : Text) : Option Text :=
  if hasPrefix t word then some (t.drop (text word).length) else none

/-- A value that is neither string nor array nor object. -/
def readScalar (t : Text) : Option (Json × Text) :=
  match readWord "null" t, readWord "true" t, readWord "false" t with
  | some rest, _, _ => some (.null, rest)
  | _, some rest, _ => some (.bool true, rest)
  | _, _, some rest => some (.bool false, rest)
  | none, none, none => (readNumber t).map fun p => (.num p.1, p.2)

mutual

/-- A value, nested no deeper than `depth`; with what follows it. -/
def readValue : ℕ → ℕ → Text → Option (Json × Text)
  | 0, _, _ => none
  | fuel + 1, depth, t =>
    match skipBlank t with
    | [] => none
    | r :: rest =>
      if r = quoteMark then (unquote 0 rest).map fun p => (.str p.1, p.2)
      else if r = .char '[' then
        if depth = 0 then none
        else
          match symbol (.char ']') rest with
          | some rest => some (.arr [], rest)
          | none => (readItems fuel (depth - 1) rest).map fun p => (.arr p.1, p.2)
      else if r = openBrace then
        if depth = 0 then none
        else
          match symbol closeBrace rest with
          | some rest => some (.obj [], rest)
          | none => (readMembers fuel (depth - 1) rest).map fun p => (.obj p.1, p.2)
      else readScalar (r :: rest)

def readItems : ℕ → ℕ → Text → Option (List Json × Text)
  | 0, _, _ => none
  | fuel + 1, depth, t =>
    match readValue fuel depth t with
    | none => none
    | some (j, t) =>
      match symbol (.char ',') t with
      | some t => (readItems fuel depth t).map fun p => (j :: p.1, p.2)
      | none => (symbol (.char ']') t).map fun t => ([j], t)

def readMembers : ℕ → ℕ → Text → Option (List (Text × Json) × Text)
  | 0, _, _ => none
  | fuel + 1, depth, t =>
    match ((symbol quoteMark t).bind (unquote 0)).bind fun p =>
      (symbol (.char ':') p.2).bind fun t =>
        (readValue fuel depth t).map fun q => ((p.1, q.1), q.2) with
    | none => none
    | some (m, t) =>
      match symbol (.char ',') t with
      | some t => (readMembers fuel depth t).map fun p => (m :: p.1, p.2)
      | none => (symbol closeBrace t).map fun t => ([m], t)

end

/-- The depth `encoding/json` reads to. -/
def maxDepth : ℕ := 10000

/-- One value and nothing but blanks after it. -/
def parse (t : Text) : Option Json :=
  match readValue (2 * t.length + 1) maxDepth t with
  | none => none
  | some (j, rest) => if skipBlank rest = [] then some j else none

/-! ## Records -/

/-- The letter a character of a member's name counts as: case is ignored, and two characters
outside ASCII count as the letters they are variants of. -/
def foldLetter : Rune → Rune
  | .char c =>
    if c.toNat = 0x212A then .char 'k' else if c.toNat = 0x17F then .char 's' else .char c.toLower
  | .raw b => .raw b

def named (key : Text) (field : String) : Bool := key.map foldLetter = text field

/-- The number of a literal, where an `int64` has it. -/
def toInt64 (literal : Text) : Option ℤ :=
  let negative := hasPrefix literal "-"
  let digits := trimPrefix literal "-"
  if digits.all isDigit then
    let n : ℤ := (digits.foldl (fun n r => 10 * n + ((hexValue r).getD 0)) 0 : ℕ)
    let n := if negative then -n else n
    if -2 ^ 63 ≤ n && n < 2 ^ 63 then some n else none
  else none

def readText (old : Text) : Json → Option Text
  | .null => some old
  | .str value => some value
  | _ => none

def readInt64 (old : ℤ) : Json → Option ℤ
  | .null => some old
  | .num literal => toInt64 literal
  | _ => none

/-- Read an unsigned number of 32 bits over one. -/
def readUint32 (old : UInt32) : Json → Option UInt32
  | .null => some old
  | .num literal =>
    if hasPrefix literal "-" then none
    else (toInt64 literal).bind fun n => if n < 2 ^ 32 then some (UInt32.ofNat n.toNat) else none
  | _ => none

/-- Read an unsigned number of 64 bits over one. -/
def readUint64 (old : UInt64) : Json → Option UInt64
  | .null => some old
  | .num literal =>
    let n := literal.foldl (fun n r => 10 * n + ((hexValue r).getD 0)) 0
    if literal.all isDigit && n < 2 ^ 64 then some (UInt64.ofNat n) else none
  | _ => none

/-- Read a truth value over one. -/
def readBool (old : Bool) : Json → Option Bool
  | .null => some old
  | .bool b => some b
  | _ => none

/-- Read an array over one: an item is read over the one it replaces. -/
def readList {α : Type} (zero : α) (item : α → Json → Option α) (old : List α) :
    Json → Option (List α)
  | .null => some []
  | .arr items =>
    (items.zipIdx.mapM fun p => item (old.getD p.2 zero) p.1)
  | _ => none

/-- Read an object over a map of strings, member by member. -/
def readMap {κ : Type} (put : κ → Text → Text → κ) (empty old : κ) : Json → Option κ
  | .null => some empty
  | .obj members => members.foldlM (fun m p => (readText [] p.2).map (put m p.1)) old
  | _ => none

/-- Read an object over a record, member by member. -/
def decode {α : Type} (member : α → Text → Json → Option α) (old : α) : Json → Option α
  | .null => some old
  | .obj members => members.foldlM (fun a p => member a p.1 p.2) old
  | _ => none

end Json

end WeaverSSH
