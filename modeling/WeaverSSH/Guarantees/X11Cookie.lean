import WeaverSSH.Framework.Hex
import WeaverSSH.Guarantees.X11Setup

/-!
# The X11 setup that the proxy sends

`createX11SetupRequest` writes a setup with the cookie of a hexadecimal string. The name is padded
and the cookie is not, its length is written in sixteen bits, and a string of odd length is sliced
past its end. `read_back_iff` says when what is written is read back.
-/

namespace WeaverSSH.X11

inductive CookieErr where
  | digit
  /-- A slice past the end of the string ends the process. -/
  | crash
deriving DecidableEq, Repr

def digit (b : UInt8) : Rune := .char (Char.ofNat b.toNat)

/-- The loop over the string: `strconv.ParseUint` takes two digits. -/
def cookieBytes : List UInt8 → Except CookieErr (List UInt8)
  | [] => .ok []
  | [_] => .error .crash
  | high :: low :: rest => do
    let byte ← (hexDecode [digit high, digit low]).elim (.error .digit) .ok
    return byte ++ (← cookieBytes rest)

def authName : List UInt8 := bytes "MIT-MAGIC-COOKIE-1"

def setupRequest (cookie : List UInt8) : List UInt8 :=
  [0x6c, 0, 11, 0, 0, 0] ++ (littleEndian 2 authName.length ++ (littleEndian 2 cookie.length ++
    ([0, 0] ++ (authName ++ ([0, 0] ++ cookie)))))

def createX11SetupRequest (cookie : Text) : Except CookieErr (List UInt8) := do
  return setupRequest (← cookieBytes (bytes cookie))

/-- An error is reported, or what is written is read back as the bytes that the string stands for,
and the rest is left. -/
def ReadBack (cookie : Text) (rest : List UInt8) : Prop :=
  createX11SetupRequest cookie = .error .digit ∨ ∃ request setup,
    createX11SetupRequest cookie = .ok request ∧ readConnectionSetup (request ++ rest) = .ok setup ∧
      setup.authProtoName = authName ∧
      hexDecode ((bytes cookie).map digit) = some setup.authProtoData ∧
      setup.rest (request ++ rest) = rest

/-! ## What the loop makes of a string -/

lemma hexDecode_cons {high low : Rune} {rest : Text} {data : List UInt8} :
    hexDecode (high :: low :: rest) = some data ↔ (high.isHex && low.isHex) = true ∧
      ∃ more, hexDecode rest = some more ∧
        data = UInt8.ofNat (16 * high.nibble + low.nibble) :: more := by
  simp only [hexDecode_eq_some, hexDecodes, unhex, List.all_cons, List.length_cons,
    Bool.and_eq_true, beq_iff_eq, add_assoc, Nat.add_mod_right, Nat.reduceAdd]
  constructor
  · rintro ⟨⟨⟨hhigh, hlow, hall⟩, heven⟩, rfl⟩
    exact ⟨⟨hhigh, hlow⟩, unhex rest, ⟨⟨hall, heven⟩, rfl⟩, rfl⟩
  · rintro ⟨⟨hhigh, hlow⟩, _, ⟨⟨hall, heven⟩, rfl⟩, rfl⟩
    exact ⟨⟨⟨hhigh, hlow, hall⟩, heven⟩, rfl⟩

lemma cookieBytes_eq_ok {string data : List UInt8} :
    cookieBytes string = .ok data ↔ hexDecode (string.map digit) = some data := by
  induction string using cookieBytes.induct generalizing data with
  | case1 => simp [cookieBytes, hexDecode, hexDecodes, unhex]
  | case2 => simp [cookieBytes, hexDecode, hexDecodes]
  | case3 high low rest ih =>
    simp only [cookieBytes, bind_eq_ok, elim_eq_ok, pure_eq_ok, List.map_cons, hexDecode_cons, ih]
    constructor
    · rintro ⟨_, ⟨hpair, more, hmore, rfl⟩, tail, htail, rfl⟩
      obtain rfl := (hexDecode_eq_some.mp hmore).2
      exact ⟨hpair, tail, htail, rfl⟩
    · rintro ⟨hpair, tail, htail, rfl⟩
      exact ⟨_, ⟨hpair, [], rfl, rfl⟩, tail, htail, rfl⟩

lemma cookieBytes_eq_digit {string : List UInt8} : cookieBytes string = .error .digit ↔
    ∃ before high low rest, string = before ++ high :: low :: rest ∧ before.length % 2 = 0 ∧
      ((digit high).isHex && (digit low).isHex) = false := by
  induction string using cookieBytes.induct with
  | case1 => simp [cookieBytes]
  | case2 b =>
    simp only [cookieBytes, reduceCtorEq, Except.error.injEq, false_iff]
    rintro ⟨before, high, low, rest, heq, -⟩
    have hlength := congrArg List.length heq
    simp only [List.length_append, List.length_cons, List.length_nil] at hlength
    omega
  | case3 high low rest ih =>
    cases hpair : (digit high).isHex && (digit low).isHex with
    | false =>
      have hnone : hexDecode [digit high, digit low] = none := by
        simp only [hexDecode, hexDecodes, List.all_cons, List.all_nil, Bool.and_true, hpair]
        rfl
      exact iff_of_true (by rw [cookieBytes, hnone]; rfl) ⟨[], high, low, rest, rfl, rfl, hpair⟩
    | true =>
      obtain ⟨byte, hbyte⟩ : ∃ byte, hexDecode [digit high, digit low] = some byte :=
        ⟨_, hexDecode_cons.mpr ⟨hpair, [], rfl, rfl⟩⟩
      simp only [cookieBytes, hbyte, Option.elim_some, ok_bind, bind_eq_error, ih]
      constructor
      · rintro (⟨before, h, l, more, rfl, heven, hbad⟩ | ⟨_, -, hpure⟩)
        · refine ⟨high :: low :: before, h, l, more, rfl, ?_, hbad⟩
          rw [List.length_cons, List.length_cons]
          omega
        · cases hpure
      · rintro ⟨before, h, l, more, heq, heven, hbad⟩
        refine .inl ?_
        rcases before with _ | ⟨x, _ | ⟨y, before⟩⟩
        · obtain ⟨rfl, rfl, -⟩ : high = h ∧ low = l ∧ rest = more := by simpa using heq
          simp [hpair] at hbad
        · simp at heven
        · simp only [List.cons_append, List.cons.injEq] at heq
          rw [List.length_cons, List.length_cons] at heven
          exact ⟨before, h, l, more, heq.2.2, by omega, hbad⟩

lemma read_setupRequest_iff (data rest : List UInt8) : (∃ setup,
      readConnectionSetup (setupRequest data ++ rest) = .ok setup ∧ setup.authProtoName = authName ∧
        data = setup.authProtoData ∧ setup.rest (setupRequest data ++ rest) = rest) ↔
    data.length % 4 = 0 ∧ data.length + 20 < 2 ^ 16 := by
  have hdrop : (setupRequest data ++ rest).drop 32 = data ++ rest := rfl
  have hlen : (setupRequest data ++ rest).length = data.length + rest.length + 32 := by
    simp only [setupRequest, List.length_append, length_littleEndian,
      show authName.length = 18 from rfl]
    simp only [List.length_cons, List.length_nil]
    omega
  have hname : ByteOrder.littleEndian.uint (setupRequest data ++ rest) 6 2 = 18 := rfl
  have hdata : ByteOrder.littleEndian.uint (setupRequest data ++ rest) 8 2 = data.length % 2 ^ 16 :=
    fromLittleEndian_littleEndian 2 _
  have htake : bytesAt (setupRequest data ++ rest) 12 18 = authName := rfl
  have horder : setupOrder (setupRequest data ++ rest) = some .littleEndian := rfl
  generalize setupRequest data ++ rest = r at *
  rw [readConnectionSetup_of_order (by omega) horder]
  constructor
  · rintro ⟨setup, hok, -, -, hrest⟩
    have hroom : 12 + authLen .littleEndian r ≤ r.length := by
      by_contra hshort
      rw [afterHeader_of_short (by omega) (by omega)] at hok
      cases hok
    obtain hcrash | ⟨other, hother, horder⟩ := afterHeader_of_le hroom
    · cases hok.symm.trans hcrash
    obtain rfl := Except.ok.inj (hok.symm.trans hother)
    have hleft := congrArg List.length hrest
    rw [ConnectionSetup.rest, List.length_drop, horder] at hleft
    unfold authLen padded at hleft hroom
    omega
  · rintro ⟨hmod, hlt⟩
    have hfour : pad4 data.length = data.length := by unfold pad4; omega
    rw [Nat.mod_eq_of_lt (by omega)] at hdata
    have hpad : pad4 (ByteOrder.littleEndian.uint r 6 2) +
        pad4 (ByteOrder.littleEndian.uint r 8 2) = 20 + data.length := by
          rw [hname, hdata, hfour]; rfl
    have htotal := @authLen_of_lt r .littleEndian (by omega)
    refine ⟨_, afterHeader_of_lt (by omega) (by omega), ?_, ?_, ?_⟩
    · rw [hname, htake]
    · rw [hname, hdata]
      change data = (r.drop 32).take data.length
      rw [hdrop, List.take_left]
    · rw [ConnectionSetup.rest, htotal, hpad, ← add_assoc, ← List.drop_drop, hdrop, List.drop_left]

/-- **When a cookie is read back**: where a pair of characters is not of hexadecimal digits, which
is reported, or where all are digits, their number is a multiple of eight, and the bytes leave room
for the name in sixteen bits. -/
theorem read_back_iff (cookie : Text) (rest : List UInt8) : ReadBack cookie rest ↔
    (∃ before high low after, bytes cookie = before ++ high :: low :: after ∧
      before.length % 2 = 0 ∧ ((digit high).isHex && (digit low).isHex) = false) ∨
    (∀ b ∈ bytes cookie, (digit b).isHex = true) ∧ (bytes cookie).length % 8 = 0 ∧
      (bytes cookie).length / 2 + 20 < 2 ^ 16 := by
  have herror : createX11SetupRequest cookie = .error .digit ↔
      cookieBytes (bytes cookie) = .error .digit := by
    rw [createX11SetupRequest]
    cases cookieBytes (bytes cookie) with
    | error e => simp
    | ok data => simp [ok_bind, pure, Except.pure]
  have hdecodes : (∃ data, hexDecode ((bytes cookie).map digit) = some data ∧
      data.length % 4 = 0 ∧ data.length + 20 < 2 ^ 16) ↔
      (∀ b ∈ bytes cookie, (digit b).isHex = true) ∧ (bytes cookie).length % 8 = 0 ∧
        (bytes cookie).length / 2 + 20 < 2 ^ 16 := by
    simp only [hexDecode_eq_some, hexDecodes, Bool.and_eq_true, List.all_map, List.all_eq_true,
      Function.comp_apply, beq_iff_eq, List.length_map]
    constructor
    · rintro ⟨_, ⟨⟨hall, heven⟩, rfl⟩, hfour, hroom⟩
      rw [length_unhex, List.length_map] at hfour hroom
      exact ⟨hall, by omega, hroom⟩
    · rintro ⟨hall, height, hroom⟩
      refine ⟨_, ⟨⟨hall, by omega⟩, rfl⟩, ?_⟩
      rw [length_unhex, List.length_map]
      omega
  rw [ReadBack, herror, cookieBytes_eq_digit, ← hdecodes]
  refine or_congr_right ?_
  constructor
  · rintro ⟨request, setup, hrequest, hread, hname, hsame, hrest⟩
    rw [createX11SetupRequest, cookieBytes_eq_ok.mpr hsame] at hrequest
    obtain rfl := Except.ok.inj hrequest
    exact ⟨_, hsame, (read_setupRequest_iff _ rest).mp ⟨setup, hread, hname, rfl, hrest⟩⟩
  · rintro ⟨data, hdata, hfits⟩
    obtain ⟨setup, hread, hname, rfl, hrest⟩ := (read_setupRequest_iff data rest).mpr hfits
    refine ⟨_, setup, ?_, hread, hname, hdata, hrest⟩
    rw [createX11SetupRequest, cookieBytes_eq_ok.mpr hdata]
    rfl

/-- What follows a cookie of one byte is taken for its padding; half a byte ends the process. -/
theorem cookie_takes_rest : (∃ request setup, createX11SetupRequest "00" = .ok request ∧
      readConnectionSetup (request ++ [1, 2, 3]) = .ok setup ∧
      setup.rest (request ++ [1, 2, 3]) = []) ∧
    createX11SetupRequest "0" = .error .crash :=
  ⟨⟨_, _, rfl, rfl, rfl⟩, rfl⟩

end WeaverSSH.X11
