import WeaverSSH.X11.Server

/-!
# How much of a stream an X11 setup takes

The two lengths that a client announces are padded, and added, in sixteen bits. Where they do not
stay below `2 ^ 16`, `ReadConnectionSetup` takes too little, or slices past the buffer, unless the
stream ends before (`setup_proper_iff`).
-/

namespace WeaverSSH.X11

open List

def pad4 (n : ℕ) : ℕ := (n + 3) / 4 * 4

def setupOrder (r : List UInt8) : Option ByteOrder :=
  match r.head? with
  | some 0x42 => some .bigEndian
  | some 0x6c => some .littleEndian
  | _ => none

/-- `totalLen`: how much is read after the header. -/
def authLen (bo : ByteOrder) (r : List UInt8) : ℕ :=
  (padded (bo.uint r 6 2) + padded (bo.uint r 8 2)) % 2 ^ 16

/-- What is left of the stream once a setup is returned. -/
def ConnectionSetup.rest (setup : ConnectionSetup) (r : List UInt8) : List UInt8 :=
  r.drop (12 + authLen setup.byteOrder r)

/-- No slice past the buffer; and a setup that is returned has the name and the data of the stream,
of the lengths announced, and all of it up to the padding is taken. -/
def ProperSetup (r : List UInt8) : Prop :=
  readConnectionSetup r ≠ .error .crash ∧ ∀ setup, readConnectionSetup r = .ok setup →
    let n := setup.byteOrder.uint r 6 2
    let d := setup.byteOrder.uint r 8 2
    12 + pad4 n + pad4 d ≤ r.length ∧ setup.rest r = r.drop (12 + pad4 n + pad4 d) ∧
    setup.authProtoName = bytesAt r 12 n ∧ setup.authProtoName.length = n ∧
    setup.authProtoData = bytesAt r (12 + pad4 n) d ∧ setup.authProtoData.length = d

/-- What `ReadConnectionSetup` does once the header is read. -/
def afterHeader (bo : ByteOrder) (r : List UInt8) : Except SetupErr ConnectionSetup := do
  let n := bo.uint r 6 2
  let dataEnd := (padded n + bo.uint r 8 2) % 2 ^ 16
  if authLen bo r = 0 then return ⟨bo, [], []⟩
  let authBuf := bytesAt r 12 (authLen bo r)
  require (authBuf.length = authLen bo r) .short
  require (n ≤ authLen bo r && padded n ≤ dataEnd && dataEnd ≤ authLen bo r) .crash
  return ⟨bo, authBuf.take n, bytesAt authBuf (padded n) (dataEnd - padded n)⟩

variable {r : List UInt8} {bo : ByteOrder}

lemma readConnectionSetup_of_order (h12 : 12 ≤ r.length) (hbo : setupOrder r = some bo) :
    readConnectionSetup r = afterHeader bo r := by
  unfold setupOrder at hbo
  split at hbo
  · next heq =>
    cases hbo
    rw [readConnectionSetup, require_of_true (decide_eq_true h12), ok_bind, heq]
    rfl
  · next heq =>
    cases hbo
    rw [readConnectionSetup, require_of_true (decide_eq_true h12), ok_bind, heq]
    rfl
  · cases hbo

lemma readConnectionSetup_of_none (h : ¬ 12 ≤ r.length ∨ setupOrder r = none) :
    ∃ e ≠ SetupErr.crash, readConnectionSetup r = .error e := by
  by_cases h12 : 12 ≤ r.length
  · have hnone := h.resolve_left (not_not.mpr h12)
    unfold setupOrder at hnone
    refine ⟨.invalidByteOrder, by simp, ?_⟩
    split at hnone
    · cases hnone
    · cases hnone
    · rw [readConnectionSetup, require_of_true (decide_eq_true h12), ok_bind]
      split
      · simp_all
      · simp_all
      · rfl
  · refine ⟨.short, by simp, ?_⟩
    rw [readConnectionSetup, require_of_false (decide_eq_false h12), error_bind]

lemma length_bytesAt {offset width : ℕ} (h : offset + width ≤ r.length) :
    (bytesAt r offset width).length = width := by
  rw [bytesAt, length_take, length_drop]
  omega

lemma afterHeader_of_short (h12 : 12 ≤ r.length) (h : r.length < 12 + authLen bo r) :
    afterHeader bo r = .error .short := by
  have hbuf : (bytesAt r 12 (authLen bo r)).length ≠ authLen bo r := by
    rw [bytesAt, length_take, length_drop]
    omega
  unfold afterHeader
  dsimp only
  rw [if_neg (by omega), require_of_false (decide_eq_false hbuf)]
  rfl

/-- Where there is enough of the stream, the slices fail or a setup in its order is returned. -/
lemma afterHeader_of_le (h : 12 + authLen bo r ≤ r.length) :
    afterHeader bo r = .error .crash ∨ ∃ setup, afterHeader bo r = .ok setup ∧
      setup.byteOrder = bo := by
  unfold afterHeader
  dsimp only
  rw [require_of_true (decide_eq_true (length_bytesAt h))]
  unfold require
  split_ifs
  · exact .inr ⟨_, rfl, rfl⟩
  · exact .inr ⟨_, rfl, rfl⟩
  · exact .inl rfl

lemma le_pad4 (n : ℕ) : n ≤ pad4 n := by
  unfold pad4
  omega

lemma padded_of_lt {n : ℕ} (h : pad4 n < 2 ^ 16) : padded n = pad4 n := by
  unfold padded
  unfold pad4 at h ⊢
  omega

lemma authLen_of_lt (h : pad4 (bo.uint r 6 2) + pad4 (bo.uint r 8 2) < 2 ^ 16) :
    authLen bo r = pad4 (bo.uint r 6 2) + pad4 (bo.uint r 8 2) := by
  rw [authLen, padded_of_lt (by omega), padded_of_lt (by omega), Nat.mod_eq_of_lt h]

lemma afterHeader_of_lt (hlen : 12 + authLen bo r ≤ r.length)
    (h : pad4 (bo.uint r 6 2) + pad4 (bo.uint r 8 2) < 2 ^ 16) :
    afterHeader bo r = .ok ⟨bo, bytesAt r 12 (bo.uint r 6 2),
      bytesAt r (12 + pad4 (bo.uint r 6 2)) (bo.uint r 8 2)⟩ := by
  have hnle := le_pad4 (bo.uint r 6 2)
  have hdle := le_pad4 (bo.uint r 8 2)
  unfold afterHeader
  dsimp only
  rw [require_of_true (decide_eq_true (length_bytesAt hlen)), authLen_of_lt h,
    padded_of_lt (by omega), Nat.mod_eq_of_lt (by omega)]
  generalize bo.uint r 6 2 = n at *
  generalize bo.uint r 8 2 = d at *
  split_ifs with h0
  · rw [show n = 0 by omega, show d = 0 by omega]
    simp only [bytesAt, take_zero]
    rfl
  · rw [require_of_true (by simp; omega)]
    simp only [ok_bind, bytesAt, take_take, drop_take, drop_drop]
    rw [min_eq_left (by omega), min_eq_left (by omega), Nat.add_sub_cancel_left]
    rfl

/-- The padded lengths do not wrap, or the stream ends before that matters. -/
theorem setup_proper_iff (r : List UInt8) :
    ProperSetup r ↔ ∀ bo, setupOrder r = some bo → 12 + authLen bo r ≤ r.length →
      pad4 (bo.uint r 6 2) + pad4 (bo.uint r 8 2) < 2 ^ 16 := by
  constructor
  · rintro ⟨hcrash, hok⟩ bo hbo hlen
    have hread := readConnectionSetup_of_order (by omega) hbo
    obtain hs | ⟨setup, hs, rfl⟩ := afterHeader_of_le hlen
    · exact absurd (hread.trans hs) hcrash
    -- What was taken is below `2 ^ 16`, so what was announced is.
    · obtain ⟨hroom, hrest, -⟩ := hok setup (hread.trans hs)
      have htaken := congrArg length hrest
      have hlt : authLen setup.byteOrder r < 2 ^ 16 := Nat.mod_lt _ (by decide)
      simp only [ConnectionSetup.rest, length_drop] at htaken
      omega
  · intro hfits
    by_cases h : ¬ 12 ≤ r.length ∨ setupOrder r = none
    · obtain ⟨e, he, hread⟩ := readConnectionSetup_of_none h
      rw [ProperSetup, hread]
      exact ⟨fun hcrash => he (Except.error.inj hcrash), nofun⟩
    obtain ⟨h12, hsome⟩ := not_or.mp h
    obtain ⟨bo, hbo⟩ := Option.ne_none_iff_exists'.mp hsome
    rw [ProperSetup, readConnectionSetup_of_order (not_not.mp h12) hbo]
    rcases lt_or_ge r.length (12 + authLen bo r) with hshort | hlen
    · rw [afterHeader_of_short (not_not.mp h12) hshort]
      exact ⟨nofun, nofun⟩
    have hlt := hfits bo hbo hlen
    rw [afterHeader_of_lt hlen hlt]
    refine ⟨nofun, fun setup hsetup => ?_⟩
    cases hsetup
    dsimp only
    have htotal := authLen_of_lt hlt
    have hnle := le_pad4 (bo.uint r 6 2)
    have hdle := le_pad4 (bo.uint r 8 2)
    exact ⟨by omega, by rw [ConnectionSetup.rest, htotal, ← add_assoc], rfl,
      length_bytesAt (by omega), rfl, length_bytesAt (by omega)⟩

/-- A name of `65533` bytes is padded to nothing, and is past the buffer. -/
theorem setup_crashes :
    readConnectionSetup [0x6c, 0, 11, 0, 0, 0, 0xfd, 0xff, 4, 0, 0, 0, 1, 2, 3, 4] =
      .error .crash := by
  decide

end WeaverSSH.X11
