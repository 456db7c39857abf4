import WeaverSSH.Framework.Transition
import WeaverSSH.X11.Server

/-!
# Which cookies an X11 server accepts

Beside the server goes a ledger of what was granted: an authorization enters it when it is
generated, and leaves it when a `RevokeAuthorization` names it. The server should accept the initial
cookie and those in the ledger that have not run out.

It does but in four cases. A `RevokeAuthorization` of four bytes is refused, of a longer one the
identifier is read a byte too late, and an identifier that comes round again replaces one that is
still good (`World.honoured`); and the initial cookie is compared as the text that was configured
with lower-case digits, so that one with an upper-case digit is never accepted.
-/

namespace WeaverSSH.X11

open Transition X11Server Option

/-- The authorization that a well-formed `RevokeAuthorization` names. -/
def Request.names (bo : ByteOrder) (req : Request) : Option ℕ :=
  if req.detail = 2 && req.data.length = 4 then some (bo.uint req.data 0 4) else none

/-- A server, and what has been granted and not been revoked. -/
structure World where
  server : X11Server
  granted : List Authorization
deriving DecidableEq, Repr

namespace World

def security (w : World) (c : ℕ) (r : List UInt8) : Option (ByteOrder × Request) := do
  let bo ← w.server.clients.lookup c
  let req ← readRequest bo r
  if req.opcode = 138 then some (bo, req) else none

/-- What is granted after something happened. -/
def grants (w : World) : Act → List Authorization
  | .request c r cookie now =>
    match w.security c r with
    | none => w.granted
    | some (bo, req) =>
      if req.generates then
        w.granted ++ (cookie.map fun k => w.server.generated bo req k now).toList
      else w.granted.filter fun a => req.names bo ≠ some a.id
  | _ => w.granted

def step (w : World) (a : Act) : Option World := (w.server.step a).map (⟨·, w.grants a⟩)

/-- Nothing is asked that the server does not do as the protocol has it: an identifier that is
given out is not in use, and one that is in use is not named, neither by a well-formed
`RevokeAuthorization` nor from the second byte of a longer one. -/
def honoured (w : World) : Act → Bool
  | .request c r _ _ =>
    match w.security c r with
    | none => true
    | some (bo, req) => w.server.authorizations.all fun a =>
      if req.generates then a.id ≠ w.server.nextAuthID
      else req.detail ≠ 2 ||
        (req.names bo ≠ some a.id && (req.data.length < 5 || bo.uint req.data 1 4 ≠ a.id))
  | _ => true

/-- What a client presents is the initial cookie, or one that was granted and has not run out. -/
def Accepts (w : World) (setup : ConnectionSetup) (now : Time) : Prop :=
  setup.authProtoName = bytes "MIT-MAGIC-COOKIE-1" ∧
    (hexDecode w.server.validCookie = some setup.authProtoData ∨
      ∃ a ∈ w.granted, a.cookie = setup.authProtoData ∧
        (a.timeout = 0 ∨ now ≤ a.createdAt + a.timeout * second))

/-! ## The table is the ledger -/

variable {w w' : World}

section

variable (h : w.server.authorizations = w.granted)
include h

lemma validateAuth_iff (hlower : ∀ r ∈ w.server.validCookie, r ∉ text "ABCDEF")
    (setup : ConnectionSetup) (now : Time) :
    w.server.validateAuth setup now = true ↔ w.Accepts setup now := by
  simp only [validateAuth, Accepts, h, checks_ok, Bool.or_eq_true, List.any_eq_true,
    hexDecode_iff_toHex hlower, toHex_injective.eq_iff, eq_comm (a := setup.authProtoData),
    Authorization.current]

/-- A request of the extension that is honoured does to the table what it does to the ledger,
whether it is handled or refused. -/
lemma handled_granted {c : ℕ} {r : List UInt8} {cookie : Option (List UInt8)} {now : Time}
    {bo : ByteOrder} {req : Request}
    (hok : w.honoured (.request c r cookie now) = true) (hreq : w.security c r = some (bo, req)) :
    ((w.server.handleSecurityRequest bo req cookie now).getD (w.server.drop c)).authorizations =
      w.grants (.request c r cookie now) := by
  simp only [honoured, hreq, List.all_eq_true] at hok
  simp only [grants, hreq, handleSecurityRequest]
  by_cases hgen : req.generates = true
  · have hfree : w.server.authorizations.filter (·.id ≠ w.server.nextAuthID) = w.granted := by
      rw [← h]
      exact List.filter_eq_self.mpr fun a ha => by simpa [hgen] using hok a ha
    cases cookie with
    | none => simpa [hgen, drop] using h
    | some k => simpa [hgen] using hfree
  · have hfree : req.detail = 2 → ∀ a ∈ w.granted, req.names bo ≠ some a.id ∧
        (req.data.length < 5 ∨ bo.uint req.data 1 4 ≠ a.id) := by
      intro hrevoke a ha
      simpa [hgen, hrevoke] using hok a (h ▸ ha)
    have hkept : w.granted.filter (fun a => req.names bo ≠ some a.id) = w.granted := by
      refine List.filter_eq_self.mpr fun a ha => decide_eq_true ?_
      by_cases hrevoke : req.detail = 2
      · exact (hfree hrevoke a ha).1
      · simp [Request.names, hrevoke]
    simp only [hgen, hkept, Bool.false_eq_true, if_false]
    split
    · rename_i hrevoke
      split
      · exact h
      · refine (List.filter_eq_self.mpr fun a ha => decide_eq_true ?_).trans h
        exact ((hfree hrevoke a (h ▸ ha)).2.resolve_left ‹_›).symm
    · exact h

lemma step_granted {a : Act} (hok : w.honoured a = true) (hstep : w.step a = some w') :
    w'.server.authorizations = w'.granted := by
  obtain ⟨s, hs, rfl⟩ := map_eq_some_iff.mp hstep
  cases a with
  | connect c r now =>
    simp only [X11Server.step] at hs
    split at hs
    · cases hs
    · obtain rfl := some.inj hs
      exact h
    · obtain rfl := some.inj hs
      split <;> exact h
  | request c r cookie now =>
    obtain ⟨bo, hbo, hs⟩ := bind_eq_some_iff.mp hs
    obtain rfl := some.inj hs
    cases hread : readRequest bo r with
    | none => simpa [grants, security, hbo, hread, drop] using h
    | some req =>
      by_cases hop : req.opcode = 138
      · simpa [hop] using handled_granted h hok (show w.security c r = some (bo, req) by
          simp [security, hbo, hread, hop])
      · simpa [grants, security, hbo, hread, hop] using h
  | disconnect c =>
    obtain rfl := some.inj hs
    exact h

end

lemma step_validCookie {a : Act} (hstep : w.step a = some w') :
    w'.server.validCookie = w.server.validCookie := by
  obtain ⟨s, hs, rfl⟩ := map_eq_some_iff.mp hstep
  cases a with
  | connect c r now =>
    simp only [X11Server.step] at hs
    split at hs
    · cases hs
    · obtain rfl := some.inj hs
      rfl
    · obtain rfl := some.inj hs
      split <;> rfl
  | request c r cookie now =>
    obtain ⟨bo, -, hs⟩ := bind_eq_some_iff.mp hs
    obtain rfl := some.inj hs
    cases readRequest bo r with
    | none => rfl
    | some req =>
      change ((if req.opcode = 138 then w.server.handleSecurityRequest bo req cookie now
        else some w.server).getD (w.server.drop c)).validCookie = w.server.validCookie
      unfold handleSecurityRequest
      split
      · split
        · cases cookie <;> rfl
        · split
          · split <;> rfl
          · rfl
      · rfl
  | disconnect c =>
    obtain rfl := some.inj hs
    rfl

end World

/-- **Which cookies authenticate.** In every run whose requests are honoured, of a server that was
given its cookie without upper-case digits, a cookie is accepted at a time exactly when it is the
initial one, or was granted, has not run out and was not revoked. -/
theorem authorization_lifecycle (authCookie : Text)
    (hlower : ∀ r ∈ authCookie, r ∉ text "ABCDEF") (w : World)
    (h : Reachable World.step (fun w a => w.honoured a = true) ⟨.new authCookie, []⟩ w)
    (setup : ConnectionSetup) (now : Time) :
    w.server.validateAuth setup now = true ↔ w.Accepts setup now := by
  have htable : w.server.authorizations = w.granted :=
    h.invariant (P := fun w => w.server.authorizations = w.granted) rfl
      fun _ _ _ h hok hs => World.step_granted h hok hs
  have hcookie : w.server.validCookie = authCookie :=
    h.invariant (P := fun w => w.server.validCookie = authCookie) rfl
      fun _ _ _ h _ hs => (World.step_validCookie hs).trans h
  exact World.validateAuth_iff htable (hcookie ▸ hlower) setup now

/-! ## A server with the cookie `0a` -/

/-- The setup of a client with a cookie of one byte. -/
def presents (cookie : UInt8) : ConnectionSetup :=
  ⟨.littleEndian, bytes "MIT-MAGIC-COOKIE-1", [cookie]⟩

/-- A client connects with the cookie and is granted another, for a minute. -/
def asked : List Act :=
  [.connect 7 ([0x6c, 0, 11, 0, 0, 0, 18, 0, 1, 0, 0, 0] ++ bytes "MIT-MAGIC-COOKIE-1" ++
      [0, 0, 10, 0, 0, 0]) 0, .request 7 [138, 1, 3, 0, 1, 0, 0, 0, 60, 0, 0, 0] (some [9]) 0]

theorem authorization_lifecycle_asked : ∃ w : World,
    w.server.validateAuth (presents 9) (60 * second) = true ∧
    w.server.validateAuth (presents 9) (61 * second) = false ∧
    w.Accepts (presents 9) (60 * second) ∧ ¬ w.Accepts (presents 9) (61 * second) := by
  have hends : ends World.step World.honoured (.ok ⟨.new "0a", []⟩ : Except Unit World) asked
      (fun w => w.server.validateAuth (presents 9) (60 * second) &&
        !w.server.validateAuth (presents 9) (61 * second)) = true := by
    decide +kernel
  obtain ⟨_, w, hstart, hrun, hend⟩ := exists_of_ends hends
  obtain rfl := Except.ok.inj hstart
  simp only [Bool.and_eq_true, Bool.not_eq_true'] at hend
  have hiff := authorization_lifecycle "0a" (by decide) w hrun (presents 9)
  exact ⟨w, hend.1, hend.2, (hiff _).1 hend.1, fun h => by simp [(hiff _).2 h] at hend⟩

/-- The client revokes what it was granted, by its identifier 1: nothing is granted any more, and
the cookie is accepted. And a server that was given the cookie `0A` does not accept it. -/
theorem revoked_cookie_accepted : (∃ w : World,
    run World.step ⟨.new "0a", []⟩ (asked ++ [.request 7 [138, 2, 2, 0, 1, 0, 0, 0] none 1]) =
        some w ∧
      w.server.validateAuth (presents 9) 2 = true ∧ ¬ w.Accepts (presents 9) 2) ∧
    (World.mk (.new "0A") []).Accepts (presents 10) 0 ∧
      (X11Server.new "0A").validateAuth (presents 10) 0 = false := by
  have hrun : (run World.step ⟨.new "0a", []⟩
      (asked ++ [.request 7 [138, 2, 2, 0, 1, 0, 0, 0] none 1])).any (fun w =>
        w.server.validateAuth (presents 9) 2 && w.granted = [] &&
          w.server.validCookie = text "0a") = true := by
    decide +kernel
  obtain ⟨w, hw, hend⟩ := (Option.any_eq_true _ _).mp hrun
  simp only [checks_ok] at hend
  obtain ⟨⟨hvalid, hnone⟩, hcookie⟩ := hend
  refine ⟨⟨w, hw, hvalid, ?_⟩, ⟨rfl, .inl (by decide)⟩, by decide⟩
  rintro ⟨-, hinitial | ⟨a, ha, -⟩⟩
  · rw [hcookie] at hinitial
    exact absurd hinitial (by decide)
  · simp [hnone] at ha

end WeaverSSH.X11
