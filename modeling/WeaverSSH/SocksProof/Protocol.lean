import WeaverSSH.AuthProof.Proof

/-!
# The private SOCKS authentication: lifetimes and replay

The statements a SOCKS client signs carry a nonce and a window of validity (`validateTime`).
`checkReplay` presents a nonce to the server's cache, which, unlike that of grants, refuses what has
expired.
-/

namespace WeaverSSH.SocksProof

/-- The errors of the package. -/
inductive ProofErr where
  | invalidProof
  | expired
  | replay
  | unauthorized
  | invalidSignature
deriving DecidableEq, Repr

abbrev Cache := ReplayCache Text

/-- `ReplayCache.Check`; a cache that is not there refuses nothing. -/
def checkReplay (cache : Option Cache) (nonce : Text) (expiry : ℤ) (now : Time) :
    Option Cache × Except ProofErr Unit :=
  match cache with
  | none => (none, .ok ())
  | some c =>
    let nonce := trimSpace nonce
    if nonce = [] || expiry ≤ unix now then (some c, .error .invalidProof)
    else
      let (c, stored) := c.check nonce expiry (unix now)
      (some c, if stored then .ok () else .error .replay)

def validateTime (issued expires : ℤ) (maxTTL : Duration) (now clock : Time) :
    Except ProofErr Unit := do
  let now := AuthProof.nowOr now clock
  require (0 < issued && issued < expires && issued ≤ unix now && unix now < expires) .expired
  require (!(0 < maxTTL && maxTTL < seconds (int64 (expires - issued)))) .invalidProof

end WeaverSSH.SocksProof
