import WeaverSSH.Evidence.Wire
import WeaverSSH.Framework.Sha256

/-!
# A witnessed head determines the ledger

The head that a witness keeps of a ledger is the digest of its last statement, which holds the
digest of the one before, so it determines the statements back to the first
(`verifyStatements_determined`).
-/

namespace WeaverSSH.Evidence

open AuthProof List SHA256 SignedStatement

section

variable [Unicode] [SHA256] [Ed25519] {trust : TrustPolicy}

/-- A statement at the end of a ledger follows the digest of those before it, and its own is the one
the ledger ends with. -/
lemma verifyStatements_concat {stream digest : Text} {signed : SignedStatement}
    {statements : List SignedStatement} {index : ℕ} {previous : Text}
    (h : verifyStatements trust stream index previous (statements ++ [signed]) = .ok digest) :
    ∃ before, verifyStatements trust stream index previous statements = .ok before ∧
      signed.statement.previousSHA256 = before ∧ hex signed.statement.message = digest := by
  induction statements generalizing index previous with
  | nil =>
    simp only [nil_append, verifyStatements, checks_ok, Except.ok.injEq,
      Statement.sha256_eq_ok] at h
    obtain ⟨-, ⟨-, hprevious⟩, _, -, _, ⟨-, hhex⟩, rfl⟩ := h
    exact ⟨previous, rfl, hprevious, hhex⟩
  | cons first rest ih =>
    simp only [cons_append, verifyStatements, checks_ok] at h
    obtain ⟨hstream, hnumber, _, htrust, next, hnext, hrest⟩ := h
    obtain ⟨before, hbefore, hsigned⟩ := ih hrest
    refine ⟨before, ?_, hsigned⟩
    simp only [verifyStatements, checks_ok]
    exact ⟨hstream, hnumber, (), htrust, next, hnext, hbefore⟩

lemma verifyStatements_determined {messages : Set (List UInt8)} (hfree : CollisionFree messages)
    {trust' : TrustPolicy} {stream stream' : Text} {xs : List SignedStatement} :
    ∀ {ys : List SignedStatement} {digest : Text},
      (∀ s ∈ xs, s.statement.Legible ∧ s.statement.message ∈ messages) →
      (∀ s ∈ ys, s.statement.Legible ∧ s.statement.message ∈ messages) →
      verifyStatements trust stream 0 [] xs = .ok digest →
      verifyStatements trust' stream' 0 [] ys = .ok digest →
      xs.map statement = ys.map statement := by
  -- A ledger with a statement in it ends with a digest, which is not empty.
  have hne (m : List UInt8) : hex m ≠ [] := by
    intro hnil
    have hlen := length_hex m
    rw [hnil] at hlen
    cases hlen
  induction xs using reverseRecOn with
  | nil =>
    intro ys digest _ _ hx hy
    rcases eq_nil_or_concat' ys with rfl | ⟨ys, t, rfl⟩
    · rfl
    · obtain ⟨_, -, -, hhex⟩ := verifyStatements_concat hy
      rw [← Except.ok.inj hx] at hhex
      exact absurd hhex (hne _)
  | append_singleton xs s ih =>
    intro ys digest hxs hys hx hy
    obtain ⟨before, hbefore, hprevious, hhex⟩ := verifyStatements_concat hx
    rcases eq_nil_or_concat' ys with rfl | ⟨ys, t, rfl⟩
    · rw [← Except.ok.inj hy] at hhex
      exact absurd hhex (hne _)
    · obtain ⟨before', hbefore', hprevious', hhex'⟩ := verifyStatements_concat hy
      obtain ⟨hs, hmem⟩ := hxs s (mem_append_right _ mem_cons_self)
      obtain ⟨ht, hmem'⟩ := hys t (mem_append_right _ mem_cons_self)
      have heq : s.statement = t.statement :=
        Statement.eq_of_message_eq hs ht (hfree hmem hmem' (hhex.trans hhex'.symm))
      have hdigest : before' = before := by rw [← hprevious, ← hprevious', heq]
      rw [hdigest] at hbefore'
      rw [map_append, map_append, map_singleton, map_singleton, heq,
        ih (fun x hx => hxs x (mem_append_left _ hx))
          (fun y hy => hys y (mem_append_left _ hy)) hbefore hbefore']

lemma verifyLedger_ok {statements : List SignedStatement} {stream : Text}
    {head : Head} {report : VerificationReport}
    (h : verifyLedger statements trust ⟨stream, some head⟩ = .ok report) :
    ∃ expected, verifyStatements trust expected 0 [] statements = .ok head.statementSHA256 := by
  simp only [verifyLedger, checks_ok, Option.all_some] at h
  obtain ⟨-, digest, hdigest, rfl, -⟩ := h
  exact ⟨_, hdigest⟩

/-- **A ledger cannot be altered behind its witnessed head**: two lists of signed statements that
are verified against the same stream and head have the same statements, in the same order. -/
theorem ledger_tamper_evident {xs ys : List SignedStatement} {trust trust' : TrustPolicy}
    {stream : Text} {head : Head} {report report' : VerificationReport}
    (hfree : CollisionFree {m | ∃ s ∈ xs ++ ys, s.statement.message = m})
    (hlegible : ∀ s ∈ xs ++ ys, s.statement.Legible)
    (hx : verifyLedger xs trust ⟨stream, some head⟩ = .ok report)
    (hy : verifyLedger ys trust' ⟨stream, some head⟩ = .ok report') :
    xs.map statement = ys.map statement := by
  obtain ⟨_, hx⟩ := verifyLedger_ok hx
  obtain ⟨_, hy⟩ := verifyLedger_ok hy
  have hmem (s : SignedStatement) (hs : s ∈ xs ++ ys) : s.statement.Legible ∧
      s.statement.message ∈ {m | ∃ s ∈ xs ++ ys, s.statement.message = m} :=
    ⟨hlegible s hs, s, hs, rfl⟩
  exact verifyStatements_determined hfree (fun s hs => hmem s (mem_append_left _ hs))
    (fun s hs => hmem s (mem_append_right _ hs)) hx hy

end

section Sample

attribute [local instance] asciiCase sha256 checksumScheme

def sampleKey : List UInt8 := replicate 32 7

/-- The statement of a stream with a number, after one with a digest. -/
def statementOf (sequence : UInt64) (previous : Text) : Statement :=
  ⟨evidenceVersion, "s", sequence, previous, replicate 64 (.char '0'), 1, 1,
    keyID sampleKey, "n"⟩

/-- A statement that is signed with that key, with blanks around the signature. -/
def signedOf (s : Statement) (blanks : Text) : SignedStatement :=
  ⟨s, algorithmEd25519, Base64.encode sampleKey,
    blanks ++ Base64.encode (checksum sampleKey s.message)⟩

/-- A ledger of two statements, with blanks around their signatures. -/
def ledgerOf (blanks : Text) : List SignedStatement :=
  let first := statementOf 1 []
  [signedOf first blanks, signedOf (statementOf 2 (hex first.message)) blanks]

/-- Two copies of a ledger that differ in the blanks around their signatures. -/
theorem ledger_tamper_evident_blanks :
    (ledgerOf []).map statement = (ledgerOf " ").map statement := by
  set first := statementOf 1 [] with hfirst
  set second := statementOf 2 (hex first.message) with hsecond
  have hmessages : ∀ s ∈ ledgerOf [] ++ ledgerOf " ",
      s.statement = first ∨ s.statement = second := by
    intro s hs
    simp only [ledgerOf, cons_append, nil_append, mem_cons, not_mem_nil, or_false] at hs
    rcases hs with rfl | rfl | rfl | rfl
    · exact .inl rfl
    · exact .inr rfl
    · exact .inl rfl
    · exact .inr rfl
  have hcomputed : hex first.message ≠ hex second.message ∧
      first.message ≠ second.message := by
    decide +kernel
  -- Both copies are verified in one evaluation, which computes their digests once.
  have hverified : ∀ blanks ∈ [[], text " "],
      verifyLedger (ledgerOf blanks) (TrustPolicy.only sampleKey rfl)
        ⟨"s", some ⟨"s", 2, hex second.message⟩⟩ =
      .ok ⟨"s", 2, ⟨"s", 2, hex second.message⟩, true, true⟩ := by
    decide +kernel
  refine ledger_tamper_evident ?_ ?_ (hverified [] mem_cons_self)
    (hverified _ (mem_cons_of_mem _ mem_cons_self))
  · rintro _ ⟨s, hs, rfl⟩ _ ⟨t, ht, rfl⟩ heq
    rcases hmessages s hs with hs | hs <;> rcases hmessages t ht with ht | ht
    · rw [hs, ht]
    · rw [hs, ht] at heq
      exact absurd heq hcomputed.1
    · rw [hs, ht] at heq
      exact absurd heq.symm hcomputed.1
    · rw [hs, ht]
  · intro s hs
    have hkey : validUTF8 (keyID sampleKey) = true := by decide +kernel
    rcases hmessages s hs with hs | hs
    · rw [hs]
      exact ⟨by decide, by decide, by decide, by decide, hkey, by decide⟩
    · rw [hs]
      exact ⟨by decide, by decide, valid_hex _, by decide, hkey, by decide⟩

end Sample

end WeaverSSH.Evidence
