import WeaverSSH.Evidence.JournalSpec
import WeaverSSH.Framework.Transition

/-!
# One head for each number

A journal numbers its statements, and a witness that sees two with one number reports equivocation.
A head is given to the provider before its record is written, so an append that fails in between
leaves the number to the next one, which has another digest (`retry_equivocates`). The invariant of
runs without such appends is `Store.Numbered`.
-/

namespace WeaverSSH.Evidence

open AuthProof Transition List Witness Journal Option Statement

section

variable [Unicode] [SHA256] [Ed25519]

/-- What an append meets with that completes once its head is given to the provider. -/
structure Attempt.Completes (j : Journal) (a : Attempt) (head : Head) : Prop where
  streamID : trimSpace j.streamID = j.streamID
  event : a.event.Trimmed
  receipt : ∃ receipt, a.receipt = some receipt ∧ j.accepts head receipt = true
  written : a.written = none
  synced : a.synced = true

/-- A witness that is shown some statements; one that it refuses leaves it as it was. -/
def Witness.watch (trust : TrustPolicy) (w : Witness) (observed : List SignedStatement) : Witness :=
  observed.foldl
    (fun w signed => match w.observe signed trust with
      | .ok (w, _) => w
      | .error _ => w) w

/-- The head that was given is that of the signed statement. -/
structure Prepared.Bound (p : Prepared) : Prop where
  sequence : p.head.sequence = p.signed.statement.sequence
  digest : p.head.statementSHA256 = SHA256.hex p.signed.statement.message

variable {j : Journal} {records : List AgentEvidenceRecord} {a : Attempt} {p : Prepared}

omit [Ed25519] in
lemma Prepared.Follows.bound (h : p.Follows j records a) : p.Bound := by
  obtain ⟨_, hstatement⟩ := h.statement
  constructor
  · rw [h.head, congrArg sequence hstatement]
  · rw [h.head]

/-! ## The numbers of a run -/

/-- The heads that were given are numbered from one on, and there is a line for each. -/
structure Store.Numbered (s : Store) : Prop where
  bound : ∀ p ∈ s.handed, p.Bound
  numbered : s.handed.map (fun p => p.head.sequence) =
    (range s.log.length).map fun i => UInt64.ofNat (i + 1)
  short : s.log.length < 2 ^ 64
  file : s.file = unlines (s.log.map fun entry => entry.1.line)
  records : ∀ records, s.records = some records → records.length = s.log.length

omit [Unicode] [Ed25519] in
lemma Store.numbered_empty : Store.Numbered {} where
  bound := fun _ h => nomatch h
  numbered := rfl
  short := by decide
  file := rfl
  records := fun _ h => nomatch h

variable {s : Store}

lemma Store.Numbered.commit (h : s.Numbered) (hsigns : j.signer.Signs)
    (hrecords : s.records = some records) (hp : p.Follows j records a)
    (hcompletes : a.Completes j p.head) :
    (Store.commit j { s with handed := s.handed ++ [p] } records p a).2.Numbered := by
  obtain ⟨receipt, hreceipt, haccepts⟩ := hcompletes.receipt
  have hverified := verifyRecord_eq_ok.mpr
    (hp.verified hsigns hcompletes.streamID hcompletes.event haccepts)
  have hlength := h.records records hrecords
  have hshort := hp.length_lt (hlength ▸ h.short)
  simp only [Store.commit, hreceipt, hverified, Store.write, hcompletes.written, hcompletes.synced,
    if_true]
  refine ⟨?_, ?_, ?_, ?_, ?_⟩
  · intro q hq
    rcases mem_append.mp hq with hq | hq
    · exact h.bound q hq
    · rw [mem_singleton.mp hq]
      exact hp.bound
  · rw [map_append, h.numbered, length_append, length_singleton, range_succ,
      map_append, map_singleton, map_singleton, hp.head, hlength]
  · rw [length_append, length_singleton, ← hlength]
    exact hshort
  · rw [h.file, map_append, map_singleton, unlines_concat]
  · intro _ hopen
    rw [← some.inj hopen, length_append, length_append, hlength]
    rfl

lemma Store.Numbered.reopen (h : s.Numbered) : (s.step j .reopen).Numbered := by
  simp only [Store.step]
  cases hload : j.load s.file with
  | error e => exact ⟨h.bound, h.numbered, h.short, h.file, fun _ hnone => nomatch hnone⟩
  | ok records =>
    refine ⟨h.bound, h.numbered, h.short, h.file, fun _ hopen => ?_⟩
    have hlines : lines s.file = s.log.map fun entry => entry.1.line := by
      rw [h.file]
      apply lines_unlines
      intro line hline
      obtain ⟨entry, -, rfl⟩ := mem_map.mp hline
      exact newline_notMem_line entry.1
    rw [← some.inj hopen, length_loadLines (load_ok hload), hlines,
      length_map, length_nil, zero_add]

/-- A step in which an append that gives its head to the provider completes. -/
def JournalOp.Completes (j : Journal) (s : Store) (op : JournalOp) : Prop :=
  ∀ a, op = .append a → ∀ records p, s.records = some records → j.prepare records a = .ok p →
    a.Completes j p.head

/-- Every append that gives its head to the provider completes. -/
def Journal.Completes (j : Journal) (ops : List JournalOp) : Prop :=
  ∀ before op after, ops = before ++ op :: after → op.Completes j (j.run before)

lemma Journal.numbered_run (hsigns : j.signer.Signs) {ops : List JournalOp}
    (h : j.Completes ops) : (j.run ops).Numbered := by
  refine @foldl_invariant _ _ (JournalOp.Completes j) _ _ _ _ h Store.numbered_empty ?_
  intro s op hs hop
  cases op with
  | append a =>
    show (s.append j a).2.Numbered
    rcases s.append_cases j a with ⟨err, happend⟩ | ⟨records, p, hrecords, hp, happend⟩
    · rw [happend]
      exact hs
    · rw [happend]
      exact hs.commit hsigns hrecords (prepare_ok hp) (hop a rfl records p hrecords hp)
  | close => exact ⟨hs.bound, hs.numbered, hs.short, hs.file, fun _ hnone => nomatch hnone⟩
  | reopen => exact hs.reopen

omit [Unicode] [Ed25519] in
lemma Store.Numbered.eq_of_sequence (h : s.Numbered) {p q : Prepared}
    (hp : p ∈ s.handed) (hq : q ∈ s.handed) (heq : p.head.sequence = q.head.sequence) : p = q := by
  have hnodup : (s.handed.map fun p => p.head.sequence).Nodup := by
    rw [h.numbered]
    refine List.Nodup.map_on ?_ nodup_range
    intro i hi k hk hik
    have hshort := h.short
    rw [mem_range] at hi hk
    have hnat := congrArg UInt64.toNat hik
    rw [UInt64.toNat_ofNat', UInt64.toNat_ofNat', Nat.mod_eq_of_lt (by omega),
      Nat.mod_eq_of_lt (by omega)] at hnat
    omega
  exact inj_on_of_nodup_map hnodup hp hq heq

/-! ## The witness -/

variable {trust : TrustPolicy}

/-- A statement with a number in a stream that is verified. -/
def TrustPolicy.verifies (trust : TrustPolicy) (stream : Text) (sequence : UInt64)
    (s : SignedStatement) : Bool :=
  stream = s.statement.streamID && sequence = s.statement.sequence && (trust.verify s).isOk

lemma TrustPolicy.sha256_of_verify {signed : SignedStatement} (h : trust.verify signed = .ok ()) :
    signed.statement.sha256 = .ok (SHA256.hex signed.statement.message) := by
  simp only [TrustPolicy.verify, checks_ok] at h
  obtain ⟨-, _, -, _, -, -, _, -, -, _, hvalid, -⟩ := h
  exact sha256_eq_ok.mpr ⟨hvalid, rfl⟩

/-- What a witness has seen of a number is the first statement with it that was verified. -/
lemma Witness.seen_watch_eq (observed : List SignedStatement) (stream : Text) (sequence : UInt64) :
    (newWitness.watch trust observed).seen stream sequence =
      (observed.find? (trust.verifies stream sequence)).map
        fun s => SHA256.hex s.statement.message := by
  induction observed using reverseRecOn with
  | nil => rfl
  | append_singleton observed signed ih =>
    rw [watch, foldl_append, foldl_cons, foldl_nil, ← watch, find?_append, Option.map_or, ← ih]
    generalize newWitness.watch trust observed = w
    rw [find?_singleton]
    cases hverify : trust.verify signed with
    | error =>
      rw [observe, hverify, error_bind]
      simp [TrustPolicy.verifies, hverify, Except.isOk, Except.toBool]
    | ok =>
      have hverifies : trust.verifies stream sequence signed = true ↔
          stream = signed.statement.streamID ∧ sequence = signed.statement.sequence := by
        simp [TrustPolicy.verifies, hverify, Except.isOk, Except.toBool]
      simp only [observe, hverify, TrustPolicy.sha256_of_verify hverify, ok_bind, hverifies]
      cases hall : (w.seen signed.statement.streamID signed.statement.sequence).all
          (· = SHA256.hex signed.statement.message) <;>
        cases hseen : w.seen signed.statement.streamID signed.statement.sequence <;>
        split_ifs with hsame <;> simp_all [require, ok_bind, error_bind, pure, Except.pure]

lemma Witness.seen_watch {observed : List SignedStatement} {stream digest : Text}
    {sequence : UInt64} (h : (newWitness.watch trust observed).seen stream sequence = some digest) :
    ∃ signed ∈ observed, signed.statement.sequence = sequence ∧
      SHA256.hex signed.statement.message = digest := by
  rw [seen_watch_eq, map_eq_some_iff] at h
  obtain ⟨signed, hfind, rfl⟩ := h
  have hverifies := List.find?_some hfind
  simp only [TrustPolicy.verifies, Bool.and_eq_true, decide_eq_true_eq] at hverifies
  exact ⟨signed, mem_of_find?_eq_some hfind, hverifies.1.2.symm, rfl⟩

omit [SHA256] [Ed25519] in
lemma Statement.validate_ne_equivocation (s : Statement) : s.validate ≠ .error .equivocation := by
  simp [validate, bind_eq_error, require_eq_error]

lemma TrustPolicy.verify_ne_equivocation (trust : TrustPolicy) (signed : SignedStatement) :
    trust.verify signed ≠ .error .equivocation := by
  simp [TrustPolicy.verify, bind_eq_error, require_eq_error, elim_eq_error,
    validate_ne_equivocation]

lemma Witness.seen_of_equivocation {w : Witness} {signed : SignedStatement}
    (h : w.observe signed trust = .error .equivocation) :
    ∃ digest, w.seen signed.statement.streamID signed.statement.sequence = some digest ∧
      digest ≠ SHA256.hex signed.statement.message := by
  simp only [observe, bind_eq_error, require_eq_error, sha256_eq_ok,
    TrustPolicy.verify_ne_equivocation, false_or] at h
  obtain ⟨_, -, hdigest | ⟨_, ⟨-, rfl⟩, ⟨hseen, -⟩ | ⟨_, -, hpure⟩⟩⟩ := h
  · simp only [Statement.sha256, bind_eq_error, Statement.validate_ne_equivocation, pure_ne_error,
      and_false, exists_false, or_false] at hdigest
  · cases hfound : w.seen signed.statement.streamID signed.statement.sequence with
    | none =>
      rw [hfound] at hseen
      cases hseen
    | some digest =>
      rw [hfound, all_some, decide_eq_false_iff_not] at hseen
      exact ⟨digest, rfl, hseen⟩
  · exact absurd hpure pure_ne_error

/-- **A witness reports equivocation exactly where there is one**: a statement that is verified is
refused as equivocal exactly if the first verified one with its stream and number has another
digest. -/
theorem equivocation_iff (observed : List SignedStatement) (signed : SignedStatement) :
    (newWitness.watch trust observed).observe signed trust = .error .equivocation ↔
      trust.verify signed = .ok () ∧
      ∃ first, observed.find? (trust.verifies signed.statement.streamID signed.statement.sequence) =
        some first ∧ SHA256.hex first.statement.message ≠ SHA256.hex signed.statement.message := by
  have hseen := @seen_watch_eq _ _ _ trust observed signed.statement.streamID
      signed.statement.sequence
  constructor
  · intro h
    obtain ⟨digest, hdigest, hother⟩ := Witness.seen_of_equivocation h
    rw [hseen, Option.map_eq_some_iff] at hdigest
    obtain ⟨first, hfirst, rfl⟩ := hdigest
    refine ⟨?_, first, hfirst, hother⟩
    cases hverify : trust.verify signed with
    | ok => rfl
    | error e =>
      rw [observe, hverify, error_bind, Except.error.injEq] at h
      exact absurd (h ▸ hverify) (TrustPolicy.verify_ne_equivocation trust signed)
  · rintro ⟨hverify, first, hfirst, hother⟩
    simp [observe, hverify, TrustPolicy.sha256_of_verify hverify, ok_bind, hseen, hfirst,
      require, hother]

/-- **A journal does not equivocate** in a run in which every append that gives its head to the
provider completes: heads with the same stream and number have the same digest, and a witness that
is shown any of the statements, in any order, reports no equivocation. -/
theorem heads_not_equivocal {j : Journal} {ops : List JournalOp} (hsigns : j.signer.Signs)
    (hcompletes : j.Completes ops) :
    (∀ p ∈ (j.run ops).handed, ∀ q ∈ (j.run ops).handed, p.head.streamID = q.head.streamID →
      p.head.sequence = q.head.sequence → p.head.statementSHA256 = q.head.statementSHA256) ∧
    ∀ (trust : TrustPolicy) (observed : List SignedStatement) (signed : SignedStatement),
      (∀ s ∈ signed :: observed, ∃ p ∈ (j.run ops).handed, p.signed = s) →
        (newWitness.watch trust observed).observe signed trust ≠ .error .equivocation := by
  have hnumbered := numbered_run hsigns hcompletes
  constructor
  · intro p hp q hq _ hsequence
    rw [hnumbered.eq_of_sequence hp hq hsequence]
  · intro trust observed signed hshown hequivocation
    obtain ⟨digest, hseen, hother⟩ := Witness.seen_of_equivocation hequivocation
    obtain ⟨before, hbefore, hsequence, rfl⟩ := Witness.seen_watch hseen
    obtain ⟨p, hp, rfl⟩ := hshown signed mem_cons_self
    obtain ⟨q, hq, rfl⟩ := hshown before (mem_cons_of_mem _ hbefore)
    have heq : q = p := by
      apply hnumbered.eq_of_sequence hq hp
      rw [(hnumbered.bound q hq).sequence, (hnumbered.bound p hp).sequence, hsequence]
    exact hother (by rw [heq])

end

section Sample

attribute [local instance] asciiCase sha256 checksumScheme

def answeredNext : Attempt :=
  let digest := text "2636914f1bf1f79605e5119b02af31417a424470244e01a4c7267eda9fbce66c"
  { unanswered (text "f") 0 with
    receipt := some { firstReceipt with
      statement := ⟨anchorVersion, text "agent/p", 2, digest⟩, proofSHA256 := digest } }

lemma sampleJournal_completes {s : Store} {a : Attempt} (hevent : a.event.Trimmed)
    (hdisk : a.written = none ∧ a.synced = true)
    (h : (s.records.all fun records => (sampleJournal.prepare records a).toOption.all fun p =>
      a.receipt.any (sampleJournal.accepts p.head)) = true) :
    (JournalOp.append a).Completes sampleJournal s := by
  rintro _ ⟨⟩ records p hrecords hp
  rw [hrecords, all_some, hp, Except.toOption, all_some, Option.any_eq_true] at h
  exact ⟨by decide, hevent, h, hdisk.1, hdisk.2⟩

/-- Two events are appended, and the journal is opened again. -/
theorem heads_not_equivocal_reopened :
    let ops := [.reopen, .append answered, .append answeredNext, .close, .reopen]
    ∀ p ∈ (sampleJournal.run ops).handed, ∀ q ∈ (sampleJournal.run ops).handed,
      p.head.streamID = q.head.streamID → p.head.sequence = q.head.sequence →
        p.head.statementSHA256 = q.head.statementSHA256 := by
  intro ops
  refine (@heads_not_equivocal _ _ _ sampleJournal ops sampleJournal_signs ?_).1
  refine forall_split_cons.mpr ⟨nofun, forall_split_cons.mpr ⟨?_, forall_split_cons.mpr ⟨?_,
    forall_split_cons.mpr ⟨nofun, forall_split_cons.mpr ⟨nofun, forall_split_nil⟩⟩⟩⟩⟩
  all_goals
    exact sampleJournal_completes ⟨by decide, by decide, by decide⟩ ⟨rfl, rfl⟩ (by decide +kernel)

/-- The provider does not answer, the event is appended again, and a witness that sees both
statements reports equivocation. -/
theorem retry_equivocates :
    let s := sampleJournal.run
      [.reopen, .append (unanswered "e" 0), .append (unanswered "e" 1)]
    ∃ p ∈ s.handed, ∃ q ∈ s.handed, p.head.streamID = q.head.streamID ∧
      p.head.sequence = q.head.sequence ∧ p.head.statementSHA256 ≠ q.head.statementSHA256 ∧
      ((newWitness.watch sampleJournal.trust [p.signed]).observe q.signed sampleJournal.trust).map
        Prod.snd = .error .equivocation := by
  decide +kernel

end Sample

end WeaverSSH.Evidence
