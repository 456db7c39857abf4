import WeaverSSH.Evidence.JournalSpec
import WeaverSSH.Framework.Transition

/-!
# What a journal finds when it is reopened

A journal that is reopened is to hold the records that were returned. A write that fails in the
middle of a record leaves a file that is not read any more (`torn_write_not_recovered`); a record
that is on file and not in memory, since `Sync` failed, is followed by another one with its number;
and a record that is not UTF-8 or too long is not read as it was written. The invariant is
`Store.Sound`.
-/

namespace WeaverSSH.Evidence

open AuthProof Transition List Prepared Prod UInt64 Statement Journal

section

variable [Unicode] [SHA256] [Ed25519]

/-! ## Returned records -/

def JournalOp.returned (j : Journal) (s : Store) : JournalOp → List AgentEvidenceRecord
  | .append a => (s.append j a).1.toOption.toList
  | _ => []

def Journal.returned (j : Journal) (ops : List JournalOp) : List AgentEvidenceRecord :=
  (ops.foldl (fun (run : Store × List AgentEvidenceRecord) op =>
    (run.1.step j op, run.2 ++ op.returned j run.1)) ({}, [])).2

lemma Journal.run_concat (j : Journal) (ops : List JournalOp) (op : JournalOp) :
    j.run (ops ++ [op]) = (j.run ops).step j op := by
  rw [run, foldl_append]
  rfl

lemma Journal.returned_concat (j : Journal) (ops : List JournalOp) (op : JournalOp) :
    j.returned (ops ++ [op]) = j.returned ops ++ op.returned j (j.run ops) := by
  have hrun : ∀ ops : List JournalOp, (ops.foldl (fun (run : Store × List AgentEvidenceRecord) op =>
      (run.1.step j op, run.2 ++ op.returned j run.1)) ({}, [])).1 = j.run ops := by
    intro ops
    induction ops using reverseRecOn with
    | nil => rfl
    | append_singleton ops op ih =>
      rw [foldl_append, run_concat, ← ih]
      rfl
  rw [returned, foldl_append, ← hrun]
  rfl

lemma Store.returned_append (j : Journal) (s : Store) (a : Attempt) :
    ((s.append j a).2.log.filter (·.2)).map (fun entry => entry.1.clone) =
      (s.log.filter (·.2)).map (fun entry => entry.1.clone) ++
      (s.append j a).1.toOption.toList := by
  rcases s.append_cases j a with ⟨err, happend⟩ | ⟨records, p, -, -, happend⟩
  · rw [happend]
    exact (append_nil _).symm
  · rw [happend, Store.commit]
    cases a.receipt with
    | none => exact (append_nil _).symm
    | some receipt =>
      dsimp only
      cases j.verifyRecord (p.record a.event receipt) with
      | error e => exact (append_nil _).symm
      | ok _ =>
        dsimp only [Store.write]
        cases a.written with
        | some n =>
          dsimp only
          split_ifs
          · simp [Except.toOption]
          · exact (append_nil _).symm
        | none =>
          cases a.synced with
          | false | true => simp [Except.toOption]

lemma Journal.returned_eq (j : Journal) (ops : List JournalOp) :
    j.returned ops = ((j.run ops).log.filter (·.2)).map fun entry => entry.1.clone := by
  induction ops using reverseRecOn with
  | nil => rfl
  | append_singleton ops op ih =>
    rw [returned_concat, run_concat, ih]
    cases op with
    | append a => exact (Store.returned_append j _ a).symm
    | close => exact append_nil _
    | reopen =>
      simp only [Store.step, JournalOp.returned, append_nil]
      cases j.load (j.run ops).file with
      | error e | ok records => rfl

/-! ## Records that are read as they were written -/

omit [SHA256] [Ed25519] in
lemma Statement.valid_previousSHA256 {s : Statement} (h : s.validate = .ok ())
    (hnormal : ∃ t, s.previousSHA256 = toLower (trimSpace t)) :
    validUTF8 s.previousSHA256 = true := by
  simp only [validate, checks_ok] at h
  obtain ⟨-, -, hprevious⟩ := h
  by_cases hfirst : s.sequence = 1
  · rw [if_pos hfirst, decide_eq_true_eq] at hprevious
    obtain ⟨t, ht⟩ := hnormal
    rw [ht, trimSpace_toLower, trimSpace_trimSpace, ← ht] at hprevious
    rw [hprevious]
    rfl
  · rw [if_neg hfirst] at hprevious
    simp only [isSHA256, Bool.and_eq_true] at hprevious
    exact validUTF8_of_hexDecodes hprevious.2

variable {j : Journal} {records rs : List AgentEvidenceRecord} {a : Attempt} {p : Prepared}
  {receipt : AnchorReceipt}

omit [Ed25519] in
lemma Prepared.Follows.legible (h : p.Follows j records a) (hstream : validUTF8 j.streamID = true)
    (hevent : a.event.Legible) (hreceipt : receipt.Legible) :
    (p.record a.event receipt).Legible := by
  obtain ⟨nonce, hstatement⟩ := h.statement
  have hencode (b : List UInt8) : validUTF8 (Base64.encode b) = true :=
    Base64.valid_of_decode (Base64.decode_encode b)
  have hkey : validUTF8 j.keyID = true := by
    rw [Journal.keyID, keyID, validUTF8_append]
    exact ⟨by decide, SHA256.valid_hex _⟩
  refine ⟨show validUTF8 agentJournalVersion = true by decide, hevent, ?_, ?_, ?_, ?_, ?_, ?_, ?_,
    hreceipt⟩
  · rw [record, h.leaf]
    exact ⟨validUTF8_trimSpace hevent.id, validUTF8_trimSpace hevent.subject,
      validUTF8_trimSpace hevent.kind, SHA256.valid_hex _⟩
  · exact congrArg MerkleProof.siblings h.proof
  · have hprevious := valid_previousSHA256 h.statementValid
      ⟨_, congrArg previousSHA256 hstatement⟩
    show p.signed.statement.Legible
    rw [hstatement] at hprevious ⊢
    exact ⟨show validUTF8 evidenceVersion = true by decide, validUTF8_trimSpace hstream, hprevious,
      validUTF8_of_lowerHex (lowerHex_toHex _), hkey, validUTF8_trimSpace (hencode nonce)⟩
  · rw [record, h.signed]
    show validUTF8 algorithmEd25519 = true
    decide
  · rw [record, h.signed]
    exact hencode _
  · rw [record, h.signed]
    exact hencode _
  · rw [record, h.head]
    exact ⟨hstream, SHA256.valid_hex _⟩

omit [Ed25519] in
lemma Prepared.Follows.sized
    (h : p.Follows j records a) (hobserved : IsInt64 a.event.observedAtUnix)
    (receipt : AnchorReceipt) : (p.record a.event receipt).Sized := by
  obtain ⟨_, hstatement⟩ := h.statement
  refine ⟨hobserved, ?_, ?_, ?_, ?_, ?_⟩
  · rw [record, h.leaf]
    exact hobserved
  · rw [record, h.proof]
    show IsInt64 0
    decide
  · rw [record, h.proof]
    show IsInt64 1
    decide
  · rw [record, hstatement]
    show IsInt64 1
    decide
  · rw [record, hstatement]
    exact hobserved

/-- A record whose line is read as it was written. -/
structure AgentEvidenceRecord.Readable (r : AgentEvidenceRecord) : Prop where
  legible : r.Legible
  sized : r.Sized
  short : r.line.length < maxLine

lemma Journal.loadLines_ok :
    ∀ {n : ℕ} {before : List AgentEvidenceRecord}, (∀ r ∈ rs, r.Readable ∧ j.Verified r) →
      ((before ++ rs).map fun r => r.event.id).Nodup →
      j.loadLines n before (rs.map fun r => r.line) = .ok (before ++ rs) := by
  induction rs with
  | nil =>
    intro n before _ _
    rw [append_nil]
    rfl
  | cons r rs ih =>
    intro n before hrs hnodup
    obtain ⟨hreadable, hverified⟩ := hrs r mem_cons_self
    have hne : Json.print r.json ≠ [] := nofun
    have hfresh : ∀ other ∈ before, other.event.id ≠ r.event.id := by
      intro other hother heq
      rw [map_append, nodup_append] at hnodup
      exact hnodup.2.2 _ (mem_map_of_mem hother) _ (mem_map_of_mem mem_cons_self) heq
    have hrest := @ih (n + 1) (before ++ [r]) (fun s hs => hrs s (mem_cons_of_mem r hs))
      (by rwa [append_assoc, singleton_append])
    simp only [map_cons, Journal.loadLines, checks_ok, mapError_eq_ok, trimSpace_line,
      decodeRecord_line hreadable.legible hreadable.sized, elim_eq_ok, all_eq_true]
    refine ⟨hreadable.short, hne, r, rfl, hfresh, (), Journal.verifyRecord_eq_ok.mpr hverified, ?_⟩
    rw [hrest, append_assoc, singleton_append]

/-! ## Records that follow one another -/

omit [Unicode] [SHA256] [Ed25519] in
lemma lastDigest_concat (rs : List AgentEvidenceRecord) (r : AgentEvidenceRecord) :
    lastDigest (rs ++ [r]) = r.head.statementSHA256 := by
  rw [lastDigest, getLast?_concat]
  rfl

lemma verifyStatements_snoc {trust : TrustPolicy} {stream before : Text}
    {statements : List SignedStatement} {signed : SignedStatement}
    (hstream : signed.statement.streamID = stream)
    (hprevious : signed.statement.previousSHA256 = before) (htrust : trust.verify signed = .ok ())
    (hvalid : signed.statement.validate = .ok ()) : ∀ {index : ℕ} {previous : Text},
      signed.statement.sequence = ofNat (index + statements.length + 1) →
      verifyStatements trust stream index previous statements = .ok before →
      verifyStatements trust stream index previous (statements ++ [signed]) =
        .ok (SHA256.hex signed.statement.message) := by
  induction statements with
  | nil =>
    intro index previous hsequence h
    obtain rfl : previous = before := Except.ok.inj h
    simp only [nil_append, verifyStatements, checks_ok, sha256_eq_ok]
    exact ⟨hstream, ⟨hsequence, hprevious⟩, (), htrust, _, ⟨hvalid, rfl⟩, rfl⟩
  | cons first rest ih =>
    intro index previous hsequence h
    simp only [cons_append, verifyStatements, checks_ok] at h ⊢
    obtain ⟨hfirst, hnumber, _, hverify, next, hnext, hrest⟩ := h
    refine ⟨hfirst, hnumber, (), hverify, next, hnext, ih ?_ hrest⟩
    rw [hsequence, length_cons]
    congr 1
    omega

/-- Records that a journal reads from its file. -/
structure Journal.Ledger (j : Journal) (rs : List AgentEvidenceRecord) : Prop where
  readable : ∀ r ∈ rs, r.Readable
  verified : ∀ r ∈ rs, j.Verified r
  distinct : (rs.map fun r => r.event.id).Nodup
  stream : rs ≠ [] → trimSpace j.streamID = j.streamID
  chained : verifyStatements j.trust j.streamID 0 [] (rs.map fun r => r.statement) =
    .ok (lastDigest rs)
  numbered : rs.map (fun r => r.head.sequence) = (range rs.length).map fun i => ofNat (i + 1)
  short : rs.length < 2 ^ 64

lemma Journal.ledger_nil (j : Journal) : j.Ledger [] where
  readable := fun _ h => nomatch h
  verified := fun _ h => nomatch h
  distinct := nodup_nil
  stream := fun h => absurd rfl h
  chained := rfl
  numbered := rfl
  short := by decide

lemma Journal.Ledger.concat (h : j.Ledger rs) (hp : p.Follows j rs a)
    (hreadable : (p.record a.event receipt).Readable)
    (hverified : j.Verified (p.record a.event receipt)) :
    j.Ledger (rs ++ [p.record a.event receipt]) := by
  obtain ⟨_, hstatement⟩ := hp.statement
  have hsequence : p.signed.statement.sequence = ofNat (rs.length + 1) := by rw [hstatement]
  have hprevious : p.signed.statement.previousSHA256 = lastDigest rs := by
    rw [hstatement]
    show toLower (trimSpace (lastDigest rs)) = lastDigest rs
    rcases eq_nil_or_concat' rs with rfl | ⟨before, last, rfl⟩
    · rfl
    · have hlast := h.verified last (mem_append_right _ mem_cons_self)
      rw [lastDigest_concat, hlast.head]
      exact SHA256.normal_hex _
  have hshort : rs.length + 1 < 2 ^ 64 := hp.length_lt h.short
  have hstream : trimSpace j.streamID = j.streamID := by
    rw [← hverified.streamID]
    show trimSpace p.signed.statement.streamID = p.signed.statement.streamID
    rw [hstatement]
    exact trimSpace_trimSpace _
  refine ⟨?_, ?_, ?_, fun _ => hstream, ?_, ?_, ?_⟩
  · intro r hr
    rcases mem_append.mp hr with hr | hr
    · exact h.readable r hr
    · rwa [mem_singleton.mp hr]
  · intro r hr
    rcases mem_append.mp hr with hr | hr
    · exact h.verified r hr
    · rwa [mem_singleton.mp hr]
  · rw [map_append, nodup_append]
    refine ⟨h.distinct, nodup_singleton _, fun id hid other hother => ?_⟩
    obtain ⟨r, hr, rfl⟩ := mem_map.mp hid
    rw [map_singleton, mem_singleton] at hother
    rw [hother]
    exact hp.id r hr
  · rw [map_append, map_singleton, lastDigest_concat]
    refine (verifyStatements_snoc hverified.streamID hprevious hverified.signed hverified.statement
      ?_ h.chained).trans ?_
    · rw [length_map, zero_add]
      exact hsequence
    · rw [hverified.head]
  · rw [map_append, h.numbered, length_append, length_singleton, range_succ,
      map_append, map_singleton, map_singleton]
    show _ ++ [p.head.sequence] = _
    rw [hp.head]
  · rw [length_append, length_singleton]
    exact hshort

lemma Journal.Ledger.last_sequence {before : List AgentEvidenceRecord}
    {last : AgentEvidenceRecord} (h : j.Ledger (before ++ [last])) :
    last.head.sequence = ofNat (before ++ [last]).length := by
  have hnumber := congrArg getLast? h.numbered
  rw [map_append, map_singleton, getLast?_concat, length_append,
    length_singleton, range_succ, map_append, map_singleton, getLast?_concat,
    Option.some.injEq] at hnumber
  rw [hnumber, length_append, length_singleton]

lemma Journal.Ledger.sequence_le (h : j.Ledger rs) {r : AgentEvidenceRecord} (hr : r ∈ rs) :
    ∃ last ∈ rs.getLast?, r.head.sequence ≤ last.head.sequence := by
  rcases eq_nil_or_concat' rs with rfl | ⟨before, last, rfl⟩
  · cases hr
  · refine ⟨last, getLast?_concat, ?_⟩
    have hmem : r.head.sequence ∈ (before ++ [last]).map fun r => r.head.sequence :=
      mem_map_of_mem hr
    rw [h.numbered] at hmem
    obtain ⟨i, hi, hsequence⟩ := mem_map.mp hmem
    have hshort := h.short
    rw [mem_range] at hi
    rw [← hsequence, h.last_sequence, le_iff_toNat_le, toNat_ofNat', toNat_ofNat',
      Nat.mod_eq_of_lt (by omega), Nat.mod_eq_of_lt (by omega)]
    exact hi

lemma Journal.Ledger.load (h : j.Ledger rs) :
    j.load (unlines (rs.map fun r => r.line)) = .ok rs := by
  have hlines : lines (unlines (rs.map fun r => r.line)) = rs.map fun r => r.line := by
    apply lines_unlines
    intro line hline
    obtain ⟨r, -, rfl⟩ := mem_map.mp hline
    exact newline_notMem_line r
  have hloaded : j.loadLines 0 [] (rs.map fun r => r.line) = .ok rs :=
    Journal.loadLines_ok (fun r hr => ⟨h.readable r hr, h.verified r hr⟩) h.distinct
  rw [Journal.load, hlines, hloaded, ok_bind]
  rcases eq_nil_or_concat' rs with rfl | ⟨before, last, rfl⟩
  · rfl
  · have hne : before ++ [last] ≠ [] := by simp
    have hlast := h.verified last (mem_append_right _ mem_cons_self)
    have hstream := h.stream hne
    have hblank : j.streamID ≠ [] := by
      have hvalid := hlast.statement
      simp only [validate, checks_ok] at hvalid
      rw [← hstream, ← hlast.streamID]
      exact hvalid.1.1.1.1.1.1.2
    have hhead : last.head = ⟨j.streamID, ofNat (before ++ [last]).length,
        lastDigest (before ++ [last])⟩ := by
      have hnamed : last.head.streamID = j.streamID := congrArg Head.streamID hlast.head
      rw [lastDigest_concat, ← h.last_sequence, ← hnamed]
    rw [if_neg hne]
    simp only [checks_ok, verifyRecords, forM_eq_ok, mapError_eq_ok, verifyLedger, hstream, ne_eq,
      hblank, not_false_eq_true, if_true, h.chained, getLast?_concat, Option.map_some,
      Option.all_some, length_map, ok_bind]
    refine ⟨_, ⟨hne, fun r hr => verifyRecord_eq_ok.mpr (h.verified r hr), ?_, hhead, rfl⟩, trivial⟩
    simp

/-! ## Runs -/

/-- What an append meets with whose record is written so that it is read. -/
structure Attempt.Lands (j : Journal) (s : Store) (records : List AgentEvidenceRecord)
    (record : AgentEvidenceRecord) (a : Attempt) : Prop where
  streamID : validUTF8 j.streamID = true
  event : a.event.Legible
  receipt : record.receipt.Legible
  observedAtUnix : IsInt64 a.event.observedAtUnix
  short : record.line.length < maxLine
  /-- The file has a line for each record in memory, and no other. -/
  current : (lines s.file).length = records.length
  /-- A write that fails has written nothing, or all of it. -/
  whole : ∀ n, a.written = some n → n = 0 ∨ record.line.length < n

/-- A step in which an append that comes to write lands. -/
def JournalOp.Lands (j : Journal) (s : Store) (op : JournalOp) : Prop :=
  ∀ a, op = .append a → ∀ records p receipt, s.records = some records →
    j.prepare records a = .ok p → a.receipt = some receipt →
    j.verifyRecord (p.record a.event receipt) = .ok () →
      a.Lands j s records (p.record a.event receipt)

/-- The file has a line for each record that was written whole, those in memory among them. -/
structure Store.Sound (j : Journal) (s : Store) : Prop where
  ledger : j.Ledger (s.log.map fst)
  file : s.file = unlines ((s.log.map fst).map fun r => r.line)
  loaded : ∀ records, s.records = some records → records <+: s.log.map fst

variable {s : Store}

lemma Store.Sound.lines_file (h : s.Sound j) :
    lines s.file = (s.log.map fst).map fun r => r.line := by
  rw [h.file]
  apply lines_unlines
  intro line hline
  obtain ⟨r, -, rfl⟩ := mem_map.mp hline
  exact newline_notMem_line r

variable {record : AgentEvidenceRecord}

lemma Store.Sound.extend (h : s.Sound j)
    (hledger : j.Ledger (s.log.map fst ++ [record])) (returned : Bool)
    {records : Option (List AgentEvidenceRecord)}
    (hrecords : ∀ rs, records = some rs → rs <+: s.log.map fst ++ [record])
    (handed : List Prepared) :
    Store.Sound j ⟨s.file ++ (record.line ++ [newline]), records, handed,
      s.log ++ [(record, returned)]⟩ := by
  have hlog : (s.log ++ [(record, returned)]).map fst = s.log.map fst ++ [record] := by
    rw [map_append, map_singleton]
  refine ⟨?_, ?_, ?_⟩
  · rw [hlog]
    exact hledger
  · rw [hlog, map_append, map_singleton, unlines_concat, ← h.file]
  · intro rs hrs
    rw [hlog]
    exact hrecords rs hrs

lemma Store.Sound.write (h : s.Sound j) (hcurrent : records = s.log.map fst)
    (hledger : j.Ledger (s.log.map fst ++ [record]))
    (hwhole : ∀ n, a.written = some n → n = 0 ∨ record.line.length < n) :
    (s.write records record a).2.Sound j := by
  have hkept : ∀ rs, s.records = some rs → rs <+: s.log.map fst ++ [record] := fun rs hrs =>
    (h.loaded rs hrs).trans (prefix_append _ _)
  unfold Store.write
  cases hwritten : a.written with
  | some n =>
    rcases hwhole n hwritten with rfl | hlength
    · dsimp only
      rw [if_neg (by simp), take_zero, append_nil]
      exact h
    · have hall : (record.line ++ [newline]).length ≤ n := by
        rw [length_append, length_singleton]
        exact hlength
      dsimp only
      rw [if_pos hall, take_of_length_le hall]
      exact h.extend hledger false hkept s.handed
  | none =>
    cases a.synced with
    | false => exact h.extend hledger false hkept s.handed
    | true =>
      refine h.extend hledger true (fun rs hrs => ?_) s.handed
      rw [← Option.some.inj hrs, hcurrent]

lemma Store.Sound.step (h : s.Sound j) {op : JournalOp}
    (hop : op.Lands j s) : (s.step j op).Sound j := by
  cases op with
  | close => exact ⟨h.ledger, h.file, fun _ hnone => nomatch hnone⟩
  | reopen =>
    have hload : j.load s.file = .ok (s.log.map fst) := by
      rw [h.file]
      exact h.ledger.load
    simp only [Store.step, hload]
    refine ⟨h.ledger, h.file, fun rs hrs => ?_⟩
    rw [← Option.some.inj hrs]
  | append a =>
    show (s.append j a).2.Sound j
    rcases s.append_cases j a with ⟨err, happend⟩ | ⟨records, p, hrecords, hp, happend⟩
    · rw [happend]
      exact h
    · have hhanded : Store.Sound j { s with handed := s.handed ++ [p] } :=
        ⟨h.ledger, h.file, h.loaded⟩
      rw [happend, Store.commit]
      cases hreceipt : a.receipt with
      | none => exact hhanded
      | some receipt =>
        dsimp only
        cases hverify : j.verifyRecord (p.record a.event receipt) with
        | error e => exact hhanded
        | ok _ =>
          have hlands := hop a rfl records p receipt hrecords hp hreceipt hverify
          have hcurrent : records = s.log.map fst := by
            refine (h.loaded records hrecords).eq_of_length ?_
            rw [← hlands.current, h.lines_file, length_map]
          have hfollows := prepare_ok hp
          have hreadable : (p.record a.event receipt).Readable :=
            ⟨hfollows.legible hlands.streamID hlands.event hlands.receipt,
              hfollows.sized hlands.observedAtUnix receipt, hlands.short⟩
          refine hhanded.write hcurrent ?_ hlands.whole
          rw [hcurrent] at hfollows
          exact h.ledger.concat hfollows hreadable (verifyRecord_eq_ok.mp hverify)

lemma Journal.sound_run {ops : List JournalOp}
    (h : ∀ before op after, ops = before ++ op :: after → op.Lands j (j.run before)) :
    (j.run ops).Sound j := by
  refine @foldl_invariant _ _ (JournalOp.Lands j) _ _ _ _ h ?_ fun s op hs hop => hs.step hop
  exact ⟨j.ledger_nil, rfl, fun _ hnone => nomatch hnone⟩

/-- **A journal that is reopened holds what was returned**: its file is loaded, the records are
those that were written whole, in order, among them exactly those that were returned and those of
appends that failed after they were written, and the last of them has a number that is no less than
that of any that was returned. -/
theorem journal_recovers {j : Journal} {ops : List JournalOp}
    (h : ∀ before op after, ops = before ++ op :: after → op.Lands j (j.run before)) :
    ∃ records, j.load (j.run ops).file = .ok records ∧ records = (j.run ops).log.map Prod.fst ∧
      j.returned ops = ((j.run ops).log.filter Prod.snd).map Prod.fst ∧
      ∀ r ∈ j.returned ops, ∃ last ∈ records.getLast?, r.head.sequence ≤ last.head.sequence := by
  have hsound := sound_run h
  have hreturned : j.returned ops = ((j.run ops).log.filter Prod.snd).map Prod.fst := by
    rw [returned_eq]
    refine map_congr_left fun entry hentry => ?_
    have hreadable := hsound.ledger.readable entry.1
      (mem_map_of_mem (mem_of_mem_filter hentry))
    exact AgentEvidenceRecord.clone_eq hreadable.legible hreadable.sized
  refine ⟨(j.run ops).log.map Prod.fst, ?_, rfl, hreturned, ?_⟩
  · rw [hsound.file]
    exact hsound.ledger.load
  · intro r hr
    rw [hreturned] at hr
    obtain ⟨entry, hentry, rfl⟩ := mem_map.mp hr
    exact hsound.ledger.sequence_le (mem_map_of_mem (mem_of_mem_filter hentry))

end

section Sample

attribute [local instance] asciiCase sha256 checksumScheme

/-- An event is appended, `Sync` fails, and the record is there when the journal is reopened. -/
theorem journal_recovers_unsynced :
    let ops := [.reopen, .append { answered with synced := false }, .close]
    ∃ records, sampleJournal.load (sampleJournal.run ops).file = .ok records ∧
      records = (sampleJournal.run ops).log.map Prod.fst := by
  intro ops
  have hshort : (sampleJournal.prepare [] answered).toOption.all fun p =>
      (p.record answered.event firstReceipt).line.length < maxLine := by
    decide +kernel
  have hlands : ∀ before op after, ops = before ++ op :: after →
      op.Lands sampleJournal (sampleJournal.run before) := by
    refine forall_split_cons.mpr ⟨nofun, forall_split_cons.mpr ⟨?_, forall_split_cons.mpr ⟨nofun,
      forall_split_nil⟩⟩⟩
    rintro _ ⟨⟩ records p receipt hrecords hp hreceipt -
    obtain rfl : [] = records := Option.some.inj (Eq.trans (by decide +kernel) hrecords)
    obtain rfl : firstReceipt = receipt := Option.some.inj hreceipt
    rw [show sampleJournal.prepare [] answered = .ok p from hp, Except.toOption, Option.all_some,
      decide_eq_true_eq] at hshort
    have hreceipt : firstReceipt.Legible :=
      ⟨by decide, by decide, by decide, by decide, by decide +kernel, by decide, by decide +kernel⟩
    exact ⟨by decide, ⟨by decide, by decide, by decide, by decide, fun _ h => nomatch h⟩, hreceipt,
      by decide, hshort, by decide +kernel, nofun⟩
  obtain ⟨records, hload, hrecords, -⟩ := journal_recovers hlands
  exact ⟨records, hload, hrecords⟩

/-- A write that fails after its first byte leaves a file that is not read. -/
theorem torn_write_not_recovered :
    sampleJournal.load (sampleJournal.run
      [.reopen, .append { answered with written := some 1 }, .close]).file =
        .error (.undecodable 1) := by
  decide +kernel

end Sample

end WeaverSSH.Evidence
