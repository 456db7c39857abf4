import WeaverSSH.Framework.Sha256
import WeaverSSH.SessionRoute.Lease

/-!
# Leases under one lock

Calls on the file of leases come one after the other, each with a clock reading that may be older
than the moment it has the lock. A call drops what is not valid at its reading, and a newer entry
may look to it as one whose lease is too long. `apply_ok` says what a call that succeeds writes.
-/

namespace WeaverSSH.SessionRoute

open AuthProof SessionLink List LeaseOp Except LeaseEntry

/-- The entries of a file; one that is not there has none. -/
def entriesOf (file : Option LeaseRegistry) : List LeaseEntry :=
  (file.map LeaseRegistry.entries).getD []

section

variable [Unicode] [SHA256]

/-- The checks of an entry that are not about its lease. -/
structure LeaseEntry.WellFormed (e : LeaseEntry) : Prop where
  fields : (e.version = leaseRegistryVersion && validateID e.linkID = .ok () &&
    validateTransportID e.transportID = .ok () && e.generation ≠ 0 &&
    e.binding ≠ [] && e.socket ≠ [] && e.localNode ≠ [] && e.peerNode ≠ [] &&
    e.chainID ≠ [] && len e.chainSHA256 = 64 && 2 ≤ e.topology.length &&
    0 < e.pid && !isZero e.startedAt && !isZero e.updatedAt && !isZero e.leaseUntil) = true
  placed : (standsAt e.topology e.localIndex e.localNode &&
    standsAt e.topology e.peerIndex e.peerNode && (e.localIndex - e.peerIndex).natAbs = 1) = true
  derived : deriveID ⟨e.chainSHA256, e.topology, e.localNode, e.peerNode⟩ = .ok e.linkID

variable {e : LeaseEntry} {now : Time} {entries out kept : List LeaseEntry} {op : LeaseOp}
  {call : LeaseCall} {file : Option LeaseRegistry}

theorem validateLeaseEntry_eq_ok : validateLeaseEntry e now = .ok () ↔
      e.WellFormed ∧ now < e.leaseUntil ∧ e.leaseUntil - now ≤ maxLease := by
  simp only [validateLeaseEntry, bind_eq_ok, require_eq_ok, exists_const, decide_eq_true_eq]
  constructor
  · rintro ⟨hfields, hlease, hplaced, hderived⟩
    simp only [Bool.and_eq_true, decide_eq_true_eq] at hlease
    exact ⟨⟨hfields, hplaced, hderived⟩, hlease⟩
  · rintro ⟨⟨hfields, hplaced, hderived⟩, hlease⟩
    exact ⟨hfields, by simpa using hlease, hplaced, hderived⟩

lemma LeaseEntry.WellFormed.linkID_normal (h : e.WellFormed) :
    trimSpace e.linkID = e.linkID ∧ WeaverSSH.scrub e.linkID = e.linkID := by
  obtain ⟨m, hm⟩ : ∃ m, e.linkID = SHA256.hex m := by
    have hderived := h.derived
    unfold deriveID at hderived
    split at hderived
    · cases hderived
    · exact ⟨_, (ok.inj hderived).symm⟩
  rw [hm]
  have hlow := SHA256.lowerHex_hex m
  exact ⟨trimSpace_of_forall fun r hr => Rune.isSpace_of_isLowerHex (hlow r hr),
    scrub_of_valid (SHA256.valid_hex m)⟩

/-! ## What a call writes -/

lemma not_expired_of_validate
    (h : validateLeaseEntry e now = .ok ()) : expiredLease e now = false := by
  obtain ⟨hwell, hlater, -⟩ := validateLeaseEntry_eq_ok.mp h
  have hfields := hwell.fields
  simp only [Bool.and_eq_true, Bool.not_eq_true'] at hfields
  simp [expiredLease, hfields.2, hlater]

lemma sweep_ok {rule : LeaseEntry → Except RouteErr (Option LeaseEntry)}
    (h : sweep now rule entries = .ok out) :
    (∀ e, e ∈ out ↔ ∃ raw ∈ entries, validateLeaseEntry (normalizeLeaseEntry raw) now = .ok () ∧
      rule (normalizeLeaseEntry raw) = .ok (some e)) ∧
    ∀ raw ∈ entries, validateLeaseEntry (normalizeLeaseEntry raw) now = .ok () →
      ∃ kept, rule (normalizeLeaseEntry raw) = .ok kept := by
  induction entries generalizing out with
  | nil =>
    cases h
    simp
  | cons raw rest ih =>
    unfold sweep at h
    dsimp only at h
    split_ifs at h with hbad
    · obtain ⟨hmem, hrule⟩ := ih h
      have hinvalid : validateLeaseEntry (normalizeLeaseEntry raw) now ≠ .ok () := by
        intro hgood
        simp [not_expired_of_validate hgood, hgood] at hbad
      refine ⟨fun e => ?_, fun raw' hraw' hgood => ?_⟩
      · rw [hmem e]
        simp [hinvalid]
      · rcases mem_cons.mp hraw' with rfl | hraw'
        · exact absurd hgood hinvalid
        · exact hrule raw' hraw' hgood
    · simp only [Bool.or_eq_true, decide_eq_true_eq, not_or, not_not] at hbad
      simp only [checks_ok] at h
      obtain ⟨kept, hkept, kepts, hkepts, rfl⟩ := h
      obtain ⟨hmem, hrule⟩ := ih hkepts
      refine ⟨fun e => ?_, fun raw' hraw' hgood => ?_⟩
      · rw [mem_append, hmem e, Option.mem_toList]
        constructor
        · rintro (rfl | ⟨raw', hraw', hgood, hstays⟩)
          · exact ⟨raw, mem_cons_self, hbad.2, hkept⟩
          · exact ⟨raw', mem_cons_of_mem _ hraw', hgood, hstays⟩
        · rintro ⟨raw', hraw', hgood, hstays⟩
          rcases mem_cons.mp hraw' with rfl | hraw'
          · rw [hkept] at hstays
            exact .inl (Except.ok.inj hstays)
          · exact .inr ⟨raw', hraw', hgood, hstays⟩
      · rcases mem_cons.mp hraw' with rfl | hraw'
        · exact ⟨kept, hkept⟩
        · exact hrule raw' hraw' hgood

/-- What an operation does with an entry that is good. -/
def LeaseOp.rule (now : Time) : LeaseOp → LeaseEntry → Except RouteErr (Option LeaseEntry)
  | .register entry => supersede (normalizeLeaseEntry entry)
  | .renew token leaseUntil => prolong token leaseUntil now
  | .remove token => withdraw token
  | .resetLink linkID => reset linkID

def LeaseOp.added : LeaseOp → List LeaseEntry
  | .register entry => [normalizeLeaseEntry entry]
  | _ => []

lemma LeaseOp.apply_ok (h : op.apply now entries = .ok out) :
    ∃ kept, sweep now (op.rule now) entries = .ok kept ∧ out = kept ++ op.added := by
  cases op with
  | register entry =>
    simp only [apply, checks_ok] at h
    obtain ⟨kept, hkept, rfl⟩ := h
    exact ⟨kept, hkept, rfl⟩
  | renew token leaseUntil =>
    simp only [apply, checks_ok] at h
    obtain ⟨kept, hkept, -, rfl⟩ := h
    exact ⟨kept, hkept, (append_nil _).symm⟩
  | remove token | resetLink linkID => exact ⟨out, h, (append_nil _).symm⟩

/-! ### The rules -/

omit [SHA256] in
lemma LeaseOp.rule_some {e' : LeaseEntry} (h : op.rule now e = .ok (some e')) :
    e' = e ∨ ∃ token leaseUntil, op = .renew token leaseUntil ∧
      e' = { e with leaseUntil := leaseUntil, updatedAt := now } := by
  cases op with
  | register entry =>
    simp only [rule, supersede] at h
    split_ifs at h <;> simp_all
  | renew token leaseUntil =>
    simp only [rule, prolong] at h
    split_ifs at h
    · exact .inr ⟨token, leaseUntil, rfl, (Option.some.inj (ok.inj h)).symm⟩
    · exact .inl (Option.some.inj (ok.inj h)).symm
  | remove token =>
    simp only [rule, withdraw] at h
    split_ifs at h <;> simp_all
  | resetLink linkID =>
    simp only [rule, reset] at h
    split_ifs at h <;> simp_all

omit [SHA256] in
lemma LeaseOp.rule_some_same {e' : LeaseEntry}
    (h : op.rule now e = .ok (some e')) : e'.linkID = e.linkID ∧ e'.generation = e.generation := by
  rcases rule_some h with rfl | ⟨_, _, -, rfl⟩ <;> exact ⟨rfl, rfl⟩

omit [SHA256] in
lemma LeaseOp.rule_other (h : e.linkID ≠ op.link) : op.rule now e = .ok (some e) := by
  cases op with
  | register entry => exact if_pos h
  | renew token leaseUntil => exact if_neg h
  | remove token => exact if_neg fun hsame => h hsame.1
  | resetLink linkID => exact congrArg ok (if_neg h)

omit [Unicode] [SHA256] in
lemma supersede_same {entry : LeaseEntry} {kept : Option LeaseEntry}
    (hlink : e.linkID = entry.linkID) (h : supersede entry e = .ok kept) :
    kept = none ∧ e.generation ≤ entry.generation := by
  unfold supersede at h
  split_ifs at h with hother holder
  · exact absurd hlink hother
  · exact ⟨(ok.inj h).symm, UInt64.not_lt.mp holder⟩

/-- **What one call does.** It fails and leaves the file, or it writes what it keeps and what it
adds. -/
lemma LeaseCall.perform_cases (size : LeaseRegistry → Option ℕ) (call : LeaseCall)
    (file : Option LeaseRegistry) : (∃ e, call.perform size file = (file, .error e)) ∨
    ∃ kept, call.op.checkArgs call.now = .ok () ∧
      sweep call.now (call.op.rule call.now) (entriesOf file) = .ok kept ∧
      (call.perform size file).2 = .ok () ∧
      entriesOf (call.perform size file).1 = (kept ++ call.op.added).map LeaseEntry.scrub := by
  unfold LeaseCall.perform
  cases hrewrite : call.rewrite size file with
  | error e => exact .inl ⟨e, rfl⟩
  | ok registry =>
    simp only [LeaseCall.rewrite, checks_ok, elim_eq_ok] at hrewrite
    obtain ⟨⟨⟩, hadmitted, snapshot, hsnapshot, out, hout, -, -, -, -, rfl⟩ := hrewrite
    obtain ⟨kept, hkept, rfl⟩ := apply_ok hout
    have hentries : snapshot.entries = entriesOf file := by
      unfold snapshotUnlocked at hsnapshot
      cases file with
      | none =>
        cases hsnapshot
        rfl
      | some registry =>
        dsimp only at hsnapshot
        split_ifs at hsnapshot
        cases hsnapshot
        rfl
    exact .inr ⟨kept, hadmitted, hentries ▸ hkept, rfl, rfl⟩

/-! ## One entry for a link -/

/-- No link has two entries, and the identifiers are written as they are compared. -/
structure Tidy (file : Option LeaseRegistry) : Prop where
  nodup : ((entriesOf file).map linkID).Nodup
  trimmed : ∀ e ∈ entriesOf file, trimSpace e.linkID = e.linkID

omit [Unicode] [SHA256] in
lemma tidy_none : Tidy none := ⟨.nil, by rintro _ ⟨⟩⟩

lemma sweep_sublist {rule : LeaseEntry → Except RouteErr (Option LeaseEntry)}
    (hrule : ∀ e e', rule e = .ok (some e') → e'.linkID = e.linkID)
    (h : sweep now rule entries = .ok out) :
    (out.map linkID).Sublist (entries.map fun e => trimSpace e.linkID) := by
  induction entries generalizing out with
  | nil =>
    cases h
    exact .slnil
  | cons raw rest ih =>
    unfold sweep at h
    dsimp only at h
    split_ifs at h
    · exact (ih h).cons _
    · simp only [checks_ok] at h
      obtain ⟨kept, hkept, kepts, hkepts, rfl⟩ := h
      cases kept with
      | none => exact (ih hkepts).cons _
      | some e =>
        have hsame : e.linkID = trimSpace raw.linkID := hrule _ _ hkept
        simpa [hsame] using ih hkepts

lemma wellFormed_kept (hadmitted : call.op.checkArgs call.now = .ok ())
    (hkept : sweep call.now (call.op.rule call.now) entries = .ok kept) :
    ∀ e ∈ kept ++ call.op.added, ∃ good : LeaseEntry, good.WellFormed ∧ e.linkID = good.linkID := by
  intro e he
  rcases mem_append.mp he with he | he
  · obtain ⟨raw, -, hgood, hrule⟩ := ((sweep_ok hkept).1 e).mp he
    exact ⟨normalizeLeaseEntry raw, (validateLeaseEntry_eq_ok.mp hgood).1, (rule_some_same hrule).1⟩
  · cases hop : call.op with
    | register entry =>
      rw [hop] at hadmitted he
      obtain rfl : e = normalizeLeaseEntry entry := mem_singleton.mp he
      exact ⟨_, (validateLeaseEntry_eq_ok.mp hadmitted).1, rfl⟩
    | renew | remove | resetLink =>
      rw [hop] at he
      cases he

lemma added_not_kept (hkept : sweep call.now (call.op.rule call.now) entries = .ok kept) :
    ∀ e ∈ kept, ∀ a ∈ call.op.added, e.linkID ≠ a.linkID := by
  intro e he a ha hlink
  obtain ⟨raw, -, -, hrule⟩ := ((sweep_ok hkept).1 e).mp he
  have hsame := (rule_some_same hrule).1
  cases hop : call.op with
  | register entry =>
    rw [hop] at hrule ha
    obtain rfl : a = normalizeLeaseEntry entry := mem_singleton.mp ha
    obtain ⟨hnone, -⟩ := supersede_same (hsame.symm.trans hlink) hrule
    cases hnone
  | renew | remove | resetLink =>
    rw [hop] at ha
    cases ha

omit [SHA256] in
lemma LeaseOp.nodup_added (op : LeaseOp) : (op.added.map linkID).Nodup := by
  cases op <;> simp [added]

lemma Tidy.perform (h : Tidy file)
    (size : LeaseRegistry → Option ℕ) (call : LeaseCall) : Tidy (call.perform size file).1 := by
  rcases call.perform_cases size file with ⟨e, he⟩ | ⟨kept, hadmitted, hkept, -, hentries⟩
  · rw [he]
    exact h
  have hlinks : ∀ e ∈ kept ++ call.op.added,
      trimSpace e.linkID = e.linkID ∧ WeaverSSH.scrub e.linkID = e.linkID := by
    intro e he
    obtain ⟨good, hgood, hsame⟩ := wellFormed_kept hadmitted hkept e he
    rw [hsame]
    exact hgood.linkID_normal
  have hscrub : ((kept ++ call.op.added).map LeaseEntry.scrub).map LeaseEntry.linkID =
      (kept ++ call.op.added).map LeaseEntry.linkID := by
    rw [map_map]
    exact map_congr_left fun e he => (hlinks e he).2
  have hsub : (kept.map linkID).Sublist ((entriesOf file).map linkID) := by
    have htrim : ((entriesOf file).map fun e => trimSpace e.linkID) =
        (entriesOf file).map linkID := map_congr_left h.trimmed
    rw [← htrim]
    exact sweep_sublist (fun e e' he => (rule_some_same he).1) hkept
  constructor
  · rw [hentries, hscrub, map_append, nodup_append]
    refine ⟨h.nodup.sublist hsub, call.op.nodup_added, ?_⟩
    rintro link hlink link' hlink' rfl
    obtain ⟨e, he, rfl⟩ := mem_map.mp hlink
    obtain ⟨a, ha, hsame⟩ := mem_map.mp hlink'
    exact added_not_kept hkept e he a ha hsame.symm
  · intro e he
    rw [hentries] at he
    obtain ⟨written, hwritten, rfl⟩ := mem_map.mp he
    obtain ⟨htrim, hvalid⟩ := hlinks written hwritten
    change trimSpace (WeaverSSH.scrub written.linkID) = WeaverSSH.scrub written.linkID
    rw [hvalid, htrim]

/-! ## Other links -/

/-- What is asked of a call: the texts it registers are UTF-8, and its clock is set. -/
structure LeaseCall.Plain (call : LeaseCall) : Prop where
  utf8 : ∀ entry, call.op = .register entry → entry.scrub = entry
  set : isZero call.now = false

/-- The entries of a file are well formed, and are read as they are written. -/
def Sturdy (file : Option LeaseRegistry) : Prop :=
  ∀ e ∈ entriesOf file, e.WellFormed ∧ normalizeLeaseEntry e = e ∧ e.scrub = e

omit [SHA256] in
lemma normalizeLeaseEntry_normalizeLeaseEntry (e : LeaseEntry) :
    normalizeLeaseEntry (normalizeLeaseEntry e) = normalizeLeaseEntry e := by
  simp [normalizeLeaseEntry, Function.comp_def]

omit [SHA256] in
lemma scrub_toLower (t : Text) : WeaverSSH.scrub (toLower t) = toLower t := by
  rw [WeaverSSH.scrub, toLower, map_map]
  refine map_congr_left fun r _ => ?_
  cases r <;> rfl

omit [SHA256] in
lemma scrub_normalizeLeaseEntry (h : e.scrub = e) :
    (normalizeLeaseEntry e).scrub = normalizeLeaseEntry e := by
  have htrim : ∀ {t : Text}, WeaverSSH.scrub t = t →
      WeaverSSH.scrub (trimSpace t) = trimSpace t := by
    intro t ht
    rw [← trimSpace_scrub, ht]
  have hversion : ∀ {t : Text}, WeaverSSH.scrub t = t →
      WeaverSSH.scrub (orElse t leaseRegistryVersion) = orElse t leaseRegistryVersion := by
    intro t ht
    unfold orElse
    split_ifs
    · exact scrub_text _
    · exact ht
  have htopology : (e.topology.map trimSpace).map WeaverSSH.scrub = e.topology.map trimSpace := by
    have hnodes : e.topology.map WeaverSSH.scrub = e.topology := congrArg LeaseEntry.topology h
    rw [map_map]
    refine map_congr_left fun node hnode => ?_
    exact htrim (map_inj_left.mp (hnodes.trans (map_id _).symm) node hnode)
  simp only [LeaseEntry.scrub, normalizeLeaseEntry, scrub_toLower, htopology,
    htrim (congrArg LeaseEntry.linkID h), htrim (congrArg LeaseEntry.transportID h),
    htrim (congrArg LeaseEntry.binding h), htrim (congrArg LeaseEntry.socket h),
    htrim (congrArg LeaseEntry.localNode h), htrim (congrArg LeaseEntry.peerNode h),
    htrim (congrArg LeaseEntry.chainID h), hversion (congrArg LeaseEntry.version h)]

lemma LeaseEntry.WellFormed.renewed (h : e.WellFormed) {leaseUntil : Time}
    (hlease : isZero leaseUntil = false) (hnow : isZero now = false) :
    LeaseEntry.WellFormed { e with leaseUntil := leaseUntil, updatedAt := now } := by
  refine ⟨?_, h.placed, h.derived⟩
  have hfields := h.fields
  simp only [Bool.and_eq_true, Bool.not_eq_true'] at hfields ⊢
  exact ⟨⟨hfields.1.1, hnow⟩, hlease⟩

lemma Sturdy.perform (h : Sturdy file) (size : LeaseRegistry → Option ℕ) (hplain : call.Plain) :
    Sturdy (call.perform size file).1 := by
  rcases call.perform_cases size file with ⟨e, he⟩ | ⟨kept, hadmitted, hkept, -, hentries⟩
  · rw [he]
    exact h
  have hwritten : ∀ e ∈ kept ++ call.op.added,
      e.WellFormed ∧ normalizeLeaseEntry e = e ∧ e.scrub = e := by
    intro e he
    rcases mem_append.mp he with he | he
    · obtain ⟨raw, hraw, -, hrule⟩ := ((sweep_ok hkept).1 e).mp he
      obtain ⟨hwell, hnormal, hscrub⟩ := h raw hraw
      rw [hnormal] at hrule
      rcases rule_some hrule with rfl | ⟨token, leaseUntil, hop, rfl⟩
      · exact ⟨hwell, hnormal, hscrub⟩
      · rw [hop] at hadmitted
        simp only [checkArgs, checks_ok, Bool.not_eq_true'] at hadmitted
        refine ⟨hwell.renewed hadmitted.1.1 hplain.set, ?_, ?_⟩
        · conv_rhs => rw [← hnormal]
          rfl
        · conv_rhs => rw [← hscrub]
          rfl
    · cases hop : call.op with
      | register entry =>
        rw [hop] at hadmitted he
        obtain rfl : e = normalizeLeaseEntry entry := mem_singleton.mp he
        exact ⟨(validateLeaseEntry_eq_ok.mp hadmitted).1,
          normalizeLeaseEntry_normalizeLeaseEntry entry,
          scrub_normalizeLeaseEntry (hplain.utf8 entry hop)⟩
      | renew | remove | resetLink =>
        rw [hop] at he
        cases he
  intro e he
  rw [hentries] at he
  obtain ⟨written, hmem, rfl⟩ := mem_map.mp he
  obtain ⟨hwell, hnormal, hscrub⟩ := hwritten written hmem
  rw [hscrub]
  exact ⟨hwell, hnormal, hscrub⟩

/-- What a call leaves of the other links: every lease that is still good. -/
def KeepsOthers (call : LeaseCall) (before after : Option LeaseRegistry) : Prop :=
  ∀ e ∈ entriesOf before, e.linkID ≠ call.op.link → call.held < e.leaseUntil → e ∈ entriesOf after

/-- No link goes back to an older generation while its lease is good. -/
def NeverOlder (call : LeaseCall) (before after : Option LeaseRegistry) : Prop :=
  ∀ e ∈ entriesOf before, ∀ e' ∈ entriesOf after, e'.linkID = e.linkID →
    call.held < e.leaseUntil → e.generation ≤ e'.generation

/-- A lease as a call sees it: it ends within the longest lease of the call's clock reading. -/
def Timely (call : LeaseCall) (e : LeaseEntry) : Prop := e.leaseUntil - call.now ≤ maxLease

lemma good_of_timely (hwell : e.WellFormed)
    (hclock : call.now ≤ call.held) (hlive : call.held < e.leaseUntil) (htimely : Timely call e) :
    validateLeaseEntry e call.now = .ok () :=
  validateLeaseEntry_eq_ok.mpr ⟨hwell, hclock.trans_lt hlive, htimely⟩

lemma mem_perform_of_timely (h : Sturdy file)
    (size : LeaseRegistry → Option ℕ) (hclock : call.now ≤ call.held)
    (he : e ∈ entriesOf file) (hother : e.linkID ≠ call.op.link)
    (hlive : call.held < e.leaseUntil) (htimely : Timely call e) :
    e ∈ entriesOf (call.perform size file).1 := by
  rcases call.perform_cases size file with ⟨err, herr⟩ | ⟨kept, -, hkept, -, hentries⟩
  · rw [herr]
    exact he
  obtain ⟨hwell, hnormal, hscrub⟩ := h e he
  have hmem : e ∈ kept := by
    refine ((sweep_ok hkept).1 e).mpr ⟨e, he, ?_, ?_⟩
    · rw [hnormal]
      exact good_of_timely hwell hclock hlive htimely
    · rw [hnormal]
      exact rule_other hother
  rw [hentries]
  exact mem_map.mpr ⟨e, mem_append_left _ hmem, hscrub⟩

/-- What a call that succeeds writes of a link that had an entry comes of that entry, or is
registered. -/
lemma written_cases (htidy : Tidy file) (hadmitted : call.op.checkArgs call.now = .ok ())
    (hkept : sweep call.now (call.op.rule call.now) (entriesOf file) = .ok kept)
    {e' : LeaseEntry} (he : e ∈ entriesOf file)
    (he' : e' ∈ (kept ++ call.op.added).map LeaseEntry.scrub) (hlink : e'.linkID = e.linkID) :
    (validateLeaseEntry (normalizeLeaseEntry e) call.now = .ok () ∧ e'.generation = e.generation) ∨
    ∃ entry, call.op = .register entry ∧ e.linkID = call.op.link ∧
      e'.generation = entry.generation := by
  obtain ⟨written, hwritten, rfl⟩ := mem_map.mp he'
  obtain ⟨good, hgood, hsame⟩ := wellFormed_kept hadmitted hkept written hwritten
  have hwlink : written.linkID = e.linkID := by
    rw [← hlink]
    change written.linkID = WeaverSSH.scrub written.linkID
    rw [hsame, hgood.linkID_normal.2]
  rcases mem_append.mp hwritten with hwritten | hwritten
  · obtain ⟨raw, hraw, hvalid, hrule⟩ := ((sweep_ok hkept).1 written).mp hwritten
    obtain ⟨hrlink, hrgen⟩ := rule_some_same hrule
    have hraw_link : raw.linkID = e.linkID := by
      rw [← htidy.trimmed raw hraw, ← hwlink, hrlink]
      rfl
    obtain rfl : raw = e := inj_on_of_nodup_map htidy.nodup hraw he hraw_link
    exact .inl ⟨hvalid, hrgen⟩
  · cases hop : call.op with
    | register entry =>
      rw [hop] at hwritten
      obtain rfl : written = normalizeLeaseEntry entry := mem_singleton.mp hwritten
      exact .inr ⟨entry, rfl, hwlink.symm, rfl⟩
    | renew | remove | resetLink =>
      rw [hop] at hwritten
      cases hwritten

lemma not_mem_perform (htidy : Tidy file) (size : LeaseRegistry → Option ℕ)
    (hok : (call.perform size file).2 = .ok ()) (he : e ∈ entriesOf file)
    (hother : e.linkID ≠ call.op.link) (hlong : ¬ Timely call e) :
    e ∉ entriesOf (call.perform size file).1 := by
  rcases call.perform_cases size file with ⟨err, herr⟩ | ⟨kept, hadmitted, hkept, -, hentries⟩
  · rw [herr] at hok
    cases hok
  intro he'
  rw [hentries] at he'
  rcases written_cases htidy hadmitted hkept he he' rfl with ⟨hvalid, -⟩ | ⟨-, -, hlink, -⟩
  · exact hlong (validateLeaseEntry_eq_ok.mp hvalid).2.2
  · exact hother hlink

lemma neverOlder_perform (htidy : Tidy file) (h : Sturdy file)
    (size : LeaseRegistry → Option ℕ) (hclock : call.now ≤ call.held)
    (htimely : ∀ e ∈ entriesOf file, call.held < e.leaseUntil → Timely call e) :
    NeverOlder call file (call.perform size file).1 := by
  intro e he e' he' hlink hlive
  rcases call.perform_cases size file with ⟨err, herr⟩ | ⟨kept, hadmitted, hkept, -, hentries⟩
  · rw [herr] at he'
    obtain rfl : e' = e := inj_on_of_nodup_map htidy.nodup he' he hlink
    exact UInt64.le_refl _
  rw [hentries] at he'
  rcases written_cases htidy hadmitted hkept he he' hlink with
    ⟨-, hgen⟩ | ⟨entry, hop, helink, hgen⟩
  · rw [hgen]
    exact UInt64.le_refl _
  · -- the entry that was there is good at the call's reading, and `Register` looks at it
    obtain ⟨hwell, hnormal, -⟩ := h e he
    have hgood := good_of_timely hwell hclock hlive (htimely e he hlive)
    obtain ⟨out, hout⟩ := (sweep_ok hkept).2 e he (by rwa [hnormal])
    rw [hnormal, hop] at hout
    rw [hop] at helink
    rw [hgen]
    exact (supersede_same helink hout).2

def leaseFile (size : LeaseRegistry → Option ℕ) (calls : List LeaseCall) : Option LeaseRegistry :=
  calls.foldl (fun file call => (call.perform size file).1) none

lemma tidy_leaseFile (size : LeaseRegistry → Option ℕ) (calls : List LeaseCall) :
    Tidy (leaseFile size calls) := by
  induction calls using List.reverseRecOn with
  | nil => exact tidy_none
  | append_singleton calls call ih =>
    rw [leaseFile, foldl_concat]
    exact Tidy.perform ih size call

lemma sturdy_leaseFile (size : LeaseRegistry → Option ℕ) (calls : List LeaseCall)
    (h : ∀ call ∈ calls, call.Plain) : Sturdy (leaseFile size calls) := by
  induction calls using List.reverseRecOn with
  | nil => rintro _ ⟨⟩
  | append_singleton calls call ih =>
    rw [leaseFile, foldl_concat]
    exact Sturdy.perform (ih fun c hc => h c (mem_append_left _ hc)) size
      (h call (by simp))

/-- **Leases under one lock.** However the calls come, the file has one entry for a link. Where
what they register is UTF-8, a call that succeeds keeps the good leases of the other links exactly
where these end within the longest lease of its clock reading; and where all good leases do, no link
goes back to an older generation. -/
theorem lease_registry_frame (size : LeaseRegistry → Option ℕ) (calls : List LeaseCall)
    (call : LeaseCall) (hclock : call.now ≤ call.held) :
    ((entriesOf (leaseFile size calls)).map linkID).Nodup ∧ ((∀ earlier ∈ calls, earlier.Plain) →
      ((call.perform size (leaseFile size calls)).2 = .ok () →
        (KeepsOthers call (leaseFile size calls) (call.perform size (leaseFile size calls)).1 ↔
          ∀ e ∈ entriesOf (leaseFile size calls), e.linkID ≠ call.op.link →
            call.held < e.leaseUntil → Timely call e)) ∧
      ((∀ e ∈ entriesOf (leaseFile size calls), call.held < e.leaseUntil → Timely call e) →
        KeepsOthers call (leaseFile size calls) (call.perform size (leaseFile size calls)).1 ∧
        NeverOlder call (leaseFile size calls) (call.perform size (leaseFile size calls)).1)) := by
  have htidy := tidy_leaseFile size calls
  refine ⟨htidy.nodup, fun hplain => ?_⟩
  have hsturdy := sturdy_leaseFile size calls hplain
  refine ⟨fun hok => ⟨fun hkeeps e he hother hlive => ?_, fun htimely e he hother hlive => ?_⟩,
    fun htimely => ⟨fun e he hother hlive => ?_, ?_⟩⟩
  · by_contra hlong
    exact not_mem_perform htidy size hok he hother hlong (hkeeps e he hother hlive)
  · exact mem_perform_of_timely hsturdy size hclock he hother hlive (htimely e he hother hlive)
  · exact mem_perform_of_timely hsturdy size hclock he hother hlive (htimely e he hlive)
  · exact neverOlder_perform htidy hsturdy size hclock htimely

end

section Sample

/-- A text of an entry is written with at most six bytes for one. -/
def roughSize (r : LeaseRegistry) : Option ℕ :=
  some (r.entries.length * 1024 + 6 * (r.entries.map fun e =>
    len e.binding + len e.socket + (e.topology.map len).sum).sum)

attribute [local instance] asciiCase sha256

/-- The lease of a node and its successor in a chain of three. -/
def leaseOf (topology : List Text) (index : ℕ) (generation : UInt64) (leaseUntil : Time) :
    LeaseEntry :=
  let chain := List.replicate 64 (.char '0')
  let node := topology.getD index []
  let peer := topology.getD (index + 1) []
  { version := leaseRegistryVersion
    linkID := (deriveID ⟨chain, topology, node, peer⟩).toOption.getD []
    transportID := "transport", generation := generation, binding := "binding"
    socket := "/run/wv.sock", localNode := node, peerNode := peer, chainID := "chain"
    chainSHA256 := chain, topology := topology, localIndex := index, peerIndex := index + 1
    pid := 1, startedAt := second, updatedAt := second, leaseUntil := leaseUntil }

/-- A registration that reads its clock and gets the lock at the given seconds. -/
def registerAt (entry : LeaseEntry) (now held : ℤ) : LeaseCall :=
  ⟨.register entry, now * second, held * second, true⟩

def plainTopology : List Text := ["a", "b", "c"]

/-- The lease of `b` and `c`, for an hour. -/
def hourLease : LeaseEntry := leaseOf plainTopology 1 1 (3600 * second)

/-- An hour's lease outlasts the registration of another link. -/
theorem lease_registry_frame_hour :
    hourLease ∈ entriesOf ((registerAt (leaseOf plainTopology 0 1 (3600 * second)) 1 3).perform
      roughSize (leaseFile roughSize [registerAt hourLease 2 2])).1 := by
  obtain ⟨hmem, hutf8, hother, htimely⟩ :
      hourLease ∈ entriesOf (leaseFile roughSize [registerAt hourLease 2 2]) ∧
      hourLease.scrub = hourLease ∧
      hourLease.linkID ≠ (registerAt (leaseOf plainTopology 0 1 (3600 * second)) 1 3).op.link ∧
      ∀ e ∈ entriesOf (leaseFile roughSize [registerAt hourLease 2 2]),
        e.leaseUntil - 1 * second ≤ maxLease := by
    decide +kernel
  have hframe := (lease_registry_frame roughSize [registerAt hourLease 2 2]
    (registerAt (leaseOf plainTopology 0 1 (3600 * second)) 1 3) (by decide)).2
  have hplain : ∀ earlier ∈ [registerAt hourLease 2 2], earlier.Plain := by
    intro earlier hearlier
    obtain rfl : earlier = registerAt hourLease 2 2 := List.mem_singleton.mp hearlier
    refine ⟨fun entry hentry => ?_, by decide⟩
    cases hentry
    exact hutf8
  exact ((hframe hplain).2 fun e he _ => htimely e he).1 hourLease hmem hother (by decide)

/-- The lease of `b` and `c`, for the longest time from the second second on. -/
def dayLease : LeaseEntry := leaseOf plainTopology 1 1 (2 * second + maxLease)

/-- The lease of `a` and `b` by its second transport, as long. -/
def newerLease : LeaseEntry := leaseOf plainTopology 0 2 (2 * second + maxLease)

/-- The lease of a node whose name is one stray byte, and `b`. -/
def strayLease : LeaseEntry := leaseOf [[.raw 0xff], "b", "c"] 0 1 (60 * second)

/-- **Leases are lost.** A registration that read its clock before another got the lock takes the
other's lease for too long: it drops the lease of another link, and replaces a newer generation of
its own. And an entry with a stray byte is dropped by the next call. -/
theorem good_leases_dropped :
    (dayLease ∈ entriesOf (leaseFile roughSize [registerAt dayLease 2 2]) ∧
      3 * second < dayLease.leaseUntil ∧
      ((registerAt (leaseOf plainTopology 0 1 (60 * second)) 1 3).perform roughSize
        (leaseFile roughSize [registerAt dayLease 2 2])).2 = .ok () ∧
      dayLease ∉ entriesOf ((registerAt (leaseOf plainTopology 0 1 (60 * second)) 1 3).perform
        roughSize (leaseFile roughSize [registerAt dayLease 2 2])).1) ∧
    ((entriesOf (leaseFile roughSize [registerAt newerLease 2 2])).map generation = [2] ∧
      (entriesOf ((registerAt (leaseOf plainTopology 0 1 (60 * second)) 1 3).perform roughSize
        (leaseFile roughSize [registerAt newerLease 2 2])).1).map generation = [1] ∧
      newerLease.linkID = (leaseOf plainTopology 0 1 (60 * second)).linkID) ∧
    (strayLease.scrub ∈ entriesOf (leaseFile roughSize [registerAt strayLease 2 2]) ∧
      strayLease.scrub ∉ entriesOf
        ((registerAt (leaseOf plainTopology 1 1 (60 * second)) 3 3).perform
        roughSize (leaseFile roughSize [registerAt strayLease 2 2])).1) := by
  decide +kernel

end Sample

end WeaverSSH.SessionRoute
