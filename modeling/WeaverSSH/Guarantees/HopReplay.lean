import WeaverSSH.Guarantees.Lifetime

/-!
# Replayed hop records

A node verifies chains one after the other with one cache of nonces. `verify` accepts a record while
the clock, set back by the skew allowed for, has not reached its expiry; the cache evicts it when
the clock itself has. In the time between the same chain is accepted again (`replayed_within_skew`).
-/

namespace WeaverSSH.HopProof

open AuthProof List Prod ReplayCache

section

variable [Unicode] [SHA256]

/-- One call of `verify`. -/
structure VerifyCall where
  nodeContext : NodeContext
  chain : Chain
  verifier : Text → List UInt8 → List UInt8 → Bool
  options : VerifyOptions
  clock : Time

def VerifyCall.now (call : VerifyCall) : Time := nowOr call.options.now call.clock

def VerifyCall.run (cache : Option NonceCache) (call : VerifyCall) :
    Option NonceCache × Except HopErr Unit :=
  verify cache call.nodeContext call.chain call.verifier call.options call.clock

/-- What is checked before the records: there are as many as there are nodes before this one. -/
def VerifyCall.Opened (call : VerifyCall) : Prop :=
  currentIndex call.nodeContext.normalized = .ok call.chain.hops.length ∧ call.chain.hops ≠ [] ∧
    call.chain.version = chainVersion ∧ call.chain.hops.length ≤ maxHops

def VerifyCall.walk (call : VerifyCall) (cache : Option NonceCache) (records : List SignedHop) :
    Option NonceCache × Except HopErr Unit :=
  verifyHops call.nodeContext.normalized call.verifier call.options call.now cache 0 [] records

variable {nodeContext : NodeContext} {verifier : Text → List UInt8 → List UInt8 → Bool}
  {options : VerifyOptions} {now : Time} {hops : List SignedHop}

/-- The first record ends the walk and what has not expired stays as it is; or it is admitted and
its nonce is new, it is stored, and the walk goes on from the next. -/
lemma verifyHops_cons (c : NonceCache) (record : ℕ) (previousDigest : Text) (signed : SignedHop) :
    (∃ c' e, c'.evict (unix now) = c.evict (unix now) ∧
      (Admitted nodeContext verifier options now record previousDigest signed →
        signed.nonce ∈ c.unexpired (unix now)) ∧ ∀ rest,
      verifyHops nodeContext verifier options now (some c) record previousDigest (signed :: rest) =
        (some c', .error e)) ∨
    ∃ digest, Admitted nodeContext verifier options now record previousDigest signed ∧
      signedHopDigest signed = .ok digest ∧
      (c.check signed.nonce signed.hop.expiresAtUnix (unix now)).2 = true ∧ ∀ rest,
      verifyHops nodeContext verifier options now (some c) record previousDigest (signed :: rest) =
        verifyHops nodeContext verifier options now
          (some (c.check signed.nonce signed.hop.expiresAtUnix (unix now)).1) (record + 1) digest
          rest := by
  cases hpassed : admitHop nodeContext verifier options now record previousDigest signed with
  | error e =>
    refine .inl ⟨c, e, rfl, fun hadmitted => ?_, fun rest => by rw [verifyHops, hpassed]⟩
    cases hpassed.symm.trans (admitHop_eq_ok.mpr ⟨hadmitted, rfl⟩)
  | ok hop =>
    obtain ⟨hadmitted, rfl⟩ := admitHop_eq_ok.mp hpassed
    obtain ⟨digest, hdigest⟩ := hadmitted.digest
    have hstore : checkAndStore (some c) (normalizeHop signed.hop).nonce
        (normalizeHop signed.hop).expiresAtUnix now =
        (some (c.check signed.nonce signed.hop.expiresAtUnix (unix now)).1,
          if (c.check signed.nonce signed.hop.expiresAtUnix (unix now)).2 then .ok ()
          else .error .replay) := rfl
    cases hcheck : (c.check signed.nonce signed.hop.expiresAtUnix (unix now)).2 with
    | false =>
      refine .inl ⟨(c.check signed.nonce signed.hop.expiresAtUnix (unix now)).1, .replay record, ?_,
        fun _ => ?_, fun rest => ?_⟩
      · rw [check_eq_false hcheck, evict_evict]
      · cases hseen : (c.evict (unix now)).seen signed.nonce with
        | none => simp [check, hseen] at hcheck
        | some expiry => exact ⟨expiry, hseen⟩
      · rw [verifyHops]
        simp [hpassed, hstore, hcheck]
    | true =>
      refine .inr ⟨digest, hadmitted, hdigest, rfl, fun rest => ?_⟩
      rw [verifyHops]
      simp [hpassed, hstore, hcheck, signedHopDigest_normalizeHop, hdigest]

/-- Walking over records stores their nonces one after the other; where all are accepted, all are
stored, and none was stored before with an expiry still to come. -/
lemma verifyHops_remembers : ∀ {c : NonceCache} {record : ℕ} {previousDigest : Text}
    {stored : List (Text × ℤ)} {t : ℤ}, c.Remembers stored t → t ≤ unix now →
    ∃ c' new, (verifyHops nodeContext verifier options now (some c) record previousDigest hops).1 =
        some c' ∧ c'.Remembers (new ++ stored) (unix now) ∧
      ((verifyHops nodeContext verifier options now (some c) record previousDigest hops).2 =
        .ok () → ∀ s ∈ hops, (s.nonce, s.hop.expiresAtUnix) ∈ new ∧
          ∀ p ∈ stored, p.1 = s.nonce → p.2 ≤ unix now) := by
  induction hops with
  | nil =>
    intro c record previousDigest stored t h ht
    exact ⟨c, [], rfl, h.mono ht, fun _ s hs => by cases hs⟩
  | cons signed rest ih =>
    intro c record previousDigest stored t h ht
    obtain ⟨c', e, hlive, -, hrun⟩ | ⟨digest, -, -, hcheck, hrun⟩ := @verifyHops_cons _ _
      nodeContext verifier options now c record previousDigest signed
    · rw [hrun]
      exact ⟨c', [], rfl, .of_evict (hlive ▸ h.evict ht), fun hok => by cases hok⟩
    · rw [hrun]
      obtain ⟨c', new, hcache, hremembers, haccept⟩ :=
        @ih _ (record + 1) digest _ _ (h.check_stored ht hcheck) le_rfl
      refine ⟨c', new ++ [(signed.nonce, signed.hop.expiresAtUnix)], hcache,
        by simpa using hremembers, fun hok s hs => ?_⟩
      rcases mem_cons.mp hs with rfl | hs
      · exact ⟨by simp, h.expired_of_check ht hcheck⟩
      · obtain ⟨hnew, hold⟩ := haccept hok s hs
        exact ⟨mem_append_left _ hnew, fun p hp => hold p (mem_cons_of_mem _ hp)⟩

/-- A call leaves the cache alone and fails, or leaves what walking over the records leaves. -/
lemma VerifyCall.run_cache (call : VerifyCall) (cache : Option NonceCache) :
    (¬ call.Opened ∧ ∃ e, call.run cache = (cache, .error e)) ∨
      call.Opened ∧ (call.run cache).1 = (call.walk cache call.chain.hops).1 ∧
      ((call.run cache).2 = .ok () → (call.walk cache call.chain.hops).2 = .ok ()) := by
  unfold VerifyCall.run verify VerifyCall.walk VerifyCall.now
  dsimp only
  cases hindex : currentIndex call.nodeContext.normalized with
  | error e =>
    refine .inl ⟨fun h => ?_, e, rfl⟩
    cases hindex.symm.trans h.1
  | ok index =>
    dsimp only
    split_ifs with hzero hguard
    · refine .inl ⟨fun h => ?_, _, rfl⟩
      cases hindex.symm.trans h.1
      exact h.2.1 (length_eq_zero_iff.mp hzero)
    · refine .inl ⟨fun h => ?_, _, rfl⟩
      cases hindex.symm.trans h.1
      exact absurd h.2.2.2 (by simpa [h.2.2.1] using hguard)
    all_goals
      simp only [Bool.or_eq_true, decide_eq_true_eq, not_or, not_not, not_lt] at hguard
      obtain ⟨⟨hversion, rfl⟩, hmax⟩ := hguard
      refine .inr ⟨⟨hindex, fun hnil => hzero (hnil ▸ rfl), hversion, hmax⟩, ?_⟩
      cases verifyHops call.nodeContext.normalized call.verifier call.options
          (nowOr call.options.now call.clock) cache 0 [] call.chain.hops with
      | mk c result =>
        cases result with
        | error e => exact ⟨rfl, fun h => by cases h⟩
        | ok u => exact ⟨rfl, fun _ => rfl⟩

/-- The calls of a sequence with one cache, each with whether it succeeds. -/
def verdicts : Option NonceCache → List VerifyCall → List (VerifyCall × Bool)
  | _, [] => []
  | cache, call :: rest =>
    (call, (call.run cache).2.isOk) :: verdicts (call.run cache).1 rest

/-- No skew is allowed for, or every record is presented before it expires. -/
def VerifyCall.Timely (call : VerifyCall) : Prop :=
  call.options.clockSkew ≤ 0 ∨ ∀ s ∈ call.chain.hops, unix call.now < s.hop.expiresAtUnix

lemma VerifyCall.run_remembers (call : VerifyCall) {c : NonceCache} {stored : List (Text × ℤ)}
    {t : ℤ} (h : c.Remembers stored t) (ht : t ≤ unix call.now) :
    ∃ c' new, (call.run (some c)).1 = some c' ∧ c'.Remembers (new ++ stored) (unix call.now) ∧
      ((call.run (some c)).2 = .ok () → ∀ s ∈ call.chain.hops,
        (s.nonce, s.hop.expiresAtUnix) ∈ new ∧
          ∀ p ∈ stored, p.1 = s.nonce → p.2 ≤ unix call.now) := by
  rcases call.run_cache (some c) with ⟨-, e, hrun⟩ | ⟨-, hcache, hok⟩
  · refine ⟨c, [], congrArg fst hrun, h.mono ht, fun hok => ?_⟩
    cases (congrArg snd hrun).symm.trans hok
  · obtain ⟨c', new, hhops, hremembers, haccept⟩ := verifyHops_remembers h ht
    exact ⟨c', new, hcache.trans hhops, hremembers, fun hrun => haccept (hok hrun)⟩

omit [Unicode] [SHA256] in
lemma VerifyOptions.skew_of_nonpos {options : VerifyOptions} (h : options.clockSkew ≤ 0) :
    options.skew = 0 := by
  unfold VerifyOptions.skew
  split_ifs with hneg
  · rfl
  · exact le_antisymm h (not_lt.mp hneg)

lemma VerifyCall.live {call : VerifyCall} {cache : Option NonceCache} (htimely : call.Timely)
    (hok : (call.run cache).2 = .ok ()) :
    ∀ s ∈ call.chain.hops, unix call.now < s.hop.expiresAtUnix := by
  rcases htimely with hskew | hlive
  · intro s hs
    obtain ⟨index, -, -, -, -, -, hhops, -⟩ :=
      verify_eq_ok.mp (Prod.ext rfl hok : call.run cache = ((call.run cache).1, .ok ()))
    obtain ⟨i, hi⟩ := mem_iff_getElem?.mp hs
    obtain ⟨digest, hadmitted⟩ := (verifyHops_ok hhops).admitted hi
    have hunexpired := hadmitted.unexpired
    rwa [VerifyOptions.skew_of_nonpos hskew, sub_zero] at hunexpired
  · exact hlive

/-- What a run may not do: accept a nonce in two calls. -/
def NoncesApart (a b : VerifyCall × Bool) : Prop :=
  a.2 = true → b.2 = true → ∀ s ∈ a.1.chain.hops, ∀ s' ∈ b.1.chain.hops, s.nonce ≠ s'.nonce

omit [Unicode] [SHA256] in
lemma isOk_iff {α : Type} {e : Except α Unit} : e.isOk = true ↔ e = .ok () := by
  cases e with
  | error e | ok u => simp [Except.isOk, Except.toBool]

lemma verdicts_apart {expiry : Text → ℤ} {calls : List VerifyCall} :
    ∀ {c : NonceCache} {stored : List (Text × ℤ)} {t : ℤ}, c.Remembers stored t →
    (∀ call ∈ calls, t ≤ unix call.now) → (calls.Pairwise fun a b => a.now ≤ b.now) →
    (∀ v ∈ verdicts (some c) calls, v.2 = true → v.1.Timely ∧
      ∀ s ∈ v.1.chain.hops, s.hop.expiresAtUnix = expiry s.nonce) →
    (∀ v ∈ verdicts (some c) calls, v.2 = true → ∀ s ∈ v.1.chain.hops,
      (s.nonce, expiry s.nonce) ∉ stored) ∧ (verdicts (some c) calls).Pairwise NoncesApart := by
  -- along the run, with what was stored so far
  induction calls with
  | nil => exact fun _ _ _ _ => ⟨by simp [verdicts], .nil⟩
  | cons call rest ih =>
    intro c stored t h hfirst hclock hgood
    obtain ⟨c', new, hcache, hremembers, haccept⟩ :=
      call.run_remembers h (hfirst call mem_cons_self)
    obtain ⟨hlater, hrest⟩ := pairwise_cons.mp hclock
    rw [verdicts, hcache] at hgood ⊢
    obtain ⟨hfirst', hgood⟩ := forall_mem_cons.mp hgood
    obtain ⟨hfresh, hpairs⟩ := ih hremembers (fun b hb => unix_mono (hlater b hb)) hrest hgood
    refine ⟨fun v hv hok s hs => ?_, pairwise_cons.mpr ⟨fun v hv hok hok' s hs s' hs' => ?_,
      hpairs⟩⟩
    · rcases mem_cons.mp hv with rfl | hv
      · -- what is stored of this nonce has expired, and the record has not
        intro hmem
        have hrun := isOk_iff.mp hok
        have hlive := VerifyCall.live (hfirst' hok).1 hrun s hs
        have hpast := (haccept hrun s hs).2 _ hmem rfl
        rw [(hfirst' hok).2 s hs] at hlive
        exact absurd hpast (not_le.mpr hlive)
      · exact fun hmem => hfresh v hv hok s hs (mem_append_right _ hmem)
    · intro hnonce
      have hnew := (haccept (isOk_iff.mp hok) s hs).1
      rw [(hfirst' hok).2 s hs, hnonce] at hnew
      exact hfresh v hv hok' s' hs' (mem_append_left _ hnew)

/-- **A nonce is accepted in one chain only.** In every sequence of calls with one cache, by a
clock that does not go back, no nonce is in the chains of two successful calls, where every
successful call is timely and each nonce always comes with one expiry in them. -/
theorem hop_nonces_once (c : NonceCache) (calls : List VerifyCall)
    (hclock : calls.Pairwise fun a b => a.now ≤ b.now) (expiry : Text → ℤ)
    (hgood : ∀ v ∈ verdicts (some c) calls, v.2 = true → v.1.Timely ∧
      ∀ s ∈ v.1.chain.hops, s.hop.expiresAtUnix = expiry s.nonce) :
    (verdicts (some c) calls).Pairwise NoncesApart := by
  cases calls with
  | nil => exact .nil
  | cons call rest =>
    refine (verdicts_apart (t := unix call.now) ReplayCache.Remembers.nil ?_ hclock hgood).2
    intro b hb
    rcases mem_cons.mp hb with rfl | hb
    · exact le_rfl
    · exact unix_mono (rel_of_pairwise_cons hclock hb)

/-! ### Chains that are refused -/

/-- The same nonces are unexpired after a walk exactly if whatever linked records with new nonces
the chain begins with have expired. -/
lemma verifyHops_harmless : ∀ {c : NonceCache} {record : ℕ} {previousDigest : Text}, ∃ c',
    (verifyHops nodeContext verifier options now (some c) record previousDigest hops).1 = some c' ∧
    (c'.unexpired (unix now) = c.unexpired (unix now) ↔ ∀ records, records <+: hops →
      Linked nodeContext verifier options now record previousDigest records →
      (∀ s ∈ records, s.nonce ∉ c.unexpired (unix now)) →
      ∀ s ∈ records, s.hop.expiresAtUnix ≤ unix now) := by
  induction hops with
  | nil =>
    intro c record previousDigest
    refine ⟨c, rfl, iff_of_true rfl fun records hrecords _ _ s hs => ?_⟩
    rw [prefix_nil.mp hrecords] at hs
    cases hs
  | cons signed rest ih =>
    intro c record previousDigest
    obtain ⟨c', e, hlive, hseen, hrun⟩ | ⟨digest, hadmitted, hdigest, hcheck, hrun⟩ :=
      @verifyHops_cons _ _ nodeContext verifier options now c record previousDigest signed
    · refine ⟨c', by rw [hrun], iff_of_true ?_ fun records hrecords hlinked hnew s hs => ?_⟩
      · rw [unexpired, hlive, unexpired]
      · rcases prefix_cons_iff.mp hrecords with rfl | ⟨t, rfl, -⟩
        · cases hs
        · exact absurd (hseen hlinked.1) (hnew signed mem_cons_self)
    · obtain ⟨c', hcache, hiff⟩ := @ih (c.check signed.nonce signed.hop.expiresAtUnix (unix now)).1
        (record + 1) digest
      have hfresh : signed.nonce ∉ c.unexpired (unix now) := by
        rintro ⟨e, he⟩
        cases (check_eq_true hcheck).1.symm.trans he
      -- a nonce that is stored with its expiry still to come stays, and was not there before
      have hexpired (hsame : c'.unexpired (unix now) = c.unexpired (unix now)) :
          signed.hop.expiresAtUnix ≤ unix now := by
        by_contra hlive
        obtain ⟨_, new, hcache', hremembers, -⟩ := @verifyHops_remembers _ _ nodeContext verifier
          options now rest _ (record + 1) digest _ _
          ((ReplayCache.Remembers.nil (t := unix now)).check_stored le_rfl hcheck) le_rfl
        cases hcache.symm.trans hcache'
        exact hfresh (hsame ▸ ⟨_, hremembers.evict le_rfl
          (signed.nonce, signed.hop.expiresAtUnix) (by simp) (not_le.mp hlive)⟩)
      have htrace (h : signed.hop.expiresAtUnix ≤ unix now) :
          (c.check signed.nonce signed.hop.expiresAtUnix (unix now)).1.unexpired (unix now) =
            c.unexpired (unix now) := by
        rw [unexpired, evict_check hcheck h, unexpired]
      refine ⟨c', by rw [hrun, hcache], fun hsame records hrecords hlinked hnew s hs => ?_,
        fun hall => ?_⟩
      · rcases prefix_cons_iff.mp hrecords with rfl | ⟨t, rfl, ht⟩
        · cases hs
        · obtain ⟨-, digest', hdigest', hrest⟩ := hlinked
          obtain rfl : digest' = digest := Except.ok.inj (hdigest'.symm.trans hdigest)
          have hback := htrace (hexpired hsame)
          rcases mem_cons.mp hs with rfl | hs
          · exact hexpired hsame
          · refine hiff.mp (hsame.trans hback.symm) t ht hrest (fun s hs => ?_) s hs
            rw [hback]
            exact hnew s (mem_cons_of_mem _ hs)
      · have hback := htrace (hall [signed] (by simp) ⟨hadmitted, digest, hdigest, trivial⟩
          (by simpa using hfresh) signed mem_cons_self)
        rw [← hback, hiff]
        intro t ht hrest hnew s hs
        rw [hback] at hnew
        refine hall (signed :: t) (by simpa using ht) ⟨hadmitted, digest, hdigest, hrest⟩ ?_ s
          (mem_cons_of_mem _ hs)
        simpa using ⟨hfresh, hnew⟩

/-- **What a refused chain leaves behind.** A call that fails has no effect on the unexpired nonces
exactly if it fails before the records, or whatever records the chain begins with that are linked
and have nonces that are new to the cache have expired by the clock of the call. -/
theorem refused_chain_harmless (call : VerifyCall) (c c' : NonceCache) (e : HopErr)
    (h : call.run (some c) = (some c', .error e)) :
    c'.unexpired (unix call.now) = c.unexpired (unix call.now) ↔
      (call.Opened → ∀ records, records <+: call.chain.hops →
        Linked call.nodeContext.normalized call.verifier call.options call.now 0 [] records →
        (∀ s ∈ records, s.nonce ∉ c.unexpired (unix call.now)) →
        ∀ s ∈ records, s.hop.expiresAtUnix ≤ unix call.now) := by
  rcases call.run_cache (some c) with ⟨hclosed, e', hrun⟩ | ⟨hopened, hrun, -⟩
  · cases hrun.symm.trans h
    exact iff_of_true rfl fun hopened => absurd hopened hclosed
  · obtain ⟨c'', hcache, hiff⟩ := @verifyHops_harmless _ _ call.nodeContext.normalized
      call.verifier call.options call.now call.chain.hops c 0 []
    cases (hrun.trans hcache).symm.trans (congrArg fst h)
    exact hiff.trans ⟨fun hall _ => hall, fun hall => hall hopened⟩

end

/-! ### A chain that expires at 61 seconds, with a skew of ten -/

attribute [local instance] asciiCase sha256

/-- The chain of one hop, presented at a second. -/
def presentedAt (s : ℤ) : VerifyCall where
  nodeContext := contextFor 60
  chain := chainFor 60
  verifier := nodeVerifier
  options := { now := s * second, maxTTL := 60 * second, clockSkew := 10 * second }
  clock := 0

/-- Before it expires the chain is accepted once. -/
theorem hop_nonces_once_early :
    (verdicts (some .empty) [presentedAt 10, presentedAt 11]).map snd = [true, false] ∧
      (verdicts (some .empty) [presentedAt 10, presentedAt 11]).Pairwise NoncesApart := by
  have hgood : ∀ call ∈ [presentedAt 10, presentedAt 11], ∀ s ∈ call.chain.hops,
      unix call.now < s.hop.expiresAtUnix ∧ s.hop.expiresAtUnix = 61 := by
    decide +kernel
  refine ⟨by decide +kernel, hop_nonces_once .empty _ (by decide +kernel) (fun _ => 61) ?_⟩
  intro v hv _
  have hcall : v.1 ∈ [presentedAt 10, presentedAt 11] := by
    simp only [verdicts, mem_cons, not_mem_nil, or_false] at hv ⊢
    exact hv.imp (congrArg fst) (congrArg fst)
  exact ⟨.inr fun s hs => (hgood v.1 hcall s hs).1, fun s hs => (hgood v.1 hcall s hs).2⟩

/-- Once it has expired, and until the skew is used up, the same chain is accepted again. -/
theorem replayed_within_skew :
    (verdicts (some .empty) [presentedAt 65, presentedAt 66]).map snd = [true, true] ∧
      (presentedAt 65).now ≤ (presentedAt 66).now := by
  decide +kernel

/-- The chain with a blank after the node it leads to: the record passes, and the chain is
refused. -/
def blankAfter (s : ℤ) : VerifyCall :=
  { presentedAt s with
    chain := { chainFor 60 with hops := (chainFor 60).hops.map fun signed =>
      { signed with hop.toNode := text "b " } } }

/-- A refused chain that has expired, and was let pass by the skew, leaves the cache as it was. -/
theorem refused_chain_harmless_late : ∃ c' e,
    (blankAfter 65).run (some .empty) = (some c', .error e) ∧
      c'.unexpired (unix (blankAfter 65).now) =
        ReplayCache.unexpired .empty (unix (blankAfter 65).now) := by
  obtain ⟨c', -, hcache, -⟩ := (blankAfter 65).run_remembers (c := .empty) (.nil (t := 0))
    (by decide +kernel)
  have hrefused : ((blankAfter 65).run (some .empty)).2.isOk = false := by decide +kernel
  have hexpired : ∀ s ∈ (blankAfter 65).chain.hops,
      s.hop.expiresAtUnix ≤ unix (blankAfter 65).now := by
    decide +kernel
  cases hresult : ((blankAfter 65).run (some .empty)).2 with
  | ok u =>
    rw [hresult] at hrefused
    cases hrefused
  | error e =>
    have hrun : (blankAfter 65).run (some .empty) = (some c', .error e) :=
      Prod.ext hcache hresult
    refine ⟨c', e, hrun, (refused_chain_harmless _ _ _ _ hrun).mpr ?_⟩
    exact fun _ records hrecords _ _ s hs => hexpired s (hrecords.subset hs)

theorem refused_chain_remembered :
    (verdicts (some .empty) [blankAfter 10, presentedAt 10]).map snd = [false, false] ∧
      (verdicts (some .empty) [presentedAt 10]).map snd = [true] := by
  decide +kernel

end WeaverSSH.HopProof
