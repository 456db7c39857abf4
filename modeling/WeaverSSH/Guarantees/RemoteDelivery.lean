import WeaverSSH.Evidence.RemoteQueueWire
import WeaverSSH.Framework.Transition

/-!
# What a remote anchor queue keeps

A queue is to keep the heads it took, and what it knows of their delivery, over failures of the
disk, callers that interleave and any number of reopens. Where `Rename` fails twice all heads are
gone (`heads_lost`). Besides, a file that was replaced may be reported as one that was not, a mark
of delivery may be in memory only, a `Flush` that outlives its queue writes over the next one's
file, and heads with stray bytes are not known again. `QueueOp.Safe` excludes these; the invariant
is `World.Sound`.
-/

namespace WeaverSSH.Evidence

open Transition List AnchorThresholdPolicy

/-! ## Receipts -/

variable {r : AnchorReceipt}

lemma mem_mergeAnchorReceipts {existing incoming : List AnchorReceipt}
    (h : r ∈ mergeAnchorReceipts existing incoming) : r ∈ existing ∨ r ∈ incoming := by
  have hput : ∀ (l : List AnchorReceipt) (m : OrderedMap Text AnchorReceipt)
      (entry : Text × AnchorReceipt),
      entry ∈ (l.foldl (fun m receipt => m.put receipt.provider receipt) m).entries →
        entry ∈ m.entries ∨ entry.2 ∈ l := by
    intro l
    induction l with
    | nil => exact fun m entry hentry => .inl hentry
    | cons receipt l ih =>
      intro m entry hentry
      rcases ih _ entry hentry with hentry | hmem
      · rcases OrderedMap.mem_insert hentry with rfl | hentry
        · exact .inr mem_cons_self
        · exact .inl hentry
      · exact .inr (mem_cons_of_mem receipt hmem)
  obtain ⟨entry, hentry, rfl⟩ := mem_map.mp h
  rcases hput _ _ entry ((mem_insertionSort _).mp hentry) with hnil | hmem
  · cases hnil
  · exact mem_append.mp hmem

lemma receipts_ne_nil_of_verify [Unicode] {policy : AnchorThresholdPolicy}
    {accepts : Text → Head → AnchorReceipt → Bool} {head : Head} {receipts : List AnchorReceipt}
    (h : policy.verify accepts head receipts = .ok ()) : receipts ≠ [] := by
  simp only [verify, checks_ok] at h
  obtain ⟨_, -, hcount⟩ := h
  rintro rfl
  exact absurd (policy.positive.trans_le hcount) (lt_irrefl 0)

section

variable [Unicode] {head : Head} {d next : AgentRemoteDelivery} {disk : Disk}
  {items : List AgentRemoteDelivery} {index i : ℕ} {w : World} {q : Queue}

lemma AnchorReceipt.validateFor_self {name : Text}
    (h : r.validateFor name head = .ok ()) : r.validateFor r.provider head = .ok () := by
  simp only [AnchorReceipt.validateFor, checks_ok] at h ⊢
  obtain ⟨statement, hstatement, ⟨⟨hversion, -⟩, hexpected⟩, hrest⟩ := h
  exact ⟨statement, hstatement, ⟨⟨hversion, trivial⟩, hexpected⟩, hrest⟩

lemma mem_anchor {policy : AnchorThresholdPolicy} {answers : Text → Except Text AnchorReceipt}
    (h : r ∈ (policy.anchor answers head).1) :
    (∃ name, answers name = .ok r) ∧ r.validateFor r.provider head = .ok () := by
  unfold anchor at h
  cases hstatement : newAnchorStatement head with
  | error e =>
    rw [hstatement] at h
    cases h
  | ok _ =>
    rw [hstatement] at h
    have hmem : r ∈ (policy.providerNames.map fun name =>
        answer head name (answers name)).filterMap Except.toOption := by
      dsimp only at h
      split_ifs at h
      · exact h
      · exact h
    obtain ⟨result, hresult, hsome⟩ := mem_filterMap.mp hmem
    obtain ⟨name, -, rfl⟩ := mem_map.mp hresult
    cases hanswer : answers name with
    | error e =>
      rw [hanswer] at hsome
      cases hsome
    | ok receipt =>
      rw [hanswer, answer] at hsome
      cases hvalid : receipt.validateFor name head with
      | error e =>
        rw [hvalid] at hsome
        cases hsome
      | ok _ =>
        rw [hvalid] at hsome
        obtain rfl : receipt = r := Option.some.inj hsome
        exact ⟨⟨name, hanswer⟩, AnchorReceipt.validateFor_self hvalid⟩

/-! ## Items -/

lemma AgentRemoteDelivery.Sound.attempt {policy : AnchorThresholdPolicy}
    {config : AgentRemoteQueueConfig}
    {providers : Providers} {attemptedAt settledAt : Time} (h : d.Sound)
    (hpending : d.delivered = false)
    (hlegible : ∀ name r, providers.answers name = .ok r → r.Legible)
    (hclock : 0 < stamp settledAt) :
    let result := policy.anchor providers.answers d.head
    let next := d.attempt policy config providers attemptedAt settledAt result.1 result.2
    next.1.Sound ∧ next.1.head = d.head ∧ next.1.delivered = next.2 ∧
      next.1.receipts = mergeAnchorReceipts d.receipts result.1 ∧
      (next.2 = true ↔ policy.verify providers.accepts d.head
        (mergeAnchorReceipts d.receipts result.1) = .ok ()) := by
  intro result next
  have hreceipts : ∀ r ∈ mergeAnchorReceipts d.receipts result.1,
      r.Legible ∧ r.validateFor r.provider d.head = .ok () := by
    intro r hr
    rcases mem_mergeAnchorReceipts hr with hr | hr
    · exact ⟨h.legible.receipts r hr, h.receipts r hr⟩
    · obtain ⟨⟨name, hanswer⟩, hvalid⟩ := mem_anchor hr
      exact ⟨hlegible name r hanswer, hvalid⟩
  cases hverify : policy.verify providers.accepts d.head
    (mergeAnchorReceipts d.receipts result.1) with
  | ok _ =>
    dsimp only [next, AgentRemoteDelivery.attempt]
    rw [hverify]
    refine ⟨⟨⟨h.legible.version, h.legible.head, fun r hr => (hreceipts r hr).1⟩,
      ⟨h.sized.enqueuedAtUnix, isInt64_int64 _, isInt64_int64 _, (show IsInt64 0 by decide),
        isInt64_int64 _⟩,
      h.version, h.enqueued, h.head, fun r hr => (hreceipts r hr).2, fun _ =>
        receipts_ne_nil_of_verify hverify⟩,
      rfl, decide_eq_true hclock, rfl, ?_⟩
    simp
  | error e =>
    dsimp only [next, AgentRemoteDelivery.attempt]
    rw [hverify]
    refine ⟨⟨⟨h.legible.version, h.legible.head, fun r hr => (hreceipts r hr).1⟩,
      ⟨h.sized.enqueuedAtUnix, isInt64_int64 _, isInt64_int64 _, isInt64_int64 _,
        h.sized.deliveredAtUnix⟩, h.version, h.enqueued, h.head, fun r hr => (hreceipts r hr).2,
      fun hdelivered => ?_⟩, rfl, hpending, rfl, ?_⟩
    · exact absurd (hpending.symm.trans hdelivered) (by decide)
    · simp

/-! ## The file -/

def payload (items : List AgentRemoteDelivery) : List UInt8 :=
  Json.marshal (⟨agentRemoteQueueVersion, items⟩ : AgentRemoteQueueState).json ++ [newline]

/-- `persistState` returns no error. -/
def Disk.succeeds (disk : Disk) : Bool :=
  disk.prepared && (disk.renamed || disk.removed && disk.renamedAgain) && disk.chmod

/-- Once the temporary file is there, the file is replaced without an error, unless it can be
neither renamed nor removed. -/
def Disk.Faithful (disk : Disk) : Prop :=
  disk.prepared = true → disk.renamed = true ∨ disk.removed = true →
    (disk.renamed = true ∨ disk.renamedAgain = true) ∧ disk.chmod = true

omit [Unicode] in
lemma persistState_of_faithful (h : disk.Faithful) (file : Option (List UInt8))
    (items : List AgentRemoteDelivery) : persistState file items disk =
      if disk.succeeds then (some (payload items), true) else (file, false) := by
  obtain ⟨prepared, renamed, removed, again, chmod⟩ := disk
  unfold Disk.Faithful at h
  cases prepared
  · rfl
  · cases renamed
    · cases removed
      · rfl
      · obtain ⟨hagain, hchmod⟩ := h rfl (.inr rfl)
        obtain rfl : again = true := hagain.resolve_left nofun
        obtain rfl : chmod = true := hchmod
        rfl
    · obtain ⟨-, hchmod⟩ := h rfl (.inl rfl)
      obtain rfl : chmod = true := hchmod
      rfl

/-- Items that a queue may hold. -/
structure SoundItems (items : List AgentRemoteDelivery) : Prop where
  sound : ∀ d ∈ items, d.Sound
  distinct : (items.map fun d => d.head).Nodup

lemma SoundItems.clone (h : SoundItems items) :
    items.map AgentRemoteDelivery.clone = items.map AgentRemoteDelivery.scrub :=
  map_congr_left fun d hd =>
    AgentRemoteDelivery.clone_eq (h.sound d hd).legible (h.sound d hd).sized

lemma SoundItems.load (h : SoundItems items) :
    loadState (payload (items.map AgentRemoteDelivery.scrub)) =
      .ok (items.map AgentRemoteDelivery.scrub) := by
  refine loadState_payload ?_ ?_ ?_
  · intro d hd
    obtain ⟨e, he, rfl⟩ := mem_map.mp hd
    exact (h.sound e he).scrub
  · rw [map_map]
    exact h.distinct
  · intro d hd
    obtain ⟨e, -, rfl⟩ := mem_map.mp hd
    show { e with lastError := WeaverSSH.scrub (WeaverSSH.scrub e.lastError) } = e.scrub
    rw [scrub_of_valid (validUTF8_scrub _)]
    rfl

lemma World.persistLocked_of_faithful (hdisk : disk.Faithful) (w : World) (h : SoundItems items) :
    w.persistLocked items disk = if disk.succeeds then ({ w with
        file := some (payload (items.map AgentRemoteDelivery.scrub))
        saved := some (items.map AgentRemoteDelivery.scrub) }, true) else (w, false) := by
  unfold World.persistLocked
  dsimp only
  rw [h.clone, persistState_of_faithful hdisk]
  cases disk.succeeds with
  | false | true => rfl

/-! ## The invariant -/

/-- A `Flush` has met the heads that it tried, and tried none twice. -/
structure Flight.Fresh (f : Flight) : Prop where
  tried : f.tried.Nodup
  met : ∀ head ∈ f.tried, remoteHeadKey head ∈ f.attemptedHeads

/-- The `Flush` that is under way. -/
def Flush.flight : Flush → Option Flight
  | .idle => none
  | .looping f => some f
  | .anchoring f _ _ => some f

/-- Items with the same head that are both pending, or both delivered with the same receipts. -/
structure Agrees (d e : AgentRemoteDelivery) : Prop where
  head : d.head = e.head
  delivered : d.delivered = e.delivered
  receipts : d.delivered = true → d.receipts = e.receipts

def Mark.Held (m : Mark) (items : List AgentRemoteDelivery) : Prop :=
  ∃ d ∈ items, d.head = m.head ∧ d.delivered = true ∧ d.receipts = m.receipts

structure Queue.Sound (marked : List Mark) (q : Queue) : Prop where
  items : SoundItems q.items
  marked : ∀ d ∈ q.items, d.delivered = true → ∃ m ∈ marked, m.head = d.head ∧
    m.receipts = d.receipts
  fresh : ∀ f, q.flush.flight = some f → f.Fresh
  /-- The item that the providers are asked for is not delivered. -/
  pending : ∀ f index item, q.flush = .anchoring f index item →
    ∃ d, q.items[index]? = some d ∧ d.delivered = false

/-- What was saved, and that it is what the last queue has. -/
structure World.Saved (w : World) (items : List AgentRemoteDelivery) : Prop where
  sound : SoundItems items
  scrubbed : items.map AgentRemoteDelivery.scrub = items
  file : w.file = some (payload items)
  promised : ∀ head ∈ w.promised, head ∈ items.map fun d => d.head
  held : ∀ m ∈ w.marked, m.Held items
  marked : ∀ d ∈ items, d.delivered = true → ∃ m ∈ w.marked, m.head = d.head ∧
    m.receipts = d.receipts
  agrees : ∀ (i : ℕ) (q : Queue), w.queues[i]? = some q → i + 1 = w.queues.length →
    List.Forall₂ Agrees q.items items

structure World.Sound (policy : AnchorThresholdPolicy) (w : World) : Prop where
  queues : ∀ (i : ℕ) (q : Queue), w.queues[i]? = some q → q.Sound w.marked
  closed : ∀ (i : ℕ) (q : Queue), w.queues[i]? = some q → i + 1 < w.queues.length → q.closed = true
  verified : ∀ m ∈ w.marked, policy.verify m.accepts m.head m.receipts = .ok ()
  unsaved : w.saved = none → w = {}
  saved : ∀ items, w.saved = some items → w.Saved items

/-! ## Steps -/

omit [Unicode] in
lemma forall₂_set {l l' : List AgentRemoteDelivery} (h : List.Forall₂ Agrees l l')
    (hd : l[index]? = some d)
    (hnext : ∀ e, Agrees d e → Agrees next e) : List.Forall₂ Agrees (l.set index next) l' := by
  induction h generalizing index with
  | nil => cases hd
  | cons hfirst hrest ih =>
    cases index with
    | zero =>
      obtain rfl := Option.some.inj hd
      exact .cons (hnext _ hfirst) hrest
    | succ index => exact .cons hfirst (ih hd)

variable {queues : List Queue}

omit [Unicode] in
lemma getElem?_set_cases {j : ℕ} {q' found : Queue} (h : (queues.set i q')[j]? = some found) :
    (j = i ∧ found = q') ∨ (j ≠ i ∧ queues[j]? = some found) := by
  rw [List.getElem?_set] at h
  split_ifs at h with hij hlt
  · exact .inl ⟨hij.symm, (Option.some.inj h).symm⟩
  · exact .inr ⟨Ne.symm hij, h⟩

variable {policy : AnchorThresholdPolicy} {config : AgentRemoteQueueConfig}

lemma World.Sound.exists_saved (h : w.Sound policy)
    (hq : w.queues[i]? = some q) : ∃ items, w.saved = some items ∧ w.Saved items := by
  cases hsaved : w.saved with
  | none =>
    rw [h.unsaved hsaved] at hq
    cases hq
  | some items => exact ⟨items, rfl, h.saved items hsaved⟩

lemma World.Sound.update (h : w.Sound policy) {q' : Queue}
    (hq : w.queues[i]? = some q) (hclosed : q.closed = true → q'.closed = true)
    (hsound : q'.Sound w.marked)
    (hagrees : ∀ items, List.Forall₂ Agrees q.items items → List.Forall₂ Agrees q'.items items) :
    World.Sound policy { w with queues := w.queues.set i q' } := by
  obtain ⟨items, hitems, hsaved⟩ := h.exists_saved hq
  refine ⟨?_, ?_, h.verified, fun hnone => ?_, fun items' hitems' => ?_⟩
  · intro j found hfound
    rcases getElem?_set_cases hfound with ⟨-, rfl⟩ | ⟨-, hfound⟩
    · exact hsound
    · exact h.queues j found hfound
  · intro j found hfound hstale
    rw [length_set] at hstale
    rcases getElem?_set_cases hfound with ⟨rfl, rfl⟩ | ⟨-, hfound⟩
    · exact hclosed (h.closed j q hq hstale)
    · exact h.closed j found hfound hstale
  · rw [hitems] at hnone
    cases hnone
  · obtain rfl : items = items' := Option.some.inj (hitems.symm.trans hitems')
    refine ⟨hsaved.sound, hsaved.scrubbed, hsaved.file, hsaved.promised, hsaved.held,
      hsaved.marked, ?_⟩
    intro j found hfound hlast
    rw [length_set] at hlast
    rcases getElem?_set_cases hfound with ⟨rfl, rfl⟩ | ⟨-, hfound⟩
    · exact hagrees items (hsaved.agrees j q hq hlast)
    · exact hsaved.agrees j found hfound hlast

lemma World.Sound.save (h : w.Sound policy) {q' : Queue}
    (hq : w.queues[i]? = some q) (hlast : i + 1 = w.queues.length) {new : List Mark}
    {promise : List Head} (hsound : q'.Sound (w.marked ++ new))
    (hheads : ∀ d ∈ q.items, d.head ∈ q'.items.map fun d => d.head)
    (hkept : ∀ d ∈ q.items, d.delivered = true →
      ∃ e ∈ q'.items, e.head = d.head ∧ e.delivered = true ∧ e.receipts = d.receipts)
    (hnew : ∀ m ∈ new, policy.verify m.accepts m.head m.receipts = .ok () ∧ m.Held q'.items)
    (hpromise : ∀ head ∈ promise, head ∈ q'.items.map fun d => d.head) : World.Sound policy {
      file := some (payload (q'.items.map AgentRemoteDelivery.scrub)), queues := w.queues.set i q',
      saved := some (q'.items.map AgentRemoteDelivery.scrub), promised := w.promised ++ promise,
      marked := w.marked ++ new } := by
  obtain ⟨items, hitems, hsaved⟩ := h.exists_saved hq
  have hagrees := hsaved.agrees i q hq hlast
  have hmap : (q'.items.map AgentRemoteDelivery.scrub).map (fun d => d.head) =
      q'.items.map fun d => d.head := by
    rw [map_map]
    rfl
  have hscrub {m : Mark} (hm : m.Held q'.items) :
      m.Held (q'.items.map AgentRemoteDelivery.scrub) := by
    obtain ⟨d, hd, hheld⟩ := hm
    exact ⟨d.scrub, mem_map_of_mem hd, hheld⟩
  refine ⟨?_, ?_, ?_, (fun hnone => nomatch hnone), fun items' hitems' => ?_⟩
  · intro j found hfound
    rcases getElem?_set_cases hfound with ⟨-, rfl⟩ | ⟨-, hfound⟩
    · exact hsound
    · obtain ⟨hsoundItems, hmarked, hfresh, hpending⟩ := h.queues j found hfound
      refine ⟨hsoundItems, fun d hd hdelivered => ?_, hfresh, hpending⟩
      obtain ⟨m, hm, hmark⟩ := hmarked d hd hdelivered
      exact ⟨m, mem_append_left _ hm, hmark⟩
  · intro j found hfound hstale
    rw [length_set] at hstale
    rcases getElem?_set_cases hfound with ⟨rfl, rfl⟩ | ⟨-, hfound⟩
    · omega
    · exact h.closed j found hfound hstale
  · intro m hm
    rcases mem_append.mp hm with hm | hm
    · exact h.verified m hm
    · exact (hnew m hm).1
  · obtain rfl := Option.some.inj hitems'
    refine ⟨⟨?_, ?_⟩, ?_, rfl, ?_, ?_, ?_, ?_⟩
    · intro d hd
      obtain ⟨e, he, rfl⟩ := mem_map.mp hd
      exact (hsound.items.sound e he).scrub
    · rw [hmap]
      exact hsound.items.distinct
    · rw [map_map]
      refine map_congr_left fun d _ => ?_
      show { d with lastError := WeaverSSH.scrub (WeaverSSH.scrub d.lastError) } = d.scrub
      rw [scrub_of_valid (validUTF8_scrub _)]
      rfl
    · intro head hhead
      rw [hmap]
      rcases mem_append.mp hhead with hhead | hhead
      · obtain ⟨d, hd, rfl⟩ := mem_map.mp (hsaved.promised head hhead)
        obtain ⟨e, he, hsame⟩ := exists_of_mem_right hagrees hd
        rw [← hsame.head]
        exact hheads e he
      · exact hpromise head hhead
    · intro m hm
      rcases mem_append.mp hm with hm | hm
      · obtain ⟨d, hd, hhead, hdelivered, hreceipts⟩ := hsaved.held m hm
        obtain ⟨e, he, hsame⟩ := exists_of_mem_right hagrees hd
        obtain ⟨e', he', hhead', hdelivered', hreceipts'⟩ :=
          hkept e he (hsame.delivered.trans hdelivered)
        refine hscrub ⟨e', he', ?_, hdelivered', ?_⟩
        · rw [hhead', hsame.head, hhead]
        · rw [hreceipts', hsame.receipts (hsame.delivered.trans hdelivered), hreceipts]
      · exact hscrub (hnew m hm).2
    · intro d hd hdelivered
      obtain ⟨e, he, rfl⟩ := mem_map.mp hd
      exact hsound.marked e he hdelivered
    · intro j found hfound hlast'
      rw [length_set] at hlast'
      rcases getElem?_set_cases hfound with ⟨-, rfl⟩ | ⟨hne, -⟩
      · exact forall₂_map_right_iff.mpr (forall₂_same.mpr fun d _ => ⟨rfl, rfl, fun _ => rfl⟩)
      · omega

lemma World.Sound.last (h : w.Sound policy)
    (hq : w.queues[i]? = some q) (hopen : q.closed = false) : i + 1 = w.queues.length := by
  obtain ⟨hlt, -⟩ := List.getElem?_eq_some_iff.mp hq
  by_contra hne
  have hclosed := h.closed i q hq (by omega)
  rw [hopen] at hclosed
  cases hclosed

lemma SoundItems.concat (h : SoundItems items)
    (hd : d.Sound) (hfresh : ∀ e ∈ items, e.head ≠ d.head) : SoundItems (items ++ [d]) := by
  refine ⟨fun e he => ?_, ?_⟩
  · rcases mem_append.mp he with he | he
    · exact h.sound e he
    · rwa [mem_singleton.mp he]
  · rw [map_append, nodup_append]
    refine ⟨h.distinct, nodup_singleton _, fun a ha b hb => ?_⟩
    obtain ⟨e, he, rfl⟩ := mem_map.mp ha
    rw [map_singleton, mem_singleton] at hb
    rw [hb]
    exact hfresh e he

lemma sound_enqueued {statement : AnchorStatement} {now : Time} (hlegible : head.Legible)
    (hstatement : newAnchorStatement head = .ok statement) (hclock : 0 < stamp now) :
    AgentRemoteDelivery.Sound {
      version := agentRemoteQueueVersion, head := head
      enqueuedAtUnix := stamp now, nextAttemptUnix := stamp now } := by
  have hzero : IsInt64 0 := by decide
  refine ⟨⟨?_, hlegible, fun _ hr => nomatch hr⟩,
    ⟨isInt64_int64 _, hzero, hzero, isInt64_int64 _, hzero⟩,
    rfl, hclock, ⟨statement, hstatement⟩, (fun _ hr => nomatch hr), fun hdelivered => ?_⟩
  · show validUTF8 agentRemoteQueueVersion = true
    decide
  · exact absurd hdelivered (show decide ((0 : ℤ) < 0) ≠ true by decide)

lemma World.Sound.promise (h : w.Sound policy)
    (hq : w.queues[i]? = some q) (hlast : i + 1 = w.queues.length)
    (hd : d ∈ q.items) : World.Sound policy { w with promised := w.promised ++ [d.head] } := by
  obtain ⟨items, hsome, hsaved⟩ := h.exists_saved hq
  refine ⟨h.queues, h.closed, h.verified, fun hnone => ?_, fun items' hitems' => ?_⟩
  · rw [show w.saved = none from hnone] at hsome
    cases hsome
  · obtain rfl : items = items' := Option.some.inj (hsome.symm.trans hitems')
    refine ⟨hsaved.sound, hsaved.scrubbed, hsaved.file, fun other hother => ?_, hsaved.held,
      hsaved.marked, hsaved.agrees⟩
    rcases mem_append.mp hother with hother | hother
    · exact hsaved.promised other hother
    · obtain ⟨e, he, hsame⟩ := exists_of_mem_left (hsaved.agrees i q hq hlast) hd
      rw [mem_singleton.mp hother, hsame.head]
      exact mem_map.mpr ⟨e, he, rfl⟩

lemma World.Sound.enqueue (h : w.Sound policy)
    (hq : w.queues[i]? = some q) {now : Time} (hlegible : head.Legible)
    (hclock : 0 < stamp now) (hdisk : disk.Faithful) :
    (w.enqueue i q head now disk).2.Sound policy := by
  unfold World.enqueue
  cases hstatement : newAnchorStatement head with
  | error e => exact h
  | ok statement =>
    dsimp only
    by_cases hclosed : q.closed = true
    · rw [if_pos hclosed]
      exact h
    have hlast := h.last hq (Bool.eq_false_iff.mpr hclosed)
    obtain ⟨hitems, hmarked, hfresh, hpending⟩ := h.queues i q hq
    by_cases hknown : (q.items.any fun item => decide (item.head = head)) = true
    · rw [if_neg hclosed, if_pos hknown]
      obtain ⟨d, hd, hhead⟩ := any_eq_true.mp hknown
      obtain rfl : d.head = head := of_decide_eq_true hhead
      exact h.promise hq hlast hd
    rw [if_neg hclosed, if_neg hknown]
    have hitem := sound_enqueued hlegible hstatement hclock
    have hsound := hitems.concat hitem fun e he heq =>
      hknown (any_eq_true.mpr ⟨e, he, decide_eq_true heq⟩)
    rw [World.persistLocked_of_faithful hdisk w hsound]
    by_cases hsucceeds : disk.succeeds = true
    · rw [if_pos hsucceeds]
      have hsaved := @World.Sound.save _ i w q policy h
          { q with items := q.items ++ [_] } hq hlast [] [head]
        ⟨hsound, fun d hd hdelivered => ?_, hfresh, fun f index item hanchoring => ?_⟩
        (fun d hd => ?_) (fun d hd hdelivered => ?_) (fun m hm =>
          nomatch hm) (fun other hother => ?_)
      · rw [append_nil] at hsaved
        exact hsaved
      · rcases mem_append.mp hd with hd | hd
        · rw [append_nil]
          exact hmarked d hd hdelivered
        · rw [mem_singleton.mp hd] at hdelivered
          cases hdelivered
      · obtain ⟨d, hd, hdelivered⟩ := hpending f index item hanchoring
        refine ⟨d, ?_, hdelivered⟩
        rw [List.getElem?_append_left (List.getElem?_eq_some_iff.mp hd).1]
        exact hd
      · rw [map_append]
        exact mem_append_left _ (mem_map.mpr ⟨d, hd, rfl⟩)
      · exact ⟨d, mem_append_left _ hd, rfl, hdelivered, rfl⟩
      · rw [mem_singleton.mp hother, map_append]
        exact mem_append_right _ mem_cons_self
    · rw [if_neg hsucceeds]
      exact h

lemma World.Sound.due (h : w.Sound policy)
    (hq : w.queues[i]? = some q) {flight : Flight} (hflight : q.flush = .looping flight)
    (now : Time) (cancelled : Bool) :
    World.Sound policy { w with queues := w.queues.set i (q.due flight now cancelled) } := by
  obtain ⟨hitems, hmarked, hfresh, hpending⟩ := h.queues i q hq
  have hidle : Queue.Sound w.marked { q with flush := .idle } :=
    ⟨hitems, hmarked, (fun _ hnone => nomatch hnone), fun _ _ _ hnone => nomatch hnone⟩
  have hflightFresh : flight.Fresh := hfresh flight (by rw [hflight]; rfl)
  unfold Queue.due
  cases hdue : q.nextDue flight.force now flight.attemptedHeads with
  | none => exact h.update hq id hidle fun _ => id
  | some found =>
    dsimp only
    by_cases hcancelled : cancelled = true
    · rw [if_pos hcancelled]
      exact h.update hq id hidle fun _ => id
    rw [if_neg hcancelled]
    unfold Queue.nextDue at hdue
    by_cases hclosed : q.closed = true
    · rw [if_pos hclosed] at hdue
      cases hdue
    rw [if_neg hclosed, Option.map_eq_some_iff] at hdue
    obtain ⟨⟨d, index⟩, hfound, rfl⟩ := hdue
    have hchosen := List.find?_some hfound
    have hmem := mem_of_find?_eq_some hfound
    rw [mem_zipIdx_iff_getElem?] at hmem
    simp only [checks_ok, Bool.not_eq_true'] at hchosen
    obtain ⟨⟨hdelivered, hkey⟩, -⟩ := hchosen
    have hd := hitems.sound d (mem_of_getElem? hmem)
    have hhead : d.clone.head = d.head := by
      rw [AgentRemoteDelivery.clone_eq hd.legible hd.sized]
      rfl
    refine h.update hq id ⟨hitems, hmarked, fun f hf => ?_, fun f index' item hanchoring =>
      ?_⟩ fun _ => id
    · obtain rfl := Option.some.inj hf
      refine ⟨?_, fun head hmet => ?_⟩
      · rw [nodup_append]
        refine ⟨hflightFresh.tried, nodup_singleton _, fun a ha b hb heq => ?_⟩
        rw [mem_singleton.mp hb, hhead] at heq
        exact hkey (heq ▸ hflightFresh.met a ha)
      · rcases mem_append.mp hmet with hmet | hmet
        · exact mem_cons_of_mem _ (hflightFresh.met head hmet)
        · rw [mem_singleton.mp hmet]
          exact mem_cons_self
    · obtain ⟨rfl, rfl, rfl⟩ := Flush.anchoring.inj hanchoring
      exact ⟨d, hmem, hdelivered⟩

omit [Unicode] in
lemma map_head_set (hd : items[index]? = some d) (hhead : next.head = d.head) :
    (items.set index next).map (fun d => d.head) = items.map fun d => d.head := by
  obtain ⟨hlt, rfl⟩ := List.getElem?_eq_some_iff.mp hd
  rw [map_set, hhead]
  refine ext_getElem (by simp) fun j _ _ => ?_
  rw [getElem_set]
  by_cases hj : index = j
  · subst hj
    rw [if_pos rfl, getElem_map]
  · rw [if_neg hj]

lemma SoundItems.set (h : SoundItems items) (hd : items[index]? = some d) (hnext : next.Sound)
    (hhead : next.head = d.head) : SoundItems (items.set index next) := by
  refine ⟨fun e he => ?_, ?_⟩
  · rcases mem_or_eq_of_mem_set he with he | rfl
    · exact h.sound e he
    · exact hnext
  · rw [map_head_set hd hhead]
    exact h.distinct

omit [Unicode] in
lemma mem_set_of_ne {e : AgentRemoteDelivery}
    (hd : items[index]? = some d) (he : e ∈ items) (hne : e ≠ d) : e ∈ items.set index next := by
  obtain ⟨j, hj⟩ := mem_iff_getElem?.mp he
  refine mem_of_getElem? (i := j) ?_
  rw [List.getElem?_set_ne, hj]
  rintro rfl
  exact hne (Option.some.inj (hj.symm.trans hd))

lemma Queue.Sound.settled {marked new : List Mark} (h : q.Sound marked)
    (hset : SoundItems (q.items.set index next))
    (hnew : next.delivered = true → ∃ m ∈ new, m.head = next.head ∧ m.receipts = next.receipts)
    {flush : Flush} (hflush : flush = .idle ∨ ∃ f, flush = .looping f ∧ f.Fresh) :
    Queue.Sound (marked ++ new) { q with items := q.items.set index next, flush := flush } := by
  refine ⟨hset, fun e he hdelivered => ?_, fun f hf => ?_, fun f j item hanchoring => ?_⟩
  · rcases mem_or_eq_of_mem_set he with he | rfl
    · obtain ⟨m, hm, hmark⟩ := h.marked e he hdelivered
      exact ⟨m, mem_append_left new hm, hmark⟩
    · obtain ⟨m, hm, hmark⟩ := hnew hdelivered
      exact ⟨m, mem_append_right marked hm, hmark⟩
  · rcases hflush with rfl | ⟨f', rfl, hfresh⟩
    · cases hf
    · rwa [← Option.some.inj hf]
  · rcases hflush with rfl | ⟨f', rfl, -⟩
    · cases hanchoring
    · cases hanchoring

/-- The attempt that is under way in a queue meets the threshold with these answers. -/
def Queue.Marks (policy : AnchorThresholdPolicy) (q : Queue) (providers : Providers) : Prop :=
  ∃ flight index item current, q.flush = .anchoring flight index item ∧
    q.items[index]? = some current ∧ current.head = item.head ∧
    policy.verify providers.accepts current.head
      (mergeAnchorReceipts current.receipts (policy.anchor providers.answers item.head).1) = .ok ()

lemma World.Sound.settle (h : w.Sound policy)
    (hq : w.queues[i]? = some q) (hlast : i + 1 = w.queues.length) {flight : Flight}
    {item : AgentRemoteDelivery} (hflush : q.flush = .anchoring flight index item)
    {providers : Providers} (hlegible : ∀ name r, providers.answers name = .ok r → r.Legible)
    (attemptedAt : Time) {settledAt : Time} (hclock : 0 < stamp settledAt)
    (hdisk : disk.Faithful) (hmarks : q.Marks policy providers → disk.succeeds = true) :
    (w.settle policy config i q flight index item providers attemptedAt settledAt disk).Sound
      policy := by
  obtain ⟨hitems, hmarked, hfresh, hpending⟩ := h.queues i q hq
  have hflight : flight.Fresh := hfresh flight (by rw [hflush]; rfl)
  obtain ⟨d, hd, hwaiting⟩ := hpending flight index item hflush
  unfold World.settle
  rw [hd]
  by_cases hhead : d.head = item.head
  · -- The item is still there, and the answers are for its head.
    obtain ⟨hnext, hsame, hdelivered, hreceipts, hverified⟩ :=
      @AgentRemoteDelivery.Sound.attempt _ d policy config providers attemptedAt settledAt
        (hitems.sound d (mem_of_getElem? hd)) hwaiting hlegible hclock
    rw [← hhead]
    dsimp only
    rw [if_neg (not_not_intro rfl)]
    set result := policy.anchor providers.answers d.head with hresult
    rcases hattempt : d.attempt policy config providers attemptedAt settledAt result.1 result.2 with
      ⟨next, delivered⟩
    rw [hattempt] at hnext hsame hdelivered hreceipts hverified
    dsimp only at hnext hsame hdelivered hreceipts hverified ⊢
    have hset := hitems.set hd hnext hsame
    rw [World.persistLocked_of_faithful hdisk w hset]
    by_cases hsucceeds : disk.succeeds = true
    · rw [if_pos hsucceeds]
      have hlooping : ∀ report, Flush.looping { flight with report := report } = .idle ∨
          ∃ f, Flush.looping { flight with report := report } = .looping f ∧ f.Fresh :=
        fun report => .inr ⟨_, rfl, hflight.tried, hflight.met⟩
      have hheads (e : AgentRemoteDelivery) (he : e ∈ q.items) :
          e.head ∈ (q.items.set index next).map fun d => d.head := by
        rw [map_head_set hd hsame]
        exact mem_map.mpr ⟨e, he, rfl⟩
      have hkept (e : AgentRemoteDelivery) (he : e ∈ q.items) (hdone : e.delivered = true) :
          ∃ e' ∈ q.items.set index next,
            e'.head = e.head ∧ e'.delivered = true ∧ e'.receipts = e.receipts := by
        refine ⟨e, mem_set_of_ne hd he ?_, rfl, hdone, rfl⟩
        rintro rfl
        rw [hwaiting] at hdone
        cases hdone
      cases delivered with
      | true =>
        have hmark : ∀ m ∈ [(⟨next.head, next.receipts, providers.accepts⟩ : Mark)],
            policy.verify m.accepts m.head m.receipts = .ok () ∧
              m.Held (q.items.set index next) := by
          intro m hm
          rw [mem_singleton.mp hm]
          refine ⟨?_, next, mem_set (List.getElem?_eq_some_iff.mp hd).1 next, rfl, hdelivered, rfl⟩
          rw [hsame, hreceipts]
          exact hverified.mp rfl
        have hsaved (report : AgentRemoteFlushReport) := @World.Sound.save _ i w q policy h
          { q with items := q.items.set index next, flush := _ } hq hlast
          [⟨next.head, next.receipts, providers.accepts⟩] []
          ((h.queues i q hq).settled hset (fun _ => ⟨_, mem_cons_self, rfl, rfl⟩) (hlooping report))
          hheads hkept hmark fun head hhead => nomatch hhead
        simp only [append_nil] at hsaved
        exact hsaved _
      | false =>
        have hsaved (report : AgentRemoteFlushReport) := @World.Sound.save _ i w q policy h
          { q with items := q.items.set index next, flush := _ } hq hlast [] []
          ((h.queues i q hq).settled hset
            (fun hdone => absurd (hdelivered.symm.trans hdone) (by decide)) (hlooping report))
          hheads hkept (fun m hm => nomatch hm) fun head hhead => nomatch hhead
        simp only [append_nil] at hsaved
        exact hsaved _
    · have hfails : delivered = false := by
        by_contra hmark
        refine hsucceeds (hmarks ⟨flight, index, item, d, hflush, hd, hhead, ?_⟩)
        rw [← hhead]
        exact hverified.mp (Bool.eq_true_of_not_eq_false hmark)
      rw [if_neg hsucceeds, hfails]
      have hsettled : Queue.Sound (w.marked ++ [])
          { q with items := q.items.set index next, flush := .idle } :=
        (h.queues i q hq).settled hset
          (fun hdone => absurd (hfails.symm.trans (hdelivered.symm.trans hdone)) (by decide))
          (.inl rfl)
      rw [append_nil] at hsettled
      refine h.update hq id hsettled fun items hagrees => ?_
      refine forall₂_set hagrees hd fun e hagree => ⟨?_, ?_, fun hdone => ?_⟩
      · rw [hsame, hagree.head]
      · rw [hdelivered, hfails, ← hagree.delivered, hwaiting]
      · rw [hdelivered, hfails] at hdone
        cases hdone
  · dsimp only
    rw [if_pos hhead]
    exact h.update hq id ⟨hitems, hmarked, fun f hf => (Option.some.inj hf) ▸ hflight,
      fun _ _ _ hnone => nomatch hnone⟩ fun _ => id

/-- The file loads to what was saved last, so a queue that is opened has all of it. -/
lemma World.Saved.load (h : w.Saved items) : loadState (payload items) = .ok items := by
  have hload := h.sound.load
  rwa [h.scrubbed] at hload

lemma World.Saved.reopen (h : w.Saved items)
    (readable : Bool) (disk : Disk) : w.reopen readable disk =
      if readable then { w with queues := w.queues ++ [{ items := items }] } else w := by
  obtain ⟨file, queues, saved, promised, marked⟩ := w
  obtain rfl : file = some (payload items) := h.file
  cases readable with
  | false => rfl
  | true =>
    simp [World.reopen, h.load]

omit [Unicode] in
lemma getElem?_concat_cases {added : Queue} (h : (queues ++ [added])[i]? = some q) :
    (i < queues.length ∧ queues[i]? = some q) ∨ (i = queues.length ∧ q = added) := by
  rw [List.getElem?_append] at h
  by_cases hlt : i < queues.length
  · rw [if_pos hlt] at h
    exact .inl ⟨hlt, h⟩
  · rw [if_neg hlt] at h
    obtain ⟨hzero, heq⟩ := List.getElem?_eq_some_iff.mp h
    rw [length_singleton] at hzero
    refine .inr ⟨by omega, ?_⟩
    rw [← heq, getElem_singleton]

lemma World.Sound.reopen (h : w.Sound policy) (hclosed : w.queues.all Queue.closed = true)
    (readable : Bool) (hdisk : disk.Faithful) : (w.reopen readable disk).Sound policy := by
  obtain hsaved | ⟨items, hsaved⟩ := Option.eq_none_or_eq_some w.saved
  · -- The first queue writes a file without items.
    obtain rfl := h.unsaved hsaved
    unfold World.reopen
    dsimp only
    rw [persistState_of_faithful hdisk]
    by_cases hsucceeds : disk.succeeds = true
    · rw [if_pos hsucceeds]
      have hnil : SoundItems [] := ⟨(fun _ hd => nomatch hd), nodup_nil⟩
      refine ⟨fun i q hq => ?_, fun i q hq hstale => ?_, (fun _ hm => nomatch hm),
        (fun hnone => nomatch hnone), fun items hitems => ?_⟩
      · obtain rfl : q = { items := [] } := mem_singleton.mp (mem_of_getElem? hq)
        exact ⟨hnil, (fun _ hd => nomatch hd), (fun _ hf => nomatch hf), fun _ _ _ hf => nomatch hf⟩
      · exact absurd (show i + 1 < 1 from hstale) (by omega)
      · obtain rfl := Option.some.inj hitems
        refine ⟨hnil, rfl, rfl, (fun _ hhead => nomatch hhead), (fun _ hm => nomatch hm),
          (fun _ hd => nomatch hd), fun i q hq _ => ?_⟩
        obtain rfl : q = { items := [] } := mem_singleton.mp (mem_of_getElem? hq)
        exact .nil
    · rw [if_neg hsucceeds]
      exact h
  · have hw := h.saved items hsaved
    rw [hw.reopen]
    by_cases hreadable : readable = true
    · rw [if_pos hreadable]
      refine ⟨fun i q hq => ?_, fun i q hq hstale => ?_, h.verified, fun hnone => ?_,
        fun items' hitems' => ?_⟩
      · rcases getElem?_concat_cases hq with ⟨-, hq⟩ | ⟨-, rfl⟩
        · exact h.queues i q hq
        · exact ⟨hw.sound, hw.marked, (fun _ hf => nomatch hf), fun _ _ _ hf => nomatch hf⟩
      · rcases getElem?_concat_cases hq with ⟨-, hq⟩ | ⟨rfl, -⟩
        · exact all_eq_true.mp hclosed q (mem_of_getElem? hq)
        · rw [length_append, length_singleton] at hstale
          exact absurd hstale (lt_irrefl _)
      · rw [show w.saved = none from hnone] at hsaved
        cases hsaved
      · obtain rfl : items = items' := Option.some.inj (hsaved.symm.trans hitems')
        refine ⟨hw.sound, hw.scrubbed, hw.file, hw.promised, hw.held, hw.marked,
          fun i q hq hlast => ?_⟩
        rw [length_append, length_singleton] at hlast
        rcases getElem?_concat_cases hq with ⟨hlt, -⟩ | ⟨-, rfl⟩
        · omega
        · exact forall₂_same.mpr fun d _ => ⟨rfl, rfl, fun _ => rfl⟩
    · rw [if_neg hreadable]
      exact h

/-! ## Runs -/

/-- What keeps a step from the gaps of the queue: heads, receipts and times that can be written
down, a disk on which the file is replaced or left alone, a `Flush` that does not outlive its queue,
and no failure to write down a head that is found to be delivered. -/
def QueueOp.Safe (policy : AnchorThresholdPolicy) (w : World) : QueueOp → Prop
  | .enqueue _ head now disk => head.Legible ∧ 0 < stamp now ∧ disk.Faithful
  | .settle i providers _ settledAt disk =>
    (∀ name r, providers.answers name = .ok r → r.Legible) ∧ 0 < stamp settledAt ∧ disk.Faithful ∧
      i + 1 = w.queues.length ∧
      ∀ q, w.queues[i]? = some q → q.Marks policy providers → disk.succeeds = true
  | .reopen _ disk => disk.Faithful
  | _ => True

lemma World.Sound.step {w' : World} (h : w.Sound policy) {op : QueueOp} (hop : op.Safe policy w)
    (hstep : w.step policy config op = some w') : w'.Sound policy := by
  cases op with
  | enqueue i head now disk =>
    obtain ⟨hlegible, hclock, hdisk⟩ := hop
    obtain ⟨q, hq, rfl⟩ := Option.map_eq_some_iff.mp hstep
    exact h.enqueue hq hlegible hclock hdisk
  | flush i force =>
    obtain ⟨q, hq, hflush⟩ := Option.bind_eq_some_iff.mp hstep
    obtain ⟨hitems, hmarked, -, -⟩ := h.queues i q hq
    split at hflush <;> cases hflush
    refine h.update hq id ⟨hitems, hmarked, fun f hf => ?_, fun _ _ _ hf => nomatch hf⟩ fun _ => id
    obtain rfl := Option.some.inj hf
    exact ⟨nodup_nil, fun _ hhead => nomatch hhead⟩
  | due i now cancelled =>
    obtain ⟨q, hq, hdue⟩ := Option.bind_eq_some_iff.mp hstep
    split at hdue <;> cases hdue
    exact h.due hq ‹_› now cancelled
  | settle i providers attemptedAt settledAt disk =>
    obtain ⟨hlegible, hclock, hdisk, hlast, hmarks⟩ := hop
    obtain ⟨q, hq, hsettle⟩ := Option.bind_eq_some_iff.mp hstep
    split at hsettle <;> cases hsettle
    exact h.settle hq hlast ‹_› hlegible attemptedAt hclock hdisk (hmarks q hq)
  | observe i =>
    obtain ⟨q, -, rfl⟩ := Option.map_eq_some_iff.mp hstep
    exact h
  | close i =>
    obtain ⟨q, hq, rfl⟩ := Option.map_eq_some_iff.mp hstep
    obtain ⟨hitems, hmarked, hfresh, hpending⟩ := h.queues i q hq
    exact h.update hq (fun _ => rfl) ⟨hitems, hmarked, hfresh, hpending⟩ fun _ => id
  | reopen readable disk =>
    change (if w.queues.all Queue.closed = true then some (w.reopen readable disk) else none) =
      some w'
      at hstep
    by_cases hclosed : w.queues.all Queue.closed = true
    · rw [if_pos hclosed] at hstep
      obtain rfl := Option.some.inj hstep
      exact h.reopen hclosed readable hop
    · rw [if_neg hclosed] at hstep
      cases hstep

lemma World.sound_empty : World.Sound policy {} :=
  ⟨(fun _ _ hq => nomatch hq), (fun _ _ hq => nomatch hq), (fun _ hm => nomatch hm), (fun _ => rfl),
    fun _ hsaved => nomatch hsaved⟩

/-- **A queue keeps its heads** in every run of safe steps. The heads of a queue are distinct; those
for which `Enqueue` returned nil are in the queue that is open and in the file; what was marked as
delivered passed the threshold, and is delivered with the same receipts in both; nothing else is
delivered; a `Flush` tries no head twice; and the file loads to the items that were saved last. -/
theorem queue_keeps_heads {w : World}
    (h : Reachable (World.step policy config) (QueueOp.Safe policy) {} w) :
    (∀ q ∈ w.queues, (q.items.map fun d => d.head).Nodup ∧
      (∀ d ∈ q.items, d.delivered = true → ∃ m ∈ w.marked, m.head = d.head ∧
        m.receipts = d.receipts) ∧
      ∀ f, q.flush.flight = some f → f.tried.Nodup) ∧
    (∀ m ∈ w.marked, policy.verify m.accepts m.head m.receipts = .ok ()) ∧
    (∀ q, w.queues.getLast? = some q →
      (∀ head ∈ w.promised, head ∈ q.items.map fun d => d.head) ∧ ∀ m ∈ w.marked, m.Held q.items) ∧
    (w.saved = none → w = {}) ∧
    ∀ items, w.saved = some items → ∃ data, w.file = some data ∧ loadState data = .ok items ∧
      (∀ head ∈ w.promised, head ∈ items.map fun d => d.head) ∧ ∀ m ∈ w.marked, m.Held items := by
  have hsound : w.Sound policy := h.invariant World.sound_empty fun _ _ _ hs hop hstep =>
      hs.step hop hstep
  refine ⟨fun q hq => ?_, hsound.verified, fun q hq => ?_, hsound.unsaved, fun items hitems => ?_⟩
  · obtain ⟨i, hi⟩ := List.mem_iff_getElem?.mp hq
    obtain ⟨hdistinct, hmarked, hfresh, -⟩ := hsound.queues i q hi
    exact ⟨hdistinct.distinct, hmarked, fun f hf => (hfresh f hf).tried⟩
  · rw [List.getLast?_eq_getElem?] at hq
    have hlast : w.queues.length - 1 + 1 = w.queues.length := by
      have := (List.getElem?_eq_some_iff.mp hq).1
      omega
    obtain ⟨items, -, hsaved⟩ := hsound.exists_saved hq
    have hagrees := hsaved.agrees _ q hq hlast
    constructor
    · intro head hhead
      obtain ⟨e, he, rfl⟩ := List.mem_map.mp (hsaved.promised head hhead)
      obtain ⟨d, hd, hsame⟩ := exists_of_mem_right hagrees he
      exact List.mem_map.mpr ⟨d, hd, hsame.head⟩
    · intro m hm
      obtain ⟨e, he, hhead, hdelivered, hreceipts⟩ := hsaved.held m hm
      obtain ⟨d, hd, hsame⟩ := exists_of_mem_right hagrees he
      have hdone := hsame.delivered.trans hdelivered
      exact ⟨d, hd, hsame.head.trans hhead, hdone, (hsame.receipts hdone).trans hreceipts⟩
  · have hsaved := hsound.saved items hitems
    exact ⟨_, hsaved.file, hsaved.load, hsaved.promised, hsaved.held⟩

end

section Sample

attribute [local instance] asciiCase

def samplePolicy : AnchorThresholdPolicy where
  names := ["log"]
  distinct := by decide
  trimmed := by decide
  threshold := 1
  positive := by decide
  reachable := by decide

def sampleConfig : AgentRemoteQueueConfig := ⟨second, 60 * second⟩

def headOf (sequence : UInt64) : Head :=
  ⟨"stream", sequence, "0123456789abcdef0123456789abcdef0123456789abcdef0123456789abcdef"⟩

def goodDisk : Disk := ⟨true, true, true, true, true⟩

/-- A disk that is full. -/
def fullDisk : Disk := ⟨false, false, false, false, false⟩

/-- A head is queued, another one cannot be stored, and the queue is closed and opened again. -/
theorem queue_keeps_heads_enqueued :
    ∃ w : World, Reachable (World.step samplePolicy sampleConfig) (QueueOp.Safe samplePolicy) {} w ∧
      w.queues.length = 2 ∧ w.promised = [headOf 1] ∧
      ∀ q, w.queues.getLast? = some q → headOf 1 ∈ q.items.map fun d => d.head := by
  have hdisk : goodDisk.Faithful := fun _ _ => ⟨.inl rfl, rfl⟩
  have hfull : fullDisk.Faithful := fun hprepared => nomatch hprepared
  have hopened : Reachable (World.step samplePolicy sampleConfig) (QueueOp.Safe samplePolicy) {}
      (World.reopen {} true goodDisk) := .next .start (a := .reopen true goodDisk) hdisk rfl
  have hsafe {w : World} : QueueOp.Safe samplePolicy w
      (.enqueue 0 (headOf 1) (5 * second) goodDisk) := ⟨⟨by decide, by decide⟩, by decide, hdisk⟩
  have hfails {w : World} : QueueOp.Safe samplePolicy w
      (.enqueue 0 (headOf 2) (6 * second) fullDisk) := ⟨⟨by decide, by decide⟩, by decide, hfull⟩
  have hrefused := (hopened.next hsafe rfl).next hfails rfl
  have hclosed := hrefused.next (show QueueOp.Safe samplePolicy _ (.close 0) from trivial) rfl
  have hagain := hclosed.next
    (show QueueOp.Safe samplePolicy _ (.reopen true goodDisk) from hdisk) rfl
  refine ⟨_, hagain, by decide +kernel, by decide +kernel, fun q hq => ?_⟩
  exact ((queue_keeps_heads hagain).2.2.1 q hq).1 _ (by decide +kernel)

/-- The file can be neither renamed, nor renamed once it is removed: the next queue has no head. -/
theorem heads_lost : (run (World.step samplePolicy sampleConfig) {}
      [.reopen true goodDisk, .enqueue 0 (headOf 1) (5 * second) goodDisk,
        .enqueue 0 (headOf 2) (6 * second) ⟨true, false, true, false, true⟩, .close 0,
        .reopen true goodDisk]).any (fun w =>
      w.promised = [headOf 1] ∧ w.queues.getLast?.any fun q => q.items.isEmpty) = true := by
  decide +kernel

end Sample

end WeaverSSH.Evidence
