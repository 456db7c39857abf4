import WeaverSSH.Framework.Sha256
import WeaverSSH.Framework.Transition
import WeaverSSH.SessionLink.Manager

/-!
# Generations fence off earlier transports

The history of a link falls into epochs, each the events since a success of `Begin` (`epoch`). Each
step of the manager is made of a few moves on one slot (`Move`), which keep slot and history in
agreement (`Fenced`).
-/

namespace WeaverSSH.SessionLink

open Transition Option Event Function UInt64 List Manager

variable {T : Type*}

/-! ## Epochs -/

/-- The token of a success of `Begin` on a link. -/
def Event.token? (id : ID) : Event T → Option Token
  | .began token => if token.linkID = id then some token else none
  | _ => none

/-- The tokens `Begin` returned for a link, oldest first. -/
def tokens (id : ID) (log : List (Event T)) : List Token := log.filterMap (token? id)

def epochStep (id : ID) (acc : Option (Token × List (Event T))) (e : Event T) :
    Option (Token × List (Event T)) :=
  if e.link = id then
    match e with
    | .began token => some (token, [])
    | e => acc.map fun p => (p.1, p.2 ++ [e])
  else acc

/-- The token of the last `Begin` on a link, and what happened to the link since. -/
def epoch (id : ID) (log : List (Event T)) : Option (Token × List (Event T)) :=
  log.foldl (epochStep id) none

@[simp]
lemma epoch_append (id : ID) (log : List (Event T)) (e : Event T) :
    epoch id (log ++ [e]) = epochStep id (epoch id log) e := by
  simp [epoch]

@[simp]
lemma tokens_append (id : ID) (log : List (Event T)) (e : Event T) :
    tokens id (log ++ [e]) = tokens id log ++ (e.token? id).toList := by
  cases h : e.token? id <;> simp [tokens, h]

lemma epochStep_of_ne {id : ID} {e : Event T} (h : e.link ≠ id)
    (acc : Option (Token × List (Event T))) : epochStep id acc e = acc := if_neg h

lemma Event.token?_of_ne {id : ID} {e : Event T} (h : e.link ≠ id) : e.token? id = none := by
  cases e with
  | began token => exact if_neg h
  | _ => rfl

variable {token : Token}

lemma fits_iff {snapshot : Snapshot} : fits snapshot token = true ↔
    token = ⟨snapshot.linkID, snapshot.transportID, snapshot.generation⟩ := by
  obtain ⟨i, t, g⟩ := token
  simp only [fits, Bool.and_eq_true, decide_eq_true_eq, Token.mk.injEq]
  constructor
  · rintro ⟨⟨rfl, rfl⟩, rfl⟩
    exact ⟨rfl, rfl, rfl⟩
  · rintro ⟨rfl, rfl, rfl⟩
    exact ⟨⟨rfl, rfl⟩, rfl⟩

/-! ## Moves -/

namespace Manager

/-- What a method does to a slot, one thing at a time. -/
inductive Move : Manager T → Manager T → Prop
  | create {m : Manager T} {id : ID} {s : Slot T} : m.links id = none →
      s.snapshot.linkID = id → s.snapshot.generation = 0 → s.snapshot.state = .disconnected →
      Move m { m with links := update m.links id (some s), known := m.known ++ [id] }
  | expire {m : Manager T} {id : ID} {s : Slot T} {now : Time} : m.links id = some s →
      Move m (m.expire id s now).1
  | begin {m : Manager T} {id : ID} {s : Slot T} {new : Snapshot} : m.links id = some s →
      new.linkID = id → new.generation = s.snapshot.generation + 1 → new.state = .connecting →
      Move m ((m.put id ⟨new, none⟩).note (.began ⟨id, new.transportID, new.generation⟩))
  | ready {m : Manager T} {token : Token} {s : Slot T} {new : Snapshot} {value : T} :
      m.links token.linkID = some s → fits s.snapshot token = true →
      s.snapshot.state = .connecting → fits new token = true → new.state = .ready →
      Move m ((m.put token.linkID ⟨new, some value⟩).note (.readied token value))
  | renew {m : Manager T} {token : Token} {s : Slot T} {new : Snapshot} :
      m.links token.linkID = some s → fits s.snapshot token = true → fits new token = true →
      new.state = s.snapshot.state → Move m (m.put token.linkID ⟨new, s.value⟩)
  | drain {m : Manager T} {token : Token} {s : Slot T} {new : Snapshot} :
      m.links token.linkID = some s → fits s.snapshot token = true → s.snapshot.state = .ready →
      fits new token = true → new.state = .draining →
      Move m ((m.put token.linkID ⟨new, s.value⟩).note (.drained token))
  | withdraw {m : Manager T} {token : Token} {s : Slot T} {cause : Option Text} {now : Time} :
      m.links token.linkID = some s → fits s.snapshot token = true →
      Move m ((m.put token.linkID (s.disconnect now cause)).note (.withdrawn token))

/-- Several moves, one after another. -/
abbrev Moves : Manager T → Manager T → Prop := Relation.ReflTransGen Move

@[simp]
lemma links_put (m : Manager T) (id : ID) (s : Slot T) : (m.put id s).links id = some s := by
  simp [put]

@[simp]
lemma links_note (m : Manager T) (e : Event T) : (m.note e).links = m.links := rfl

lemma slotLocked_moves (m : Manager T) (id : ID) (created : Time) :
    Moves m (m.slotLocked id created).1 ∧
      (m.slotLocked id created).1.links id = some (m.slotLocked id created).2 := by
  unfold slotLocked
  split
  · rename_i s hs
    exact ⟨.refl, hs⟩
  · rename_i hs
    exact ⟨.single (.create hs rfl rfl rfl), by simp⟩

variable {m : Manager T} {id : ID} {s : Slot T} {now : Time} {e : Event T} {log : List (Event T)}

lemma expireLocked_moves (hs : m.links id = some s)
    (now : Time) : Moves m (m.expireLocked id s now).1 ∧
      (m.expireLocked id s now).1.links id = some (m.expireLocked id s now).2 := by
  unfold expireLocked
  split
  · exact ⟨.refl, hs⟩
  · exact ⟨.single (.expire hs), by simp [expire]⟩

lemma expireLocked_fits :
    fits (m.expireLocked id s now).2.snapshot token = fits s.snapshot token := by
  unfold expireLocked
  split <;> rfl

lemma begin_moves [Unicode] [SHA256] (m : Manager T) (descriptor : Descriptor)
    (transportID : TransportID) (lease : Duration) (now created : Time) :
    Moves m (m.begin descriptor transportID lease now created).1 := by
  unfold begin
  split
  · exact .refl
  split
  · exact .refl
  split
  · exact .refl
  split
  · exact .refl
  · rename_i id _ _ _ _ _ _ _ _ _ _
    obtain ⟨hslot, hs⟩ := m.slotLocked_moves id created
    obtain ⟨hexp, hs'⟩ := expireLocked_moves hs now
    exact (hslot.trans hexp).tail (.begin hs' rfl rfl rfl)

lemma current_moves [Unicode] (m : Manager T) (id : ID) (now : Time) :
    Moves m (m.current id now).1 := by
  unfold current
  split
  · exact .refl
  split
  · exact .refl
  · rename_i s hs
    have hexp := (expireLocked_moves hs now).1
    dsimp only
    split_ifs <;> exact hexp

lemma wait_moves [Unicode] (m : Manager T) (id : ID) (now created : Time) :
    Moves m (m.wait id now created).1 := by
  unfold wait
  split
  · exact .refl
  · obtain ⟨hslot, hs⟩ := m.slotLocked_moves id created
    have hexp := (expireLocked_moves hs now).1
    dsimp only
    split_ifs <;> exact hslot.trans hexp

lemma snapshot_moves [Unicode] (m : Manager T) (id : ID) (now : Time) :
    Moves m (m.snapshot id now).1 := by
  unfold snapshot
  split
  · exact .refl
  split
  · exact .refl
  · rename_i s hs
    exact (expireLocked_moves hs now).1

lemma ready_moves (m : Manager T) (token : Token) (value : T) (now : Time) :
    Moves m (m.ready token value now).1 := by
  unfold ready
  split
  · exact .refl
  · rename_i s hs
    split_ifs with hfit hlease hstate
    · exact .refl
    · exact .single (.expire hs)
    · exact .refl
    · have hfit' : fits s.snapshot token = true := by simpa using hfit
      exact .single (.ready hs hfit' (by simpa using hstate) hfit' rfl)

lemma renew_moves (m : Manager T) (token : Token) (lease : Duration) (now : Time) :
    Moves m (m.renew token lease now).1 := by
  unfold renew
  split
  · exact .refl
  split
  · exact .refl
  · rename_i s hs
    split_ifs with hfit hlease hstate
    · exact .refl
    · exact .single (.expire hs)
    · exact .refl
    · have hfit' : fits s.snapshot token = true := by simpa using hfit
      exact .single (.renew hs hfit' hfit' rfl)

lemma drain_moves (m : Manager T) (token : Token) (now : Time) : Moves m (m.drain token now).1 := by
  unfold drain
  split
  · exact .refl
  · rename_i s hs
    obtain ⟨hexp, hs'⟩ := expireLocked_moves hs now
    split_ifs with hfit
    · exact .refl
    · have hfit' : fits (m.expireLocked token.linkID s now).2.snapshot token = true := by
        rw [expireLocked_fits]
        simpa using hfit
      dsimp only
      split_ifs with hstate
      · exact hexp
      · exact hexp.tail (.drain hs' hfit' (by simpa using hstate) hfit' rfl)

lemma withdraw_moves (m : Manager T) (token : Token) (cause : Option Text) (now : Time) :
    Moves m (m.withdraw token cause now).1 := by
  unfold withdraw
  split
  · exact .refl
  · rename_i s hs
    split_ifs with hfit
    · exact .refl
    · exact .single (.withdraw hs (by simpa using hfit))

lemma list_moves (m : Manager T) (now : Time) : Moves m (m.list now).1 := by
  have hloop : ∀ (ids : List ID) (m : Manager T) (out : List Snapshot),
      Moves m (ids.foldl (listOne now) (m, out)).1 := by
    intro ids
    induction ids with
    | nil => exact fun _ _ => .refl
    | cons id ids ih =>
      intro m out
      rw [foldl_cons]
      have hone : Moves m (listOne now (m, out) id).1 := by
        simp only [listOne]
        split
        · exact .refl
        · rename_i s hs
          exact (expireLocked_moves hs now).1
      exact hone.trans (ih _ _)
  exact hloop m.known m []

variable {m' : Manager T}

/-- **A step is a sequence of moves.** -/
lemma step_moves [Unicode] [SHA256] {c : Call T} (h : m.step c = some m') : Moves m m' := by
  cases c with
  | «begin» => exact some.inj h ▸ begin_moves ..
  | ready => exact some.inj h ▸ ready_moves ..
  | publish =>
    obtain rfl := some.inj h
    rename_i descriptor transportID lease value now created later
    have hbegin := m.begin_moves descriptor transportID lease now created
    unfold publish
    split
    · rename_i heq
      rwa [heq] at hbegin
    · rename_i m₁ token _ heq
      rw [heq] at hbegin
      have hready := m₁.ready_moves token value later
      split <;> rename_i heq' <;> rw [heq'] at hready <;> exact hbegin.trans hready
  | renew => exact some.inj h ▸ renew_moves ..
  | drain => exact some.inj h ▸ drain_moves ..
  | withdraw => exact some.inj h ▸ withdraw_moves ..
  | current => exact some.inj h ▸ current_moves ..
  | wait => exact some.inj h ▸ wait_moves ..
  | snapshot => exact some.inj h ▸ snapshot_moves ..
  | list => exact some.inj h ▸ list_moves ..

/-! ## Slots agree with the history -/

def InPhase (s : Slot T) : Option (Token × List (Event T)) → Prop
  | none => s.snapshot.state = .disconnected
  | some (token, events) => fits s.snapshot token = true ∧
      (s.snapshot.state = .connecting → events = []) ∧
      (s.snapshot.state = .ready → ∃ value, s.value = some value ∧ events = [.readied token value])

/-- A link that has a slot, and one that has none, agree with the history. -/
def Agrees (id : ID) (log : List (Event T)) : Option (Slot T) → Prop
  | none => tokens id log = [] ∧ epoch id log = none
  | some s => s.snapshot.linkID = id ∧
      s.snapshot.generation = ofNat (tokens id log).length ∧ InPhase s (epoch id log)

structure Fenced (m : Manager T) : Prop where
  slots : ∀ id, Agrees id m.log (m.links id)
  tokens : ∀ id k token, (tokens id m.log)[k]? = some token →
    token.linkID = id ∧ token.generation = ofNat (k + 1)
  last : ∀ id, (epoch id m.log).map Prod.fst = (SessionLink.tokens id m.log).getLast?

lemma InPhase.of_disconnected {e : Option (Token × List (Event T))}
    (hfit : ∀ p ∈ e, fits s.snapshot p.1 = true) (h : s.snapshot.state = .disconnected) :
    InPhase s e := by
  cases e with
  | none => exact h
  | some p => exact ⟨hfit p rfl, by simp [h], by simp [h]⟩

lemma epochStep_fst (h : e.token? id = none) (acc : Option (Token × List (Event T))) :
    (epochStep id acc e).map Prod.fst = acc.map Prod.fst := by
  unfold epochStep
  split_ifs with hlink
  · cases e with
    | began token => simp_all [token?, link]
    | _ => cases acc <;> rfl
  · rfl

/-- The events a move adds are on the link it is about, so the other links agree still. -/
lemma Agrees.of_ne {j : ID} {o : Option (Slot T)}
    (h : Agrees id log o) (hne : id ≠ j) (he : e.link = j) : Agrees id (log ++ [e]) o := by
  have hlink : e.link ≠ id := he ▸ hne.symm
  have htok : (e.token? id).toList = [] := by rw [token?_of_ne hlink]; rfl
  have heq : tokens id (log ++ [e]) = tokens id log := by rw [tokens_append, htok, append_nil]
  have hep : epoch id (log ++ [e]) = epoch id log := by rw [epoch_append, epochStep_of_ne hlink]
  cases o <;> simpa only [Agrees, heq, hep] using h

lemma Fenced.note (hm : Fenced m) (he : e.link = id) (htok : e.token? id = none)
    (hs : Agrees id (m.log ++ [e]) (some s)) : Fenced ((m.put id s).note e) := by
  have htok' : ∀ j, e.token? j = none := by
    intro j
    by_cases hj : e.link = j
    · rwa [← hj, he]
    · exact token?_of_ne hj
  have heq : ∀ j, SessionLink.tokens j (m.log ++ [e]) = SessionLink.tokens j m.log := fun j => by
    rw [tokens_append, htok' j]
    exact List.append_nil _
  constructor
  · intro j
    by_cases hj : j = id
    · subst hj
      simpa [Manager.note, put] using hs
    · simpa [Manager.note, put, update_of_ne hj] using (hm.slots j).of_ne hj he
  · intro j k token h
    exact hm.tokens j k token (by simpa only [Manager.note, put, heq] using h)
  · intro j
    change (epoch j (m.log ++ [e])).map Prod.fst = (SessionLink.tokens j (m.log ++ [e])).getLast?
    rw [epoch_append, epochStep_fst (htok' j), heq]
    exact hm.last j

lemma Fenced.fits (hm : Fenced m) (hs : m.links id = some s) :
    ∀ p ∈ epoch id m.log, fits s.snapshot p.1 = true := by
  intro p hp
  have h := hm.slots id
  rw [hs] at h
  have hphase := h.2.2
  rw [mem_def.mp hp] at hphase
  exact hphase.1

lemma Agrees.slot {log' : List (Event T)} {s' : Slot T}
    (h : Agrees id log (some s)) (htok : tokens id log' = tokens id log)
    (hid : s'.snapshot.linkID = s.snapshot.linkID)
    (hgen : s'.snapshot.generation = s.snapshot.generation)
    (hphase : InPhase s' (epoch id log')) : Agrees id log' (some s') :=
  ⟨hid.trans h.1, by rw [htok, hgen]; exact h.2.1, hphase⟩

lemma tokens_note (h : e.token? id = none) : tokens id (log ++ [e]) = tokens id log := by
  simp [h]

lemma Fenced.disconnect (hm : Fenced m)
    {cause : Option Text} (hs : m.links id = some s) (he : e.link = id)
    (htok : e.token? id = none) : Fenced ((m.put id (s.disconnect now cause)).note e) := by
  have hslot := hm.slots id
  rw [hs] at hslot
  refine hm.note he htok (hslot.slot (tokens_note htok) rfl rfl (.of_disconnected ?_ rfl))
  intro p hp
  have hfst : p.1 ∈ (epoch id m.log).map Prod.fst := by
    rw [← epochStep_fst htok, ← epoch_append]
    exact mem_map_of_mem _ hp
  obtain ⟨q, hq, hqp⟩ := mem_map.mp hfst
  exact hqp ▸ hm.fits hs q hq

/-- **A move keeps slots and history in agreement.** -/
lemma Move.fenced (h : Move m m') (hm : Fenced m) : Fenced m' := by
  cases h with
  | create hnone hid hgen hstate =>
    rename_i id s
    refine ⟨fun j => ?_, hm.tokens, hm.last⟩
    by_cases hj : j = id
    · subst hj
      have hslot := hm.slots j
      rw [hnone] at hslot
      simp [Agrees, hid, hgen, hslot.1, hslot.2, InPhase, hstate]
    · simpa [update_of_ne hj] using hm.slots j
  | expire hs => exact hm.disconnect hs rfl rfl
  | «begin» hs hid hgen hstate =>
    rename_i id s new
    have hslot := hm.slots id
    rw [hs] at hslot
    have hlen : new.generation = ofNat ((SessionLink.tokens id m.log).length + 1) := by
      rw [hgen, hslot.2.1, ofNat_add]
      rfl
    have htok : ∀ j, SessionLink.tokens j
        (m.log ++ [.began ⟨id, new.transportID, new.generation⟩]) = SessionLink.tokens j m.log ++
          if id = j then [⟨id, new.transportID, new.generation⟩] else [] := by
      intro j
      rw [tokens_append]
      by_cases hj : id = j <;> simp [token?, hj]
    refine ⟨fun j => ?_, fun j k token h => ?_, fun j => ?_⟩
    · by_cases hj : j = id
      · subst hj
        simp [Manager.note, put, Agrees, InPhase, hid, hlen, hstate, epochStep, link, token?, fits]
      · have hother := (hm.slots j).of_ne hj
          (e := .began ⟨id, new.transportID, new.generation⟩) rfl
        simpa [Manager.note, put, update_of_ne hj] using hother
    · change (SessionLink.tokens j (m.log ++ [_]))[k]? = some token at h
      rw [htok] at h
      by_cases hk : k < (SessionLink.tokens j m.log).length
      · rw [List.getElem?_append_left hk] at h
        exact hm.tokens j k token h
      · rw [List.getElem?_append_right (by omega)] at h
        split_ifs at h with hj
        · subst hj
          obtain ⟨hk', rfl⟩ : k - (SessionLink.tokens id m.log).length = 0 ∧
              (⟨id, new.transportID, new.generation⟩ : Token) = token := by
            cases hsub : k - (SessionLink.tokens id m.log).length with
            | zero => exact ⟨rfl, by simpa [hsub] using h⟩
            | succ n => simp [hsub] at h
          obtain rfl : k = (SessionLink.tokens id m.log).length := by omega
          exact ⟨rfl, hlen⟩
        · simp at h
    · change (epoch j (m.log ++ [_])).map Prod.fst = (SessionLink.tokens j (m.log ++ [_])).getLast?
      rw [htok, epoch_append]
      by_cases hj : id = j
      · simp [epochStep, link, hj]
      · have hlink : (began (T := T) ⟨id, new.transportID, new.generation⟩).link ≠ j := hj
        rw [epochStep_of_ne hlink, if_neg hj, List.append_nil]
        exact hm.last j
  | ready hs hfit hstate hfit' hstate' =>
    rename_i token s new value
    have hslot := hm.slots token.linkID
    rw [hs] at hslot
    obtain ⟨hid, -, hgen⟩ := Token.mk.inj ((fits_iff.mp hfit).symm.trans (fits_iff.mp hfit'))
    refine hm.note rfl rfl (hslot.slot (tokens_note rfl) hid.symm hgen.symm ?_)
    have hphase := hslot.2.2
    rw [epoch_append]
    cases hep : epoch token.linkID m.log with
    | none => simp [hep, InPhase, hstate] at hphase
    | some p =>
      obtain ⟨tok, events⟩ := p
      rw [hep] at hphase
      obtain ⟨hfits, hevents, -⟩ := hphase
      obtain rfl : tok = token := (fits_iff.mp hfits).trans (fits_iff.mp hfit).symm
      simp [epochStep, link, InPhase, hfit', hstate', hevents hstate]
  | renew hs hfit hfit' hstate =>
    rename_i token s new
    have hslot := hm.slots token.linkID
    rw [hs] at hslot
    obtain ⟨hid, -, hgen⟩ := Token.mk.inj ((fits_iff.mp hfit).symm.trans (fits_iff.mp hfit'))
    refine ⟨fun j => ?_, hm.tokens, hm.last⟩
    by_cases hj : j = token.linkID
    · subst hj
      rw [links_put]
      refine hslot.slot rfl hid.symm hgen.symm ?_
      have hphase := hslot.2.2
      change InPhase _ (epoch token.linkID m.log)
      cases hep : epoch token.linkID m.log with
      | none => simpa [hep, InPhase, hstate] using hphase
      | some p =>
        rw [hep] at hphase
        obtain ⟨hfits, hrest⟩ := hphase
        refine ⟨?_, by simpa only [hstate] using hrest⟩
        rwa [(fits_iff.mp hfits).trans (fits_iff.mp hfit).symm]
    · simpa [put, update_of_ne hj] using hm.slots j
  | drain hs hfit hstate hfit' hstate' =>
    rename_i token s new
    have hslot := hm.slots token.linkID
    rw [hs] at hslot
    obtain ⟨hid, -, hgen⟩ := Token.mk.inj ((fits_iff.mp hfit).symm.trans (fits_iff.mp hfit'))
    refine hm.note rfl rfl (hslot.slot (tokens_note rfl) hid.symm hgen.symm ?_)
    have hphase := hslot.2.2
    rw [epoch_append]
    cases hep : epoch token.linkID m.log with
    | none => simp [hep, InPhase, hstate] at hphase
    | some p =>
      rw [hep] at hphase
      have hp : p.1 = token := (fits_iff.mp hphase.1).trans (fits_iff.mp hfit).symm
      simp [epochStep, link, InPhase, hp, hfit', hstate']
  | withdraw hs hfit => exact hm.disconnect hs rfl rfl

lemma fenced_empty : Fenced ({} : Manager T) :=
  ⟨fun _ => ⟨rfl, rfl⟩, fun _ _ _ h => by simp [SessionLink.tokens] at h, fun _ => rfl⟩

lemma Fenced.reachable [Unicode] [SHA256]
    (h : Reachable step (fun _ _ => True) ({} : Manager T) m) : Fenced m := by
  refine h.invariant fenced_empty fun m c m' hm _ hstep => ?_
  have hmoves := step_moves hstep
  clear hstep
  induction hmoves with
  | refl => exact hm
  | tail _ hmove ih => exact hmove.fenced ih

/-! ## What the methods return -/

/-- The history of a link ends with the last `Begin` on it and one event since: the `Ready`, made
with the token of that `Begin`, that published the value. -/
def Published (m : Manager T) (id : ID) (value : T) (snapshot : Snapshot) : Prop :=
  ∃ token, (SessionLink.tokens id m.log).getLast? = some token ∧
    epoch id m.log = some (token, [.readied token value]) ∧ SessionLink.fits snapshot token = true

/-- Every method refuses a token and changes nothing. -/
def Refuses (m : Manager T) (token : Token) : Prop :=
  (∀ value now, m.ready token value now = (m, .error (.generationMismatch, none))) ∧
  (∀ lease now, ∃ e, m.renew token lease now = (m, .error (e, none))) ∧
  (∀ now, m.drain token now = (m, .error (.generationMismatch, none))) ∧
  ∀ cause now, m.withdraw token cause now = (m, false)

lemma expireLocked_ready (h : (m.expireLocked id s now).2.snapshot.readyAt now = true) :
    (m.expireLocked id s now).2 = s := by
  unfold expireLocked at h ⊢
  split_ifs at h ⊢
  · rfl
  · simp [expire, Slot.disconnect, Snapshot.readyAt] at h

lemma slotLocked_ready {created : Time}
    (h : (m.slotLocked id created).2.snapshot.readyAt now = true) :
    m.links id = some (m.slotLocked id created).2 := by
  unfold slotLocked at h ⊢
  split at h
  · assumption
  · simp [Snapshot.readyAt] at h

lemma Fenced.published (hm : Fenced m)
    {value : T} (hs : m.links id = some s) (hready : s.snapshot.readyAt now = true)
    (hvalue : s.value = some value) :
    m.Published id value s.snapshot ∧ now < s.snapshot.leaseUntil := by
  simp only [Snapshot.readyAt, Bool.and_eq_true, decide_eq_true_eq] at hready
  obtain ⟨⟨hstate, -⟩, hlease⟩ := hready
  have hphase := hm.slots id
  rw [hs] at hphase
  have hlast := hm.last id
  obtain ⟨-, -, hphase⟩ := hphase
  cases hep : epoch id m.log with
  | none => simp [hep, InPhase, hstate] at hphase
  | some p =>
    rw [hep] at hphase hlast
    obtain ⟨hfits, -, hreadied⟩ := hphase
    obtain ⟨v, hv, hevents⟩ := hreadied hstate
    obtain rfl : v = value := some.inj (hv.symm.trans hvalue)
    exact ⟨⟨p.1, hlast.symm, hep.trans (by rw [← hevents]), hfits⟩, hlease⟩

lemma refuses_of_not_fits
    (h : ∀ s, m.links token.linkID = some s → SessionLink.fits s.snapshot token = false) :
    m.Refuses token := by
  cases hs : m.links token.linkID with
  | none =>
    refine ⟨fun _ _ => by simp [ready, hs], fun lease _ => ?_, fun _ => by simp [drain, hs],
      fun _ _ => by simp [withdraw, hs]⟩
    unfold renew
    split
    · exact ⟨_, rfl⟩
    · exact ⟨.generationMismatch, by simp [hs]⟩
  | some s =>
    have hfit := h s hs
    refine ⟨fun _ _ => by simp [ready, hs, hfit], fun lease _ => ?_,
      fun _ => by simp [drain, hs, hfit], fun _ _ => by simp [withdraw, hs, hfit]⟩
    unfold renew
    split
    · exact ⟨_, rfl⟩
    · exact ⟨.generationMismatch, by simp [hs, hfit]⟩

/-- Fewer successes of `Begin` than there are generations: an earlier token does not fit. -/
lemma Fenced.earlier (hm : Fenced m) (hlen : (SessionLink.tokens id m.log).length ≤ 2 ^ 64)
    (htok : token ∈ (SessionLink.tokens id m.log).dropLast) : m.Refuses token := by
  obtain ⟨k, hk⟩ := List.mem_iff_getElem?.mp htok
  rw [List.getElem?_dropLast] at hk
  split_ifs at hk with hlt
  obtain ⟨rfl, hgen⟩ := hm.tokens id k token hk
  refine refuses_of_not_fits fun s hs => ?_
  by_contra hfit
  rw [Bool.not_eq_false] at hfit
  have hslot := hm.slots token.linkID
  rw [hs] at hslot
  have heq : s.snapshot.generation = token.generation := by rw [fits_iff.mp hfit]
  rw [hslot.2.1, hgen] at heq
  have hmod := congrArg toNat heq
  simp only [toNat_ofNat'] at hmod
  omega

variable [Unicode] [SHA256]

/-- **Generations fence off earlier transports.** In every state a sequence of calls leads to, a
value `Current` or `Wait` returns is the one published with the token of the last `Begin` on the
link, which was not withdrawn, drained or seen expired since, and the lease runs still; and as
long as `Begin` succeeded on the link no more than `2 ^ 64` times, a token of an earlier `Begin` is
refused everywhere. -/
theorem link_generation_fenced {m : Manager T}
    (hrun : Reachable step (fun _ _ => True) ({} : Manager T) m) (id : ID) :
    (∀ now value snapshot, (m.current id now).2 = (some value, some snapshot) →
      m.Published id value snapshot ∧ now < snapshot.leaseUntil) ∧
    (∀ now created value snapshot, (m.wait id now created).2 = .ok (some (value, snapshot)) →
      m.Published id value snapshot ∧ now < snapshot.leaseUntil) ∧
    ((SessionLink.tokens id m.log).length ≤ 2 ^ 64 →
      ∀ token ∈ (SessionLink.tokens id m.log).dropLast, m.Refuses token) := by
  have hm := Fenced.reachable hrun
  refine ⟨fun now value snapshot h => ?_, fun now created value snapshot h => ?_,
    fun hlen token htok => hm.earlier hlen htok⟩
  · unfold current at h
    split at h
    · simp at h
    split at h
    · simp at h
    · rename_i s hs
      dsimp only at h
      split_ifs at h with hready
      · simp at h
      · rw [Bool.not_eq_true, Bool.not_eq_false'] at hready
        rw [expireLocked_ready hready] at h hready
        obtain ⟨hvalue, hsnap⟩ := Prod.mk.inj h
        exact Option.some.inj hsnap ▸ hm.published hs hready hvalue
  · unfold wait at h
    split at h
    · simp at h
    · dsimp only at h
      split_ifs at h with hready
      · rw [expireLocked_ready hready] at h hready
        obtain ⟨v, hvalue, hpair⟩ := Option.map_eq_some_iff.mp (Except.ok.inj h)
        obtain ⟨rfl, hsnap⟩ := Prod.mk.inj hpair
        exact hsnap ▸ hm.published (slotLocked_ready hready) hready hvalue
      · simp at h

end Manager

/-! ### A link between two nodes -/

attribute [local instance] asciiCase sha256

def smallDescriptor : Descriptor :=
  ⟨replicate 64 (.char '0'), ["a", "b"], "a", "b"⟩

def smallTransport : TransportID := "transport"

def smallID : ID :=
  SHA256.hex ([idVersion, smallDescriptor.chainSHA256, "a", "b"].flatMap
    fun value => bytes value ++ [0])

/-- The token of the `n`-th `Begin`. -/
def smallToken (n : ℕ) : Token := ⟨smallID, smallTransport, ofNat n⟩

lemma deriveID_small : deriveID smallDescriptor = .ok smallID := by
  have hnorm : normalizeDescriptor smallDescriptor =
      .ok (smallDescriptor, "a", "b") := by decide +kernel
  simp only [deriveID, hnorm]
  rfl

/-- A `Begin` on the link. -/
def smallBegin : Manager.Call ℕ := .begin smallDescriptor smallTransport second 0 0

/-- The slot after `n + 1` times that. -/
def smallSlot (n : ℕ) : Slot ℕ where
  snapshot := { version := idVersion, linkID := smallID, transportID := smallTransport,
                generation := ofNat (n + 1), localNode := "a", peerNode := "b",
                state := .connecting, leaseUntil := second, updatedAt := 0 }
  value := none

def smallManager (n : ℕ) : Manager ℕ where
  links := update (fun _ => none) smallID (some (smallSlot n))
  known := [smallID]
  log := (range (n + 1)).map fun k => .began (smallToken (k + 1))

lemma step_smallBegin {m : Manager ℕ} {s : Slot ℕ} (hs : (m.slotLocked smallID 0).2 = s)
    (hkeep : s.snapshot.state = .disconnected ∨ 0 < s.snapshot.leaseUntil) :
    m.step smallBegin = some (((m.slotLocked smallID 0).1.put smallID
      ⟨{ version := idVersion, linkID := smallID, transportID := smallTransport,
         generation := s.snapshot.generation + 1, localNode := "a", peerNode := "b",
         state := .connecting, leaseUntil := second, updatedAt := 0 }, none⟩).note
      (.began ⟨smallID, smallTransport, s.snapshot.generation + 1⟩)) := by
  have hnorm : normalizeDescriptor smallDescriptor =
      .ok (smallDescriptor, "a", "b") := by decide +kernel
  have htransport : validateTransportID smallTransport = .ok () := by decide +kernel
  have hlease : validateLease second = .ok () := by decide +kernel
  have htrim : trimSpace smallTransport = smallTransport := by decide +kernel
  have h : (m.slotLocked smallID 0).1.expireLocked smallID s 0 = ((m.slotLocked smallID 0).1, s) :=
    if_pos (by simp only [Bool.or_eq_true, decide_eq_true_eq]; tauto)
  simp only [step, smallBegin, begin, deriveID_small, htransport, hlease, hnorm,
    hs, h, htrim, Int.zero_add]
  rfl

lemma smallBegin_first : step ({} : Manager ℕ) smallBegin = some (smallManager 0) := by
  rw [step_smallBegin rfl (.inl rfl)]
  simp [smallManager, smallSlot, slotLocked, put, note, smallToken]

lemma smallBegin_next (n : ℕ) : (smallManager n).step smallBegin = some (smallManager (n + 1)) := by
  have hlease : (0 : ℤ) < second := by decide
  have hs : ((smallManager n).slotLocked smallID 0).2 = smallSlot n := by
    simp [smallManager, slotLocked]
  rw [step_smallBegin hs (.inr hlease)]
  simp [smallManager, smallSlot, slotLocked, put, note, smallToken, range_succ]

lemma smallManager_reachable (n : ℕ) :
    Reachable step (fun _ _ => True) ({} : Manager ℕ) (smallManager n) := by
  induction n with
  | zero => exact .next .start trivial smallBegin_first
  | succ n ih => exact .next ih trivial (smallBegin_next n)

lemma tokens_smallManager (n : ℕ) :
    tokens smallID (smallManager n).log = (range (n + 1)).map fun k => smallToken (k + 1) := by
  simp [tokens, smallManager, filterMap_map, comp_def, token?, smallToken]

/-- The second of two transports publishes; the token of the first is refused. -/
theorem link_generation_fenced_second : ∃ (m : Manager ℕ) (snapshot : Snapshot),
    Reachable step (fun _ _ => True) ({} : Manager ℕ) m ∧
    (m.current smallID 1).2 = (some 7, some snapshot) ∧
    (m.Published smallID 7 snapshot ∧ 1 < snapshot.leaseUntil) ∧ m.Refuses (smallToken 1) := by
  let new : Slot ℕ := ⟨{ (smallSlot 1).snapshot with state := .ready }, some 7⟩
  let m : Manager ℕ := ((smallManager 1).put smallID new).note (.readied (smallToken 2) 7)
  have hready : ((smallManager 1).ready (smallToken 2) 7 0).1 = m := by
    have hlease : (0 : ℤ) < second := by decide
    simp [ready, m, new, smallManager, smallSlot, smallToken, fits, hlease]
  have hrun : Reachable step (fun _ _ => True) ({} : Manager ℕ) m :=
    .next (a := .ready (smallToken 2) 7 0) (smallManager_reachable 1) trivial
      (congrArg some hready)
  have hcurrent : (m.current smallID 1).2 = (some 7, some new.snapshot) := by
    have hlease : (1 : ℤ) < second := by decide
    have hzero : isZero second = false := by decide
    have hvalid := validateID_of_deriveID deriveID_small
    simp [current, hvalid, m, new, expireLocked, smallSlot, Snapshot.readyAt, hlease, hzero]
  have hlog : tokens smallID m.log = [smallToken 1, smallToken 2] := by
    change tokens smallID ((smallManager 1).log ++ [_]) = _
    rw [tokens_append, tokens_smallManager]
    rfl
  obtain ⟨hcur, -, hold⟩ := link_generation_fenced hrun smallID
  rw [hlog] at hold
  exact ⟨m, new.snapshot, hrun, hcurrent, hcur 1 7 _ hcurrent, hold (by decide) _ (by simp)⟩

/-- `2 ^ 64` further `Begin`s bring the generation of the first one back, and its token is accepted
again. -/
theorem wrapped_generation_accepted : ∃ m : Manager ℕ,
    Reachable step (fun _ _ => True) ({} : Manager ℕ) m ∧
    ∃ token ∈ (tokens smallID m.log).dropLast, ∃ snapshot,
      (m.ready token 7 0).2 = .ok snapshot := by
  have hlease : (0 : ℤ) < second := by decide
  have hgen : UInt64.ofNat (2 ^ 64 + 1) = UInt64.ofNat 1 := by decide
  refine ⟨smallManager (2 ^ 64), smallManager_reachable _, smallToken 1, ?_, ?_⟩
  · rw [tokens_smallManager, range_succ, map_append, map_singleton, List.dropLast_concat]
    exact List.mem_map.mpr ⟨0, List.mem_range.mpr (by decide), rfl⟩
  · simp only [Manager.ready, smallManager, smallSlot, smallToken, Function.update_self, hgen]
    simp [fits, hlease]

end WeaverSSH.SessionLink
