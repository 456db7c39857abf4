import WeaverSSH.SessionMux.Pair

/-!
# A mux seen from one stream

`Mux.view m i` is what the mux `m` holds of the stream identifier `i`: an `End`. Every step of a
healthy mux is, for each identifier, a step of its end or nothing at all (`Mux.Move.view`).

Goroutines and events name streams by handle, frames by identifier. `Mux.Tidy` says that the two
agree.
-/

namespace WeaverSSH.SessionMux

/-! ## Whose is what -/

def idAt (ids : List StreamID) (h : Handle) : StreamID := ids[h]?.getD 0

def Call.sid (ids : List StreamID) : Call → StreamID
  | .sending f _ => f.streamID
  | .removing id => id
  | .openWait h | .openMark h | .openInit h | .openReturn h | .openAbort h _ | .writeLock h _
  | .writeLoop h _ _ | .writeUnlock h | .closeLock h | .closeUnlock h | .closeCheck h
  | .resetLock h | .resetUnlock h => idAt ids h

def Reader.sid (ids : List StreamID) : Reader → Option StreamID
  | .ready | .handling _ | .stopped => none
  | .found f _ | .delivering f _ | .sending f _ => some f.streamID
  | .removing id | .resetClose _ id => some id
  | .closeCheck h | .failClose h _ | .opened h | .backlogDrop h | .windowInit h | .marking h
  | .publishing h | .openFail h _ | .openFailDrop h _ => some (idAt ids h)

def Event.sid (ids : List StreamID) : Event → Option StreamID
  | .sent f | .handled f | .violation f _ => some f.streamID
  | .failed _ => none
  | .wrote h _ | .writeOK h _ | .closed h | .read h _ | .readEOF h | .readError h _ =>
      some (idAt ids h)

/-- The handle of a site is that of the stream with identifier `j`. -/
def Site.Points (ids : List StreamID) (j : StreamID) : Site → Prop
  | .opening h | .openWindow h | .cancel h | .write h _ _ | .close h | .reset h => ids[h]? = some j
  | .readGrant => True

/-- The handle of a goroutine is valid, and its frame belongs to the stream it points to. -/
def Call.Points (ids : List StreamID) : Call → Prop
  | .sending f site => site.Points ids f.streamID
  | .removing _ => True
  | .openWait h | .openMark h | .openInit h | .openReturn h | .openAbort h _ | .writeLock h _
  | .writeLoop h _ _ | .writeUnlock h | .closeLock h | .closeUnlock h | .closeCheck h
  | .resetLock h | .resetUnlock h => h < ids.length

def ReaderSite.Points (ids : List StreamID) (j : StreamID) : ReaderSite → Prop
  | .accept h | .window h => ids[h]? = some j
  | .reset id => id = j
  | .reply | .ignored => True

def Reader.Points (ids : List StreamID) : Reader → Prop
  | .ready | .handling _ | .stopped | .removing _ => True
  | .found f h | .delivering f h => ids[h]? = some f.streamID
  | .resetClose h id => ids[h]? = some id
  | .sending f site => site.Points ids f.streamID
  | .closeCheck h | .failClose h _ | .opened h | .backlogDrop h | .windowInit h | .marking h
  | .publishing h | .openFail h _ | .openFailDrop h _ => h < ids.length

def Event.Points (ids : List StreamID) : Event → Prop
  | .sent _ | .handled _ | .violation .. | .failed _ => True
  | .wrote h _ | .writeOK h _ | .closed h | .read h _ | .readEOF h | .readError h _ =>
      h < ids.length

section

variable {ids more : List StreamID} {h : Handle} {j : StreamID}

lemma idAt_eq (hj : ids[h]? = some j) : idAt ids h = j := by simp [idAt, hj]

lemma idAt_append (hh : h < ids.length) : idAt (ids ++ more) h = idAt ids h := by
  simp [idAt, List.getElem?_append_left hh]

lemma getElem?_append_of_some (hj : ids[h]? = some j) : (ids ++ more)[h]? = some j := by
  rw [List.getElem?_append_left (List.getElem?_eq_some_iff.mp hj).1, hj]

lemma lt_length_append (hh : h < ids.length) : h < (ids ++ more).length := by
  rw [List.length_append]
  exact Nat.lt_add_right _ hh

variable {site : Site}

lemma Site.Points.mono (hp : site.Points ids j) : site.Points (ids ++ more) j := by
  cases site <;> first | trivial | exact getElem?_append_of_some hp

lemma Call.Points.mono {c : Call} (hp : c.Points ids) : c.Points (ids ++ more) := by
  cases c with
  | sending => exact Site.Points.mono hp
  | removing => trivial
  | _ => exact lt_length_append hp

lemma Reader.Points.mono {r : Reader} (hp : r.Points ids) : r.Points (ids ++ more) := by
  cases r with
  | ready | handling | stopped | removing => trivial
  | found | delivering | resetClose => exact getElem?_append_of_some hp
  | sending f site => cases site <;> first | exact hp | exact getElem?_append_of_some hp
  | _ => exact lt_length_append hp

variable {w : Event}

lemma Event.Points.mono (hp : w.Points ids) : w.Points (ids ++ more) := by
  cases w with
  | sent | handled | violation | failed => trivial
  | _ => exact lt_length_append hp

lemma Call.sid_append {c : Call} (hp : c.Points ids) : c.sid (ids ++ more) = c.sid ids := by
  cases c <;> first | rfl | exact idAt_append hp

lemma Reader.sid_append {r : Reader} (hp : r.Points ids) : r.sid (ids ++ more) = r.sid ids := by
  cases r <;> first | rfl | exact congrArg some (idAt_append hp)

lemma Event.sid_append (hp : w.Points ids) : w.sid (ids ++ more) = w.sid ids := by
  cases w <;> first | rfl | exact congrArg some (idAt_append hp)

/-! ### Sections stay on their stream -/

variable {s s' : Stream} {c : Call} {c' : Option Call} {pick : Mux.Pick} {a : Mux.Act}
  {r r' : Reader} {evs : List Event}

lemma CallStep.points (hstep : CallStep h s c pick s' c' evs) (hh : ids[h]? = some s.id) :
    c.sid ids = s.id ∧ (∀ c₀ ∈ c', c₀.sid ids = s.id ∧ c₀.Points ids) ∧
      ∀ w ∈ evs, w.sid ids = some s.id ∧ w.Points ids := by
  have hid := idAt_eq hh
  obtain ⟨hlt, hget⟩ := List.getElem?_eq_some_iff.mp hh
  cases hstep with
  | init hinit =>
    obtain ⟨-, rfl, -⟩ := Mux.initialWindowFrame_eq hinit
    simp [Call.sid, Call.Points, Site.Points, Stream.windowFrame, hid, hh]
  | _ =>
    simp [Call.sid, Call.Points, Site.Points, Event.sid, Event.Points, Stream.resetFrame,
      Stream.dataFrame, Stream.closeFrame, hid, hget, hlt]

lemma AppStep.points (hstep : AppStep h a s s' c' evs) (hh : ids[h]? = some s.id) :
    (∀ c₀ ∈ c', c₀.sid ids = s.id ∧ c₀.Points ids) ∧
      ∀ w ∈ evs, w.sid ids = some s.id ∧ w.Points ids := by
  have hid := idAt_eq hh
  obtain ⟨hlt, hget⟩ := List.getElem?_eq_some_iff.mp hh
  cases hstep <;> simp [Call.sid, Call.Points, Site.Points, Event.sid, Event.Points,
    Stream.windowFrame, hid, hlt]

lemma ReaderStep.points (hstep : ReaderStep h s r s' r' evs) (hh : ids[h]? = some s.id)
    (hp : r.Points ids) :
    r.sid ids = some s.id ∧ (r' = .ready ∨ r'.sid ids = some s.id) ∧ r'.Points ids ∧
      ∀ w ∈ evs, w.sid ids = some s.id ∧ w.Points ids := by
  have hid := idAt_eq hh
  obtain ⟨hlt, hget⟩ := List.getElem?_eq_some_iff.mp hh
  have hsame : ∀ j, ids[h]? = some j → j = s.id := fun j hj =>
    (Option.some.inj (hh.symm.trans hj)).symm
  cases hstep with
  | init hinit =>
    obtain ⟨-, rfl, -⟩ := Mux.initialWindowFrame_eq hinit
    simp [Reader.sid, Reader.Points, ReaderSite.Points, Stream.windowFrame, hid, hh]
  | accept | windowService | windowPayload | windowRefused | window | dataRefused | data
  | closeService | close | reset | deliver | deliverRefused | resetClose =>
    have hf := hsame _ hp
    simp [Reader.sid, Reader.Points, Event.sid, Event.Points, hid, hget, hlt, hf]
  | _ =>
    simp [Reader.sid, Reader.Points, ReaderSite.Points, Stream.resetFrame, Stream.acceptFrame,
      hid, hget, hlt]

lemma Site.next_points (hp : site.Points ids j) :
    ∀ c ∈ site.next, c.sid ids = j ∧ c.Points ids := by
  cases site with
  | readGrant => simp [Site.next]
  | _ =>
    have hid := idAt_eq hp
    have hlt := (List.getElem?_eq_some_iff.mp hp).1
    simp [Site.next, Call.sid, Call.Points, hid, hlt]

lemma Site.running_points (hp : site.Points ids j) :
    ∀ c ∈ site.running, c.sid ids = j ∧ c.Points ids := by
  unfold Site.running
  split
  · simp
  · exact Site.next_points hp

lemma Site.waits_points (hp : site.Points ids j) : ∀ w ∈ site.waits, w.Points ids j := by
  unfold Site.waits
  split
  · simpa using hp
  · simp

lemma ReaderSite.next_points {site : ReaderSite} (hp : site.Points ids j) :
    (site.next = .ready ∨ site.next.sid ids = some j) ∧ site.next.Points ids := by
  cases site with
  | accept | window =>
    have hid := idAt_eq hp
    have hlt := (List.getElem?_eq_some_iff.mp hp).1
    simp [ReaderSite.next, Reader.sid, Reader.Points, hid, hlt]
  | reset => simp [ReaderSite.next, Reader.sid, Reader.Points, show _ = j from hp]
  | reply | ignored => simp [ReaderSite.next, Reader.Points]

end

section

variable {α : Type*} {p : α → Bool} {l₁ l₂ : List α} {c : α} {c' : Option α}

lemma filter_toList_self (h : ∀ x ∈ c', p x = true) : c'.toList.filter p = c'.toList := by
  cases c' with
  | none => rfl
  | some x => simpa using h x rfl

lemma filter_toList_nil (h : ∀ x ∈ c', p x = false) : c'.toList.filter p = [] := by
  cases c' with
  | none => rfl
  | some x => simpa using h x rfl

end

namespace Mux

variable {m m' : Mux} {i j : StreamID}

def ids (m : Mux) : List StreamID := m.heap.map Stream.id

/-- The requests whose result is still out, oldest first. -/
def requests (m : Mux) : List WriteRequest :=
  match m.writer with
  | .writing r => r :: m.outgoing
  | _ => m.outgoing

/-- The identifiers this mux opens streams with. -/
def owns (m : Mux) (i : StreamID) : Bool :=
  match m.role with
  | .initiator => i % 2 = 1
  | .responder => i % 2 = 0

def view (m : Mux) (i : StreamID) : End where
  stream := m.heap[m.ids.idxOf i]?
  listed := (m.streams i).isSome
  queued := m.incoming.any fun h => idAt m.ids h = i
  held := m.held.any fun h => idAt m.ids h = i
  calls := m.calls.filter fun c => c.sid m.ids = i
  waiting := m.requests.filterMap fun r => if r.frame.streamID = i then r.waiter else none
  reader := if m.reader.sid m.ids = some i then m.reader else .ready
  log := m.log.filter fun w => w.sid m.ids = some i

/-- Handles and identifiers agree. -/
structure Tidy (m : Mux) : Prop where
  nodup : m.ids.Nodup
  nonzero : 0 ∉ m.ids
  table : ∀ i h, m.streams i = some h → m.ids[h]? = some i
  nextID : m.owns m.nextID = true
  calls : ∀ c ∈ m.calls, c.Points m.ids
  requests : ∀ r ∈ m.requests, ∀ site ∈ r.waiter, site.Points m.ids r.frame.streamID
  reader : m.reader.Points m.ids
  incoming : ∀ h ∈ m.incoming, h < m.ids.length
  held : ∀ h ∈ m.held, h < m.ids.length
  log : ∀ w ∈ m.log, w.Points m.ids

/-- No shutdown is under way. -/
structure Healthy (m : Mux) : Prop where
  err : m.err = none
  done : m.done = false
  connClosed : m.connClosed = false
  stopping : m.stopping = []
  reader : m.reader ≠ .stopped
  writer : m.writer ≠ .stopped
  log : ∀ e, Event.failed e ∉ m.log

/-! ## Streams -/

lemma ids_getElem? (h : Handle) : m.ids[h]? = m.heap[h]?.map Stream.id := by simp [ids]

variable {h : Handle} {s : Stream}

lemma ids_of_heap (hs : m.heap[h]? = some s) :
    m.ids[h]? = some s.id := by rw [ids_getElem?, hs]; rfl

lemma ids_set {s s' : Stream} (hs : m.heap[h]? = some s) (hid : s'.id = s.id) :
    (m.heap.set h s').map Stream.id = m.ids := by
  rw [List.map_set, hid, ids]
  obtain ⟨hlt, rfl⟩ := List.getElem?_eq_some_iff.mp hs
  rw [← List.getElem_map Stream.id (h := by simpa using hlt)]
  exact List.set_getElem_self _

lemma Tidy.idxOf (ht : Tidy m) (hj : m.ids[h]? = some j) : m.ids.idxOf j = h := by
  obtain ⟨hlt, rfl⟩ := List.getElem?_eq_some_iff.mp hj
  exact ht.nodup.idxOf_getElem h hlt

lemma Tidy.view_stream (ht : Tidy m) (hs : m.heap[h]? = some s) :
    (m.view s.id).stream = some s := by
  rw [view, ht.idxOf (ids_of_heap hs), hs]

lemma view_stream_none (hi : i ∉ m.ids) : (m.view i).stream = none := by
  rw [view, List.idxOf_eq_length hi, ids, List.length_map]
  simp

lemma notMem_ids_of_view (hnone : (m.view i).stream = none) : i ∉ m.ids := by
  intro hmem
  have hlt : m.ids.idxOf i < m.heap.length := by
    rw [← List.length_map (f := Stream.id)]
    exact List.idxOf_lt_length_of_mem hmem
  rw [view, List.getElem?_eq_getElem hlt] at hnone
  cases hnone

/-! ## Whose identifiers are whose -/

lemma mod_two (i : StreamID) : i % 2 = 0 ∨ i % 2 = 1 := by
  rw [← UInt32.toNat_inj, ← UInt32.toNat_inj]
  simp only [UInt32.toNat_mod, UInt32.reduceToNat]
  omega

lemma peerOwns_iff : m.peerOwns i = true ↔ i ≠ 0 ∧ m.owns i = false := by
  unfold peerOwns owns
  split_ifs with hzero
  · simp [hzero]
  · cases m.role <;> rcases mod_two i with h | h <;> simp [h, hzero]

lemma owns_other (hroles : m'.role ≠ m.role) (i : StreamID) : m'.owns i = !m.owns i := by
  unfold owns
  cases hm : m.role <;> cases hm' : m'.role <;> rw [hm, hm'] at hroles <;>
    first
    | exact absurd rfl hroles
    | rcases mod_two i with h | h <;> simp [h]

end Mux

end WeaverSSH.SessionMux
