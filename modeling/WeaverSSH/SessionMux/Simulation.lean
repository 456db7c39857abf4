import WeaverSSH.SessionMux.View

/-!
# Every step of a mux is a step of one end
-/

namespace WeaverSSH.SessionMux.Mux

open List Reader Function Site

variable {m m' : Mux} {i j : StreamID} {a : Act} {h : Handle} {s s' : Stream}

/-- A step concerns the end of one stream, or none. -/
def Follows (m : Mux) (a : Act) (m' : Mux) : Prop :=
  (∀ i, m'.view i = m.view i) ∨
    ∃ j, End.Step (m.owns j) m.limits (m.view j) a (m'.view j) ∧ ∀ i, i ≠ j → m'.view i = m.view i

lemma Tidy.stream_set (ht : Tidy m) (hs : m.heap[h]? = some s) (s' : Stream) (i : StreamID) :
    (m.heap.set h s')[m.ids.idxOf i]? = if i = s.id then some s' else (m.view i).stream := by
  obtain ⟨hlt, -⟩ := List.getElem?_eq_some_iff.mp hs
  split
  · rename_i hi
    rw [hi, ht.idxOf (ids_of_heap hs), List.getElem?_set_self hlt]
  · rename_i hi
    rw [List.getElem?_set_ne, view]
    rintro heq
    have hmem : i ∈ m.ids := by
      rw [← idxOf_lt_length_iff, ← heq, ids, length_map]
      exact hlt
    have hid := ids_of_heap hs
    rw [heq, List.getElem?_eq_getElem (idxOf_lt_length_of_mem hmem), getElem_idxOf] at hid
    exact hi (Option.some.inj hid)

/-- The view with the identifiers of the streams given. -/
def viewIn (n : Mux) (ids : List StreamID) (i : StreamID) : End where
  stream := n.heap[ids.idxOf i]?
  listed := (n.streams i).isSome
  queued := n.incoming.any fun h => idAt ids h = i
  held := n.held.any fun h => idAt ids h = i
  calls := n.calls.filter fun c => c.sid ids = i
  waiting := n.requests.filterMap fun r => if r.frame.streamID = i then r.waiter else none
  reader := if n.reader.sid ids = some i then n.reader else .ready
  log := n.log.filter fun w => w.sid ids = some i

variable {n : Mux}

lemma Follows.of_ids {e : End} (hids : n.ids = m.ids)
    (hstep : End.Step (m.owns j) m.limits (m.view j) a e) (hj : n.viewIn m.ids j = e)
    (hne : ∀ i, i ≠ j → n.viewIn m.ids i = m.view i) : Follows m a n := by
  have hview : ∀ i, n.view i = n.viewIn m.ids i := fun i => hids ▸ rfl
  exact .inr ⟨j, by rwa [hview, hj], fun i hi => (hview i).trans (hne i hi)⟩

variable {r : WriteRequest} {ids : List StreamID} {evs : List Event} {c' : Option Call}
  {l₁ l₂ : List Call} {f : Frame}

lemma requests_push (hw : n.writer = m.writer)
    (ho : n.outgoing = m.outgoing ++ [r]) : n.requests = m.requests ++ [r] := by
  unfold requests
  rw [hw, ho]
  split <;> simp

lemma mem_requests_push {r₀ : WriteRequest} (hr : r₀ ∈ m'.requests) (hw : m'.writer = m.writer)
    (ho : m'.outgoing = m.outgoing ++ [r]) : r₀ ∈ m.requests ∨ r₀ = r := by
  rw [requests_push hw ho] at hr
  simpa using hr

lemma filter_events_self (h : ∀ w ∈ evs, w.sid ids = some j ∧ w.Points ids) :
    evs.filter (fun w => w.sid ids = some j) = evs :=
  filter_eq_self.mpr fun w hw => by simpa using (h w hw).1

lemma filter_events_nil (h : ∀ w ∈ evs, w.sid ids = some j ∧ w.Points ids) (hi : i ≠ j) :
    evs.filter (fun w => w.sid ids = some i) = [] :=
  filter_eq_nil_iff.mpr fun w hw => by simpa [(h w hw).1] using hi.symm

lemma filter_call_self (h : ∀ c ∈ c', c.sid ids = j ∧ c.Points ids) :
    c'.toList.filter (fun c => c.sid ids = j) = c'.toList :=
  filter_toList_self fun c hc => by simpa using (h c hc).1

lemma filter_call_nil (h : ∀ c ∈ c', c.sid ids = j ∧ c.Points ids) (hi : i ≠ j) :
    c'.toList.filter (fun c => c.sid ids = i) = [] :=
  filter_toList_nil fun c hc => by simpa [(h c hc).1] using hi.symm

variable {k : ℕ}

lemma Follows.call (ht : Tidy m) {pick : Pick} {c : Call} (hcalls : m.calls = l₁ ++ c :: l₂)
    (hs : m.heap[h]? = some s) (hflow : s.Flow) (hstep : CallStep h s c pick s' c' evs)
    (hcancel : pick = .cancel → s.acceptOne = true) : Follows m (.run k pick) { m with
      heap := m.heap.set h s', calls := l₁ ++ c'.toList ++ l₂, log := m.log ++ evs } := by
  obtain ⟨hc, hc', hevs⟩ := hstep.points (ids_of_heap hs)
  have hold : (m.view s.id).calls = l₁.filter (fun c => c.sid m.ids = s.id) ++ c ::
      l₂.filter (fun c => c.sid m.ids = s.id) := by
    simp [view, hcalls, filter_append, hc]
  refine .of_ids (ids_set hs (hstep.flow hflow).2.id)
    (.call hold (ht.view_stream hs) hstep hcancel) ?_ fun i hi => ?_
  · simp [viewIn, view, ht.stream_set hs, filter_call_self hc', filter_events_self hevs, requests]
  · simp [viewIn, view, ht.stream_set hs, filter_call_nil hc' hi, filter_events_nil hevs hi,
      requests, hi, hcalls, hc, hi.symm]

lemma held_view (hheld : h ∈ m.held) : (m.view (idAt m.ids h)).held = true := by
  simp only [view, any_eq_true, decide_eq_true_eq]
  exact ⟨h, hheld, rfl⟩

lemma Follows.app (ht : Tidy m) (hheld : h ∈ m.held)
    (hs : m.heap[h]? = some s) (hflow : s.Flow) (hstep : AppStep h a s s' c' evs) :
    Follows m a { m with
      heap := m.heap.set h s', calls := m.calls ++ c'.toList, log := m.log ++ evs } := by
  obtain ⟨hc', hevs⟩ := hstep.points (ids_of_heap hs)
  have hheld' := held_view hheld
  rw [idAt_eq (ids_of_heap hs)] at hheld'
  refine .of_ids (ids_set hs (hstep.flow hflow).2.id) (.app hheld' (ht.view_stream hs) hstep) ?_
    fun i hi => ?_
  · simp [viewIn, view, ht.stream_set hs, filter_call_self hc', filter_events_self hevs, requests]
  · simp [viewIn, view, ht.stream_set hs, filter_call_nil hc' hi, filter_events_nil hevs hi,
      requests, hi]

lemma Follows.reader (ht : Tidy m) {r' : Reader} (hs : m.heap[h]? = some s)
    (hflow : s.Flow) (hstep : ReaderStep h s m.reader s' r' evs) : Follows m (.reader .go) { m with
      heap := m.heap.set h s', reader := r', log := m.log ++ evs } := by
  have hids := ids_set hs (hstep.flow hflow).2.id
  obtain ⟨hr, hr', -, hevs⟩ := hstep.points (ids_of_heap hs) ht.reader
  have hold : (m.view s.id).reader = m.reader := by simp [view, hr]
  rw [← hold] at hstep
  refine .of_ids hids (.reader (ht.view_stream hs) hstep) ?_ fun i hi => ?_
  · rcases hr' with rfl | hr'
    · simp [viewIn, view, ht.stream_set hs, filter_events_self hevs, requests]
    · simp [viewIn, view, ht.stream_set hs, filter_events_self hevs, requests, hr']
  · rcases hr' with rfl | hr'
    · simp [viewIn, view, ht.stream_set hs, filter_events_nil hevs hi, requests, hi, hr, hi.symm]
    · simp [viewIn, view, ht.stream_set hs, filter_events_nil hevs hi, requests, hi, hr, hr',
        hi.symm]

lemma Follows.write {p : Bytes} (hheld : h ∈ m.held) (hne : p ≠ []) :
    Follows m (.write h p) { m with calls := m.calls ++ [.writeLock h p] } := by
  refine .of_ids rfl (.write (h := h) (held_view hheld) hne) ?_ fun i hi => ?_
  · simp [viewIn, view, Call.sid, requests]
  · simp [viewIn, view, Call.sid, requests, hi.symm]

lemma Follows.accept {rest : List Handle} (hin : m.incoming = h :: rest) :
    Follows m .accept { m with incoming := rest, held := m.held ++ [h] } := by
  have hq : (m.view (idAt m.ids h)).queued = true := by simp [view, hin]
  refine .of_ids rfl (.accept (q := rest.any fun h' => idAt m.ids h' = idAt m.ids h) hq) ?_
    fun i hi => ?_
  · simp [viewIn, view, requests]
  · simp [viewIn, view, requests, hin, hi.symm]

lemma Follows.enqueue (ht : Tidy m) {site : Site} (hcalls : m.calls = l₁ ++ .sending f site :: l₂) :
    Follows m (.run k .go) { m with
      calls := l₁ ++ site.running.toList ++ l₂
      outgoing := m.outgoing ++ [⟨f, site.waits⟩], log := m.log ++ [.sent f] } := by
  have hp : site.Points m.ids f.streamID := ht.calls (.sending f site) (by simp [hcalls])
  have hrun := running_points hp
  have hreq := requests_push (m := m) (n := { m with
    calls := l₁ ++ site.running.toList ++ l₂
    outgoing := m.outgoing ++ [⟨f, site.waits⟩]
    log := m.log ++ [.sent f] }) rfl rfl
  have hold : (m.view f.streamID).calls =
      l₁.filter (fun c => c.sid m.ids = f.streamID) ++ .sending f site ::
      l₂.filter (fun c => c.sid m.ids = f.streamID) := by
    simp [view, hcalls, filter_append, Call.sid]
  refine .of_ids rfl (.enqueue hold) ?_ fun i hi => ?_
  · rw [viewIn, hreq]
    cases hw : site.waits <;> simp [view, filter_call_self hrun, Event.sid]
  · have hsid : (Call.sending f site).sid m.ids = f.streamID := rfl
    rw [viewIn, hreq]
    simp [view, filter_call_nil hrun hi, Event.sid, hi.symm, hcalls, hsid]

lemma Follows.openReturn (hcalls : m.calls = l₁ ++ .openReturn h :: l₂) :
    Follows m (.run k .go) { m with calls := l₁ ++ l₂, held := m.held ++ [h] } := by
  have hold : (m.view (idAt m.ids h)).calls =
      l₁.filter (fun c => c.sid m.ids = idAt m.ids h) ++ .openReturn h ::
      l₂.filter (fun c => c.sid m.ids = idAt m.ids h) := by
    simp [view, hcalls, filter_append, Call.sid]
  refine .of_ids rfl (.openReturn hold) ?_ fun i hi => ?_
  · simp [viewIn, view, requests]
  · simp [viewIn, view, requests, hcalls, Call.sid, hi.symm]

variable {id : StreamID}

lemma Follows.remove (hcalls : m.calls = l₁ ++ .removing id :: l₂) : Follows m (.run k .go) { m with
      calls := l₁ ++ l₂, streams := update m.streams id none } := by
  have hold : (m.view id).calls = l₁.filter (fun c => c.sid m.ids = id) ++ .removing id ::
      l₂.filter (fun c => c.sid m.ids = id) := by
    simp [view, hcalls, filter_append, Call.sid]
  refine .of_ids rfl (.remove hold) ?_ fun i hi => ?_
  · simp [viewIn, view, requests]
  · simp [viewIn, view, requests, hcalls, Call.sid, hi, hi.symm]

lemma Follows.written (ht : Tidy m) (hw : m.writer = .writing r) : Follows m .written { m with
      writer := .idle, calls := m.calls ++ (r.waiter.bind next).toList } := by
  have hreq : m.requests = r :: m.outgoing := by simp [requests, hw]
  rcases Option.eq_none_or_eq_some r.waiter with hwait | ⟨site, hwait⟩
  · refine .inl fun i => ?_
    change viewIn _ m.ids i = _
    simp [viewIn, view, hreq, hwait, show requests { m with writer := .idle, calls := m.calls } =
      m.outgoing from rfl]
  · have hnext := next_points (ht.requests r (by simp [hreq]) site hwait)
    have hold : (m.view r.frame.streamID).waiting = site :: m.outgoing.filterMap
        (fun r' => if r'.frame.streamID = r.frame.streamID then r'.waiter else none) := by
      simp [view, hreq, hwait]
    have hreq' : ({ m with
      writer := .idle, calls := m.calls ++ (r.waiter.bind next).toList } : Mux).requests =
        m.outgoing := rfl
    refine .of_ids rfl (.written hold) ?_ fun i hi => ?_
    · rw [viewIn, hreq']
      simp [view, hwait, filter_call_self hnext]
    · rw [viewIn, hreq']
      simp [view, hreq, hi.symm, hwait, filter_call_nil hnext hi]

/-! ## The reader loop -/

lemma Follows.readerEnqueue (ht : Tidy m) {site : ReaderSite} (hr : m.reader = .sending f site) :
    Follows m (.reader .go) { m with
      outgoing := m.outgoing ++ [⟨f, none⟩], log := m.log ++ [.sent f], reader := site.next } := by
  have hp : site.Points m.ids f.streamID := by
    have := ht.reader
    rwa [hr] at this
  obtain ⟨hnext, -⟩ := ReaderSite.next_points hp
  have hreq := requests_push (m := m) (n := { m with
    outgoing := m.outgoing ++ [⟨f, none⟩]
    log := m.log ++ [.sent f]
    reader := site.next }) rfl rfl
  have hold : (m.view f.streamID).reader = .sending f site := by simp [view, hr, sid]
  refine .of_ids rfl (.readerEnqueue hold) ?_ fun i hi => ?_
  · rw [viewIn, hreq]
    rcases hnext with hnext | hnext <;> simp [view, Event.sid, hnext]
  · have hsid : m.reader.sid m.ids = some f.streamID := by rw [hr]; rfl
    rw [viewIn, hreq]
    rcases hnext with hnext | hnext <;> simp [view, Event.sid, hnext, hsid, hi.symm]

lemma Follows.readerRemove (hr : m.reader = .removing id) : Follows m (.reader .go) { m with
      streams := update m.streams id none, reader := .ready } := by
  have hold : (m.view id).reader = .removing id := by simp [view, hr, sid]
  refine .of_ids rfl (.readerRemove hold) ?_ fun i hi => ?_
  · simp [viewIn, view, requests]
  · simp [viewIn, view, requests, hr, sid, hi, hi.symm]

lemma Follows.backlogDrop (ht : Tidy m) (hr : m.reader = .backlogDrop h)
    (hs : m.heap[h]? = some s) : Follows m (.reader .go) { m with
      streams := update m.streams s.id none, reader := .sending s.resetFrame .reply } := by
  have hid := idAt_eq (ids_of_heap hs)
  have hold : (m.view s.id).reader = .backlogDrop h := by simp [view, hr, sid, hid]
  refine .of_ids rfl (.backlogDrop hold (ht.view_stream hs)) ?_ fun i hi => ?_
  · simp [viewIn, view, requests, sid, Stream.resetFrame]
  · simp [viewIn, view, requests, hr, sid, Stream.resetFrame, hid, hi, hi.symm]

lemma Follows.publish (hr : m.reader = .publishing h) :
    Follows m (.reader .go) { m with incoming := m.incoming ++ [h], reader := .ready } := by
  have hold : (m.view (idAt m.ids h)).reader = .publishing h := by simp [view, hr, sid]
  refine .of_ids rfl (.publish hold) ?_ fun i hi => ?_
  · simp [viewIn, view, requests]
  · simp [viewIn, view, requests, hr, sid, hi.symm]

/-- A frame of the reader loop that is given to a stream, or that none will have. -/
lemma Follows.handle {r : Reader} (hr : m.reader = .handling f)
    (hevs : ∀ w ∈ evs, w = .handled f) (hsid : r = .ready ∨ r.sid m.ids = some f.streamID)
    (hstep : (m.view f.streamID).reader = .ready → (m.view f.streamID).listed =
      (m.streams f.streamID).isSome → End.Step (m.owns f.streamID) m.limits (m.view f.streamID)
      (.reader .go) { m.view f.streamID with reader := r, log := (m.view f.streamID).log ++ evs }) :
    Follows m (.reader .go) { m with reader := r, log := m.log ++ evs } := by
  have hnone : m.reader.sid m.ids = none := by rw [hr]; rfl
  have hpoints : ∀ w ∈ evs, w.sid m.ids = some f.streamID ∧ w.Points m.ids := by
    intro w hw
    rw [hevs w hw]
    exact ⟨rfl, trivial⟩
  refine .of_ids rfl (hstep (by simp [view, hnone]) rfl) ?_ fun i hi => ?_
  · rcases hsid with rfl | hsid
    · simp [viewIn, view, requests, filter_events_self hpoints]
    · simp [viewIn, view, requests, hsid, filter_events_self hpoints]
  · rcases hsid with rfl | hsid
    · simp [viewIn, view, requests, hnone, filter_events_nil hpoints hi]
    · simp [viewIn, view, requests, hsid, hnone, hi.symm, filter_events_nil hpoints hi]

lemma Follows.lookup (hr : m.reader = .handling f) (hf : isLookup f.type = true)
    (hs : m.streams f.streamID = some h) :
    Follows m (.reader .go) { m with reader := .found f h } := by
  have hfollows := Follows.handle (r := .found f h) hr (forall_mem_nil _) (.inr rfl)
    fun hready hlisted => by
      rw [append_nil]
      exact .lookup hready (by simp [hlisted, hs]) hf
  rwa [append_nil] at hfollows

lemma Follows.readFrame (hr : m.reader = .ready) :
    Follows m (.readFrame f) { m with reader := .handling f } := by
  refine .inl fun i => ?_
  change viewIn _ m.ids i = _
  simp [viewIn, view, requests, hr, sid]

lemma Follows.take {rest : List WriteRequest} (hw : m.writer = .idle)
    (hout : m.outgoing = r :: rest) :
    Follows m .take { m with outgoing := rest, writer := .writing r } := by
  refine .inl fun i => ?_
  change viewIn _ m.ids i = _
  simp [viewIn, view, requests, hw, hout]

/-! ## New streams -/

lemma Tidy.view_new (ht : Tidy m) {cs : List Call}
    (hheap : n.heap = m.heap ++ [s]) (hid : s.id = j) (hnew : j ∉ m.ids)
    (hin : n.incoming = m.incoming) (hheld : n.held = m.held) (hcalls : n.calls = m.calls ++ cs)
    (hreq : n.requests = m.requests) (hlog : n.log = m.log ++ evs) (i : StreamID) : n.view i =
    { stream := if i = j then some s else (m.view i).stream, listed := (n.streams i).isSome
      queued := (m.view i).queued, held := (m.view i).held
      calls := (m.view i).calls ++ cs.filter fun c => c.sid (m.ids ++ [j]) = i
      waiting := (m.view i).waiting
      reader := if n.reader.sid (m.ids ++ [j]) = some i then n.reader else .ready
      log := (m.view i).log ++ evs.filter fun w => w.sid (m.ids ++ [j]) = some i } := by
  have hids : n.ids = m.ids ++ [j] := by simp [ids, hheap, hid]
  have hstream : n.heap[n.ids.idxOf i]? = if i = j then some s else (m.view i).stream := by
    rw [hids, hheap]
    split
    · rename_i hi
      rw [hi, idxOf_append_of_notMem hnew]
      simp [ids]
    · rename_i hi
      by_cases hmem : i ∈ m.ids
      · rw [idxOf_append_of_mem hmem, List.getElem?_append_left, view]
        rw [← length_map (f := Stream.id)]
        exact idxOf_lt_length_of_mem hmem
      · rw [view_stream_none hmem, idxOf_append_of_notMem hmem]
        simp [ids, Ne.symm hi]
  have hany : ∀ hs : List Handle, (∀ h ∈ hs, h < m.ids.length) →
      (hs.any fun h => idAt (m.ids ++ [j]) h = i) = hs.any fun h => idAt m.ids h = i := by
    intro hs hlt
    rw [Bool.eq_iff_iff]
    simp only [any_eq_true, decide_eq_true_eq]
    exact exists_congr fun h => and_congr_right fun hh => by rw [idAt_append (hlt h hh)]
  have hcalls' : (m.calls.filter fun c => c.sid (m.ids ++ [j]) = i) = (m.view i).calls :=
    filter_congr fun c hc => by rw [Call.sid_append (ht.calls c hc)]
  have hlog' : (m.log.filter fun w => w.sid (m.ids ++ [j]) = some i) = (m.view i).log :=
    filter_congr fun w hw => by rw [Event.sid_append (ht.log w hw)]
  rw [view, hstream, hids, hin, hheld, hcalls, hreq, hlog, filter_append, filter_append,
    hcalls', hlog', hany _ ht.incoming, hany _ ht.held]
  rfl

lemma Follows.openStream (ht : Tidy m) {service : ServiceID} {metadata : Bytes}
    (hvalid : service.valid = true) (hzero : m.nextID ≠ 0) (hnew : m.nextID ∉ m.ids)
    (hfits : metadata.length ≤ m.limits.codecMax) :
    Follows m (.openStream service metadata) { m with
      nextID := m.nextID + 2
      heap := m.heap ++ [newStream m.limits m.nextID service [] false]
      streams := update m.streams m.nextID (some m.heap.length), calls := m.calls ++ [.sending
        ((newStream m.limits m.nextID service [] false).openFrame metadata)
        (.opening m.heap.length)] } := by
  set s := newStream m.limits m.nextID service [] false with hs
  have hview := ht.view_new (j := m.nextID) (n := { m with
      nextID := m.nextID + 2
      heap := m.heap ++ [s]
      streams := update m.streams m.nextID (some m.heap.length)
      calls := m.calls ++ [.sending (s.openFrame metadata) (.opening m.heap.length)] })
    rfl rfl hnew rfl rfl rfl rfl (append_nil _).symm
  have hsid : (Call.sending (s.openFrame metadata) (.opening m.heap.length)).sid
      (m.ids ++ [m.nextID]) = m.nextID := rfl
  refine .inr ⟨m.nextID, ?_, fun i hi => ?_⟩
  · convert End.Step.openStream (h := m.heap.length) ht.nextID (view_stream_none hnew) hzero hvalid
      hfits using 1
    rw [hview]
    simp [hsid, ← hs, sid_append ht.reader, view]
  · rw [hview]
    simp [hsid, hi, hi.symm, sid_append ht.reader, view]

lemma Follows.openNew (ht : Tidy m) (hr : m.reader = .handling f)
    (hf : f.type = .frameOpen) (hpeer : m.peerOwns f.streamID = true)
    (hnone : m.streams f.streamID = none) (hnew : f.streamID ∉ m.ids) :
    Follows m (.reader .go) { m with
      heap := m.heap ++ [newStream m.limits f.streamID f.service f.payload true]
      streams := update m.streams f.streamID (some m.heap.length), reader := .opened m.heap.length
      log := m.log ++ [.handled f] } := by
  obtain ⟨hzero, howns⟩ := peerOwns_iff.mp hpeer
  set s := newStream m.limits f.streamID f.service f.payload true with hs
  have hview := ht.view_new (j := f.streamID) (n := { m with
      heap := m.heap ++ [s]
      streams := update m.streams f.streamID (some m.heap.length)
      reader := .opened m.heap.length
      log := m.log ++ [.handled f] })
    rfl rfl hnew rfl rfl (append_nil _).symm rfl rfl
  have hsid : (opened m.heap.length).sid (m.ids ++ [f.streamID]) = some f.streamID := by
    simp [sid, idAt, ids]
  have hnosid : m.reader.sid m.ids = none := by rw [hr]; rfl
  have hready : ∀ i, (m.view i).reader = .ready := fun i => by simp [view, hnosid]
  refine .inr ⟨f.streamID, ?_, fun i hi => ?_⟩
  · convert End.Step.openNew (h := m.heap.length) howns (hready _) (by simp [view, hnone])
      (view_stream_none hnew) hf hzero using 1
    rw [hview]
    simp [hsid, ← hs, view, Event.sid]
  · rw [hview]
    simp [hsid, hi, hi.symm, view, Event.sid, hnosid]

/-! ## Handles and identifiers -/

/-- What a step that makes no stream has to show. What it leaves alone is filled in. -/
structure Kept (m m' : Mux) : Prop where
  ids : m'.ids = m.ids := by rfl
  role : m'.role = m.role := by rfl
  nextID : m'.nextID = m.nextID := by rfl
  table : ∀ i h, m'.streams i = some h → m.streams i = some h := by exact fun _ _ h => h
  calls : ∀ c ∈ m'.calls, c ∈ m.calls ∨ c.Points m.ids := by exact fun _ => .inl
  requests : ∀ r ∈ m'.requests, r ∈ m.requests ∨ ∀ site ∈ r.waiter,
    site.Points m.ids r.frame.streamID := by exact fun _ => .inl
  reader : m'.reader = m.reader ∨ m'.reader.Points m.ids := by
    first | exact .inl rfl | exact .inr trivial
  incoming : ∀ h ∈ m'.incoming, h ∈ m.incoming ∨ h < m.ids.length := by exact fun _ => .inl
  held : ∀ h ∈ m'.held, h ∈ m.held ∨ h < m.ids.length := by exact fun _ => .inl
  log : ∀ w ∈ m'.log, w ∈ m.log ∨ w.Points m.ids := by exact fun _ => .inl

lemma Tidy.keep (ht : Tidy m) (hk : Kept m m') : Tidy m' where
  nodup := hk.ids ▸ ht.nodup
  nonzero := hk.ids ▸ ht.nonzero
  table i h hi := hk.ids ▸ ht.table i h (hk.table i h hi)
  nextID := by
    have := ht.nextID
    rwa [owns, hk.role, hk.nextID]
  calls c hc := hk.ids ▸ (hk.calls c hc).elim (ht.calls c) id
  requests r hr := hk.ids ▸ (hk.requests r hr).elim (ht.requests r) id
  reader := hk.ids ▸ hk.reader.elim (fun h => h ▸ ht.reader) id
  incoming h hh := hk.ids ▸ (hk.incoming h hh).elim (ht.incoming h) id
  held h hh := hk.ids ▸ (hk.held h hh).elim (ht.held h) id
  log w hw := hk.ids ▸ (hk.log w hw).elim (ht.log w) id

lemma Tidy.new (ht : Tidy m) (hheap : m'.heap = m.heap ++ [s]) (hid : s.id = j) (hnew : j ∉ m.ids)
    (hzero : j ≠ 0) (hown : m'.owns m'.nextID = true)
    (htable : m'.streams = update m.streams j (some m.heap.length))
    (hcalls : ∀ c ∈ m'.calls, c ∈ m.calls ∨ c.Points (m.ids ++ [j]))
    (hreq : m'.requests = m.requests) (hreader : m'.reader.Points (m.ids ++ [j]))
    (hin : m'.incoming = m.incoming) (hheld : m'.held = m.held)
    (hlog : ∀ w ∈ m'.log, w ∈ m.log ∨ w.Points (m.ids ++ [j])) : Tidy m' := by
  have hids : m'.ids = m.ids ++ [j] := by simp [ids, hheap, hid]
  constructor
  · rw [hids]
    simpa [nodup_append, ht.nodup] using fun a ha (h : a = j) => hnew (h ▸ ha)
  · rw [hids]
    simp [ht.nonzero, hzero.symm]
  · intro i h hi
    rw [htable] at hi
    rw [hids]
    by_cases hij : i = j
    · subst hij
      obtain rfl : m.heap.length = h := by simpa using hi
      simp [ids]
    · rw [update_of_ne hij] at hi
      exact getElem?_append_of_some (ht.table i h hi)
  · exact hown
  · rw [hids]
    exact fun c hc => (hcalls c hc).elim (fun h => (ht.calls c h).mono) id
  · rw [hids, hreq]
    exact fun r hr site hsite => (ht.requests r hr site hsite).mono
  · rwa [hids]
  · rw [hids, hin]
    exact fun h hh => lt_length_append (ht.incoming h hh)
  · rw [hids, hheld]
    exact fun h hh => lt_length_append (ht.held h hh)
  · rw [hids]
    exact fun w hw => (hlog w hw).elim (fun h => (ht.log w h).mono) id

/-! ## Orderly callers and an honest peer -/

/-- The `Open` the `i`-th goroutine waits in has its answer. -/
def answered (m : Mux) (i : ℕ) : Bool :=
  match m.calls[i]? with
  | some (.openWait h) => m.heap[h]?.all Stream.acceptOne
  | _ => true

/-- What the callers of a mux must keep to. The identifier an `Open` takes has not been used
before, its metadata fits in a frame; the context of an `Open` does not end before the peer's
answer arrives; the mux is not closed. -/
def orderly (m : Mux) : Act → Bool
  | .openStream _ metadata =>
      m.nextID ≠ 0 && m.nextID ∉ m.ids && metadata.length ≤ m.limits.codecMax
  | .run i .cancel => m.answered i
  | .closeMux => false
  | _ => true

/-- What the peer owes a mux, at the point where the mux relies on it. -/
structure Accepts (m : Mux) : Prop where
  kind : ∀ f, m.reader = .handling f → f.type = .frameOpen ∨ isLookup f.type = true
  opens : ∀ f, m.reader = .handling f → f.type = .frameOpen →
    m.peerOwns f.streamID = true ∧ m.streams f.streamID = none ∧ f.streamID ∉ m.ids
  accept : ∀ f, m.reader = .handling f → f.type = .frameAccept → m.streams f.streamID ≠ none
  service : ∀ f h s, m.reader = .found f h → m.heap[h]? = some s → f.type = .frameAccept →
    s.service = f.service
  reader : ∀ h e, m.reader ≠ .openFailDrop h e
  outgoing : ∀ r ∈ m.outgoing, writeFrameCheck m.limits.codecMax r.frame = none

variable {l : List StreamID}

lemma Healthy.keep (hh : Healthy m) (herr : m'.err = m.err)
    (hdone : m'.done = m.done) (hconn : m'.connClosed = m.connClosed)
    (hstop : m'.stopping = m.stopping) (hreader : m'.reader ≠ .stopped)
    (hwriter : m'.writer ≠ .stopped)
    (hlog : ∀ w ∈ m'.log, w ∈ m.log ∨ w.sid l ≠ none) : Healthy m' where
  err := herr.trans hh.err
  done := hdone.trans hh.done
  connClosed := hconn.trans hh.connClosed
  stopping := hstop.trans hh.stopping
  reader := hreader
  writer := hwriter
  log e he := (hlog _ he).elim (hh.log e) fun h => h rfl

lemma ne_stopped_of_sid {r : Reader} (h : r = .ready ∨ r.sid l = some i) : r ≠ .stopped := by
  rintro rfl
  simp [sid] at h

/-- **A mux stays healthy** while its callers are orderly and its peer is honest. -/
lemma Move.healthy (hm : Move m a m') (ht : Tidy m) (hh : Healthy m) (ho : m.orderly a = true)
    (hacc : m.Accepts) (hread : a ≠ .readFailed) (hwrite : a ≠ .writeFailed) : Healthy m' := by
  cases hm with
  | openStream => exact hh.keep (l := m.ids) rfl rfl rfl rfl hh.reader hh.writer (fun _ => .inl)
  | accept | write | openReturn | remove =>
    exact hh.keep (l := m.ids) rfl rfl rfl rfl hh.reader hh.writer (fun _ => .inl)
  | app _ hs hstep =>
    obtain ⟨-, hevs⟩ := hstep.points (ids_of_heap hs)
    refine hh.keep (l := m.ids) rfl rfl rfl rfl hh.reader hh.writer fun w hw => ?_
    exact (mem_append.mp hw).imp_right fun hw => by simp [(hevs w hw).1]
  | call _ _ hs hstep =>
    obtain ⟨-, -, hevs⟩ := hstep.points (ids_of_heap hs)
    refine hh.keep (l := m.ids) rfl rfl rfl rfl hh.reader hh.writer fun w hw => ?_
    exact (mem_append.mp hw).imp_right fun hw => by simp [(hevs w hw).1]
  | reader hs hstep =>
    obtain ⟨-, hr', -, hevs⟩ := hstep.points (ids_of_heap hs) ht.reader
    refine hh.keep (l := m.ids) rfl rfl rfl rfl (ne_stopped_of_sid hr') hh.writer fun w hw => ?_
    exact (mem_append.mp hw).imp_right fun hw => by simp [(hevs w hw).1]
  | enqueue =>
    exact hh.keep (l := m.ids) rfl rfl rfl rfl hh.reader hh.writer
      fun w hw => (mem_append.mp hw).imp_right (by simp +contextual [Event.sid])
  | readerEnqueue hr =>
    rename_i site _
    have hp := ht.reader
    rw [hr] at hp
    exact hh.keep (l := m.ids) rfl rfl rfl rfl
      (ne_stopped_of_sid (ReaderSite.next_points hp).1) hh.writer
      fun w hw => (mem_append.mp hw).imp_right (by simp +contextual [Event.sid])
  | readerRemove | backlogDrop | publish | lookup | readFrame =>
    exact hh.keep (l := m.ids) rfl rfl rfl rfl (by simp) hh.writer (fun _ => .inl)
  | openRefused | openNew | unknownData | unknownDrop | ping | pong =>
    exact hh.keep (l := m.ids) rfl rfl rfl rfl (by simp) hh.writer
      fun w hw => (mem_append.mp hw).imp_right (by simp +contextual [Event.sid])
  | take | written => exact hh.keep (l := m.ids) rfl rfl rfl rfl hh.reader (by simp) (fun _ => .inl)
  | openFailDrop hr => exact absurd hr (hacc.reader _ _)
  | handleFailed hr hfault =>
    cases hfault with
    | notPeers hf hpeer => simp [(hacc.opens _ hr hf).1] at hpeer
    | closed he => simp [hh.err] at he
    | duplicate hf hs => simp [(hacc.opens _ hr hf).2.1] at hs
    | acceptUnknown hf hs => exact absurd hs (hacc.accept _ hr hf)
    | unsupported hf => simpa [hf, isLookup] using hacc.kind _ hr
  | acceptFailed hr hs hf hne => exact absurd (hacc.service _ _ _ hr hs hf) hne
  | takeFailed _ hout hcheck =>
    rw [hacc.outgoing _ (by simp [hout])] at hcheck
    cases hcheck
  | readFailed => exact absurd rfl hread
  | writeFailed => exact absurd rfl hwrite
  | closeMux => cases ho
  | giveUp _ hd | openDone _ hd | readerGiveUp _ hd | publishDone _ hd | writerExit _ hd
  | abandon _ _ hd | abandonWriting _ _ hd => simp [hh.done] at hd
  | stopDone hs | stopConn hs | stopSignal hs | stopTerminate hs => simp [hh.stopping] at hs

lemma add_two_mod (i : StreamID) : (i + 2) % 2 = i % 2 := by
  rw [← UInt32.toNat_inj]
  simp only [UInt32.toNat_mod, UInt32.toNat_add, UInt32.reduceToNat]
  omega

lemma owns_add_two (h : m.owns i = true) : m.owns (i + 2) = true := by
  unfold owns at h ⊢
  rwa [add_two_mod]

lemma not_healthy_shutdown (m : Mux) (e : MuxErr) : ¬ Healthy (m.shutdown e) := by
  intro hh
  have herr := hh.err
  unfold shutdown at herr
  split at herr
  · simp_all
  · cases herr

/-- **Handles and identifiers keep agreeing.** -/
theorem Move.tidy (hm : Move m a m') (hsound : Sound m) (ht : Tidy m) (hh : Healthy m)
    (hh' : Healthy m') (ho : m.orderly a = true) (hacc : m.Accepts) : Tidy m' := by
  cases hm with
  | openStream =>
    simp only [orderly, Bool.and_eq_true, decide_eq_true_eq] at ho
    obtain ⟨⟨hzero, hnew⟩, -⟩ := ho
    refine ht.new rfl rfl hnew hzero (owns_add_two ht.nextID) rfl (fun c hc => ?_) rfl
      ht.reader.mono rfl rfl (fun _ => .inl)
    refine (mem_append.mp hc).imp_right fun hc => ?_
    obtain rfl := mem_singleton.mp hc
    simp [Call.Points, Site.Points, ids, Stream.openFrame, newStream]
  | openNew hr hf _ _ hpeer =>
    refine ht.new rfl rfl (hacc.opens _ hr hf).2.2 (peerOwns_iff.mp hpeer).1 ht.nextID rfl
      (fun _ => .inl) rfl ?_ rfl rfl fun w hw => ?_
    · simp [Reader.Points, ids]
    · exact (mem_append.mp hw).imp_right fun hw => by simp_all [Event.Points]
  | accept hin =>
    refine ht.keep { incoming := fun h hh => .inl (by simp [hin, hh]), held := fun h hh => ?_ }
    exact (mem_append.mp hh).imp_right fun hh => ht.incoming h (by simp_all)
  | write hheld =>
    refine ht.keep { calls := fun c hc => (mem_append.mp hc).imp_right fun hc => ?_ }
    obtain rfl := mem_singleton.mp hc
    exact ht.held _ hheld
  | app _ hs hstep =>
    obtain ⟨hc', hevs⟩ := hstep.points (ids_of_heap hs)
    exact ht.keep {
      ids := ids_set hs (hstep.flow (hsound.get hs).1).2.id
      calls := fun c hc => (mem_append.mp hc).imp_right fun hc =>
        (hc' c (Option.mem_toList.mp hc)).2
      log := fun w hw => (mem_append.mp hw).imp_right fun hw => (hevs w hw).2 }
  | call hcalls _ hs hstep =>
    obtain ⟨-, hc', hevs⟩ := hstep.points (ids_of_heap hs)
    exact ht.keep {
      ids := ids_set hs (hstep.flow (hsound.get hs).1).2.id
      calls := fun c hc => (mem_replaced hcalls rfl hc).imp_right fun hc => (hc' c hc).2
      log := fun w hw => (mem_append.mp hw).imp_right fun hw => (hevs w hw).2 }
  | enqueue hcalls hroom =>
    rename_i f site
    have hp : site.Points m.ids f.streamID := ht.calls (.sending f site) (by simp [hcalls])
    refine ht.keep {
      calls := fun c hc => (mem_replaced hcalls rfl hc).imp_right fun hc =>
        (running_points hp c hc).2
      requests := fun r hr => ?_
      log := fun w hw => (mem_append.mp hw).imp_right fun hw => by simp_all [Event.Points] }
    exact (mem_requests_push (m := m) (r := ⟨f, site.waits⟩) hr rfl rfl).imp_right
      (by rintro rfl; exact waits_points hp)
  | openReturn hcalls =>
    refine ht.keep { calls := fun c hc => .inl ?_, held := fun k hk => ?_ }
    · simp only [hcalls, mem_append, mem_cons] at hc ⊢
      tauto
    · refine (mem_append.mp hk).imp_right fun hk => ?_
      obtain rfl := mem_singleton.mp hk
      exact ht.calls (.openReturn k) (by simp [hcalls])
  | remove hcalls =>
    refine ht.keep { table := Sound.table_erase m _, calls := fun c hc => .inl ?_ }
    simp only [hcalls, mem_append, mem_cons] at hc ⊢
    tauto
  | reader hs hstep =>
    obtain ⟨-, -, hr', hevs⟩ := hstep.points (ids_of_heap hs) ht.reader
    exact ht.keep {
      ids := ids_set hs (hstep.flow (hsound.get hs).1).2.id
      reader := .inr hr'
      log := fun w hw => (mem_append.mp hw).imp_right fun hw => (hevs w hw).2 }
  | readerEnqueue hr =>
    rename_i f site _
    have hp := ht.reader
    rw [hr] at hp
    refine ht.keep {
      requests := fun r hr => ?_
      reader := .inr (ReaderSite.next_points hp).2
      log := fun w hw => (mem_append.mp hw).imp_right fun hw => by simp_all [Event.Points] }
    exact (mem_requests_push (m := m) (r := ⟨f, none⟩) hr rfl rfl).imp_right (by rintro rfl; simp)
  | readerRemove | backlogDrop => exact ht.keep { table := Sound.table_erase m _ }
  | publish hr =>
    have hp := ht.reader
    rw [hr] at hp
    refine ht.keep { incoming := fun k hk => (mem_append.mp hk).imp_right fun hk => ?_ }
    obtain rfl := mem_singleton.mp hk
    exact hp
  | lookup _ _ hs => exact ht.keep { reader := .inr (ht.table _ _ hs) }
  | openRefused | unknownData | unknownDrop | ping | pong =>
    refine ht.keep { log := fun w hw => (mem_append.mp hw).imp_right fun hw => ?_ }
    simp_all [Event.Points]
  | readFrame => exact ht.keep {}
  | take hw hout =>
    refine ht.keep { requests := fun r hr => .inl ?_ }
    simpa [requests, hw, hout] using hr
  | written hw =>
    rename_i r
    refine ht.keep {
      calls := fun c hc => (mem_append.mp hc).imp_right fun hc => ?_
      requests := fun r hr => .inl ?_ }
    · obtain ⟨site, hsite, hnext⟩ := Option.bind_eq_some_iff.mp (Option.mem_toList.mp hc)
      exact (next_points (ht.requests r (by simp [requests, hw]) site hsite) c hnext).2
    · have hr : r ∈ m.outgoing := hr
      simp [requests, hw, hr]
  | giveUp _ hd | openDone _ hd | readerGiveUp _ hd | publishDone _ hd | writerExit _ hd
  | abandon _ _ hd | abandonWriting _ _ hd => simp [hh.done] at hd
  | stopDone hs | stopConn hs | stopSignal hs | stopTerminate hs => simp [hh.stopping] at hs
  | openFailDrop | handleFailed | acceptFailed | readFailed | takeFailed | writeFailed
  | closeMux =>
    exact absurd hh' (not_healthy_shutdown _ _)

/-- **The simulation.** Every step of a healthy mux is a step of one end, or of none. -/
theorem Move.follows (hm : Move m a m') (hsound : Sound m) (ht : Tidy m) (hh : Healthy m)
    (hh' : Healthy m') (ho : m.orderly a = true) (hacc : m.Accepts) : Follows m a m' := by
  cases hm with
  | openStream hvalid =>
    simp only [orderly, Bool.and_eq_true, decide_eq_true_eq] at ho
    exact .openStream ht hvalid ho.1.1 ho.1.2 ho.2
  | accept hin => exact .accept hin
  | write hheld hne => exact .write hheld hne
  | app hheld hs hstep => exact .app ht hheld hs (hsound.get hs).1 hstep
  | call hcalls hi hs hstep =>
    refine .call ht hcalls hs (hsound.get hs).1 hstep ?_
    rintro rfl
    cases hstep with
    | cancel => simpa [orderly, answered, hcalls, ← hi, hs] using ho
  | enqueue hcalls => exact .enqueue ht hcalls
  | openReturn hcalls => exact .openReturn hcalls
  | remove hcalls => exact .remove hcalls
  | reader hs hstep => exact .reader ht hs (hsound.get hs).1 hstep
  | readerEnqueue hr => exact .readerEnqueue ht hr
  | readerRemove hr => exact .readerRemove hr
  | backlogDrop hr hs => exact .backlogDrop ht hr hs
  | publish hr => exact .publish hr
  | openRefused hr hf =>
    obtain ⟨hpeer, -⟩ := hacc.opens _ hr hf
    exact .handle hr (by simp) (.inr rfl) fun hready _ =>
      .openRefused (peerOwns_iff.mp hpeer).2 hready hf
  | openNew hr hf _ _ hpeer _ hnone =>
    exact .openNew ht hr hf hpeer hnone (hacc.opens _ hr hf).2.2
  | lookup hr hf hs => exact .lookup hr hf hs
  | unknownData hr hf hnone =>
    exact .handle hr (by simp) (.inr rfl) fun hready hlisted =>
      .unknownData hready (by simp [hlisted, hnone]) hf
  | unknownDrop hr hf hdata haccept hnone =>
    refine .handle hr (by simp) (.inl rfl) fun hready hlisted => ?_
    rw [← hready]
    exact .unknownDrop hready (by simp [hlisted, hnone]) hf hdata haccept
  | ping hr hf | pong hr hf => simpa [hf, isLookup] using hacc.kind _ hr
  | readFrame hr => exact .readFrame hr
  | take hw hout => exact .take hw hout
  | written hw => exact .written ht hw
  | giveUp _ hd | openDone _ hd | readerGiveUp _ hd | publishDone _ hd | writerExit _ hd
  | abandon _ _ hd | abandonWriting _ _ hd => simp [hh.done] at hd
  | stopDone hs | stopConn hs | stopSignal hs | stopTerminate hs => simp [hh.stopping] at hs
  | openFailDrop | handleFailed | acceptFailed | readFailed | takeFailed | writeFailed
  | closeMux =>
    exact absurd hh' (not_healthy_shutdown _ _)

end WeaverSSH.SessionMux.Mux
