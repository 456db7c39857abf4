import WeaverSSH.SessionMux.Bounds

/-!
# One end of one stream

`End` is what one mux holds of one stream identifier: the stream record, whether the table lists it,
the goroutines that work on it, the point the reader loop has reached with it, and the history of
its frames and events. `End.Step` is the protocol of that end alone; it knows no other stream, no
queue bound and no shutdown. `View` shows that each end of a healthy mux moves by it.
-/

namespace WeaverSSH.SessionMux

open List

/-! ## Histories -/

/-- The frame an event put on `outgoing`. -/
def Event.sent? : Event → Option Frame
  | .sent f => some f
  | _ => none

def Event.handled? : Event → Option Frame
  | .handled f => some f
  | _ => none

def sentFrames (log : List Event) : List Frame := log.filterMap Event.sent?

/-- The incoming frames that took effect, in order. -/
def handledFrames (log : List Event) : List Frame := log.filterMap Event.handled?

@[simp] lemma sentFrames_append (l₁ l₂ : List Event) :
    sentFrames (l₁ ++ l₂) = sentFrames l₁ ++ sentFrames l₂ := filterMap_append

@[simp] lemma handledFrames_append (l₁ l₂ : List Event) :
    handledFrames (l₁ ++ l₂) = handledFrames l₁ ++ handledFrames l₂ := filterMap_append

@[simp] lemma sentFrames_sent (f : Frame) : sentFrames [.sent f] = [f] := rfl

@[simp] lemma sentFrames_handled (f : Frame) : sentFrames [.handled f] = [] := rfl

@[simp] lemma handledFrames_handled (f : Frame) : handledFrames [.handled f] = [f] := rfl

@[simp] lemma handledFrames_sent (f : Frame) : handledFrames [.sent f] = [] := rfl

/-! ## What frames carry -/

def Frame.data (f : Frame) : Bytes := if f.type = .frameData then f.payload else []

/-- The credit of a frame: that of a well-formed WINDOW. -/
def Frame.credit (f : Frame) : ℕ :=
  if f.type = .frameWindow then
    match decodeWindowCredit f.payload with
    | .ok credit => credit
    | .error _ => 0
  else 0

def dataBytes (fs : List Frame) : Bytes := fs.flatMap Frame.data

def creditSum (fs : List Frame) : ℕ := (fs.map Frame.credit).sum

@[simp] lemma dataBytes_nil : dataBytes [] = [] := rfl

@[simp] lemma dataBytes_append (fs gs : List Frame) :
    dataBytes (fs ++ gs) = dataBytes fs ++ dataBytes gs := flatMap_append

@[simp] lemma dataBytes_cons (f : Frame) (fs : List Frame) :
    dataBytes (f :: fs) = f.data ++ dataBytes fs := rfl

@[simp] lemma creditSum_nil : creditSum [] = 0 := rfl

@[simp] lemma creditSum_append (fs gs : List Frame) :
    creditSum (fs ++ gs) = creditSum fs + creditSum gs := by simp [creditSum]

@[simp] lemma creditSum_cons (f : Frame) (fs : List Frame) :
    creditSum (f :: fs) = f.credit + creditSum fs := by simp [creditSum]

lemma Frame.data_of_ne {f : Frame} (h : f.type ≠ .frameData) : f.data = [] := if_neg h

lemma Frame.data_of_eq {f : Frame} (h : f.type = .frameData) : f.data = f.payload := if_pos h

lemma Frame.credit_of_ne {f : Frame} (h : f.type ≠ .frameWindow) : f.credit = 0 := if_neg h

lemma Frame.credit_of_eq {f : Frame} {c : ℕ} (h : f.type = .frameWindow)
    (hc : decodeWindowCredit f.payload = .ok c) : f.credit = c := by simp [Frame.credit, h, hc]

variable {fs : List Frame}

lemma dataBytes_eq_nil (h : ∀ f ∈ fs, f.type ≠ .frameData) : dataBytes fs = [] := by
  simp only [dataBytes, flatMap_eq_nil_iff]
  exact fun f hf => Frame.data_of_ne (h f hf)

lemma creditSum_eq_zero (h : ∀ f ∈ fs, f.type ≠ .frameWindow) : creditSum fs = 0 := by
  simp only [creditSum, sum_eq_zero_iff, mem_map]
  rintro _ ⟨f, hf, rfl⟩
  exact Frame.credit_of_ne (h f hf)

lemma dataBytes_isPrefix {gs : List Frame} (h : fs <+: gs) : dataBytes fs <+: dataBytes gs := by
  obtain ⟨t, rfl⟩ := h
  rw [dataBytes_append]
  exact prefix_append _ _

lemma creditSum_le {gs : List Frame} (h : fs <+: gs) : creditSum fs ≤ creditSum gs := by
  obtain ⟨t, rfl⟩ := h
  rw [creditSum_append]
  exact Nat.le_add_right _ _

/-! ## The state of an end -/

/-- What one mux holds of one stream identifier. -/
structure End where
  stream : Option Stream := none
  /-- the identifier is in the table -/
  listed : Bool := false
  /-- the stream waits in `incoming` -/
  queued : Bool := false
  /-- the application has the stream -/
  held : Bool := false
  /-- the goroutines that run on the stream -/
  calls : List Call := []
  /-- the goroutines that wait for the result of their frame -/
  waiting : List Site := []
  /-- the reader loop, while it works on the stream -/
  reader : Reader := .ready
  /-- what has happened to the stream -/
  log : List Event := []

/-- The frame a goroutine is about to queue. -/
def Call.pending? : Call → Option Frame
  | .sending f _ => some f
  | _ => none

/-- The frame the reader loop has taken from the transport and not handled yet. -/
def Reader.inbox : Reader → List Frame
  | .handling f | .found f _ | .delivering f _ => [f]
  | _ => []

/-- The frame the reader loop is about to queue. -/
def Reader.pending : Reader → List Frame
  | .sending f _ => [f]
  | _ => []

/-- What runs after a goroutine went on ran before, or is what it went on as. -/
lemma mem_replaced {k k' l₁ l₂ : List Call} {c c₀ : Call} {c' : Option Call}
    (hc : k = l₁ ++ c :: l₂) (hc' : k' = l₁ ++ c'.toList ++ l₂) (h : c₀ ∈ k') :
    c₀ ∈ k ∨ c₀ ∈ c' := by
  simp only [hc, hc', mem_append, mem_cons, Option.mem_toList] at h ⊢
  tauto

namespace End

def sent (e : End) : List Frame := sentFrames e.log

def handled (e : End) : List Frame := handledFrames e.log

/-- The frames queued so far and those some goroutine is about to queue. -/
def outgo (e : End) : List Frame :=
  e.sent ++ e.calls.filterMap Call.pending? ++ e.reader.pending

/-- What one end of a stream can do. `owner` is the end that opens the stream. -/
inductive Step (owner : Bool) (limits : Limits) : End → Mux.Act → End → Prop
  | openStream {e : End} {id : StreamID} {h : Handle} {service : ServiceID} {metadata : Bytes} :
      owner = true → e.stream = none → id ≠ 0 → service.valid = true →
      metadata.length ≤ limits.codecMax →
      Step owner limits e (.openStream service metadata) { e with
        stream := some (newStream limits id service [] false)
        listed := true
        calls := e.calls ++ [.sending
          ((newStream limits id service [] false).openFrame metadata) (.opening h)] }
  | accept {e : End} {q : Bool} : e.queued = true →
      Step owner limits e .accept { e with queued := q, held := true }
  | write {e : End} {h : Handle} {p : Bytes} : e.held = true → p ≠ [] →
      Step owner limits e (.write h p) { e with calls := e.calls ++ [.writeLock h p] }
  | app {e : End} {a : Mux.Act} {h : Handle} {s s' : Stream} {c' : Option Call}
      {evs : List Event} : e.held = true → e.stream = some s → AppStep h a s s' c' evs →
      Step owner limits e a { e with
        stream := some s', calls := e.calls ++ c'.toList, log := e.log ++ evs }
  | call {e : End} {i : ℕ} {pick : Mux.Pick} {l₁ l₂ : List Call} {c : Call} {h : Handle}
      {s s' : Stream} {c' : Option Call} {evs : List Event} : e.calls = l₁ ++ c :: l₂ →
      e.stream = some s → CallStep h s c pick s' c' evs → (pick = .cancel → s.acceptOne = true) →
      Step owner limits e (.run i pick) { e with
        stream := some s', calls := l₁ ++ c'.toList ++ l₂, log := e.log ++ evs }
  | enqueue {e : End} {i : ℕ} {l₁ l₂ : List Call} {f : Frame} {site : Site} :
      e.calls = l₁ ++ .sending f site :: l₂ →
      Step owner limits e (.run i .go) { e with
        calls := l₁ ++ site.running.toList ++ l₂
        waiting := e.waiting ++ site.waits.toList
        log := e.log ++ [.sent f] }
  | written {e : End} {site : Site} {rest : List Site} : e.waiting = site :: rest →
      Step owner limits e .written { e with
        waiting := rest, calls := e.calls ++ site.next.toList }
  | openReturn {e : End} {i : ℕ} {l₁ l₂ : List Call} {h : Handle} :
      e.calls = l₁ ++ .openReturn h :: l₂ →
      Step owner limits e (.run i .go) { e with calls := l₁ ++ l₂, held := true }
  | remove {e : End} {i : ℕ} {l₁ l₂ : List Call} {id : StreamID} :
      e.calls = l₁ ++ .removing id :: l₂ →
      Step owner limits e (.run i .go) { e with calls := l₁ ++ l₂, listed := false }
  | reader {e : End} {h : Handle} {s s' : Stream} {r' : Reader} {evs : List Event} :
      e.stream = some s → ReaderStep h s e.reader s' r' evs →
      Step owner limits e (.reader .go) { e with
        stream := some s', reader := r', log := e.log ++ evs }
  | readerEnqueue {e : End} {f : Frame} {site : ReaderSite} : e.reader = .sending f site →
      Step owner limits e (.reader .go) { e with reader := site.next, log := e.log ++ [.sent f] }
  | readerRemove {e : End} {id : StreamID} : e.reader = .removing id →
      Step owner limits e (.reader .go) { e with reader := .ready, listed := false }
  | backlogDrop {e : End} {h : Handle} {s : Stream} : e.reader = .backlogDrop h →
      e.stream = some s →
      Step owner limits e (.reader .go) { e with
        reader := .sending s.resetFrame .reply, listed := false }
  | publish {e : End} {h : Handle} : e.reader = .publishing h →
      Step owner limits e (.reader .go) { e with reader := .ready, queued := true }
  | openRefused {e : End} {f : Frame} : owner = false → e.reader = .ready → f.type = .frameOpen →
      Step owner limits e (.reader .go) { e with
        reader := .sending f.resetReply .reply, log := e.log ++ [.handled f] }
  | openNew {e : End} {h : Handle} {f : Frame} : owner = false → e.reader = .ready →
      e.listed = false → e.stream = none → f.type = .frameOpen → f.streamID ≠ 0 →
      Step owner limits e (.reader .go) { e with
        stream := some (newStream limits f.streamID f.service f.payload true)
        listed := true
        reader := .opened h
        log := e.log ++ [.handled f] }
  | lookup {e : End} {h : Handle} {f : Frame} : e.reader = .ready → e.listed = true →
      Mux.isLookup f.type = true → Step owner limits e (.reader .go) { e with reader := .found f h }
  | unknownData {e : End} {f : Frame} : e.reader = .ready → e.listed = false → f.type = .frameData →
      Step owner limits e (.reader .go) { e with
        reader := .sending f.resetReply .ignored, log := e.log ++ [.handled f] }
  | unknownDrop {e : End} {f : Frame} : e.reader = .ready → e.listed = false →
      Mux.isLookup f.type = true → f.type ≠ .frameData → f.type ≠ .frameAccept →
      Step owner limits e (.reader .go) { e with log := e.log ++ [.handled f] }

end End

end WeaverSSH.SessionMux
