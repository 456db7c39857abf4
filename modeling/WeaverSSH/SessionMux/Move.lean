import WeaverSSH.Framework.Transition
import WeaverSSH.SessionMux.Mux

/-!
# What one step of a mux can do

`Mux.step` is a function over forty control points. `Move m a m'` says once what it can do, with the
state after written out, and every invariant is proved by cases on it.

`CallStep`, `AppStep` and `ReaderStep` are the critical sections of one stream: what a goroutine,
the application or the reader loop does to it, where it continues, and what the history records. The
one-stream protocol of `End` is built from the same three. `Move` adds the table, the queues, the
two loops and `shutdown`.
-/

namespace WeaverSSH.SessionMux

/-! ## Critical sections of one stream -/

/-- A goroutine at `c`, on the stream `s` that `h` points to. -/
inductive CallStep (h : Handle) :
    Stream → Call → Mux.Pick → Stream → Option Call → List Event → Prop
  | answered {s : Stream} : s.accepted = some none →
      CallStep h s (.openWait h) .go { s with accepted := none } (some (.openMark h)) []
  | refused {s : Stream} {e : MuxErr} : s.accepted = some (some e) →
      CallStep h s (.openWait h) .go { s with accepted := none } (some (.removing s.id)) []
  | cancel {s : Stream} :
      CallStep h s (.openWait h) .cancel s (some (.sending s.resetFrame (.cancel h))) []
  | mark {s : Stream} :
      CallStep h s (.openMark h) .go s.markAccepted (some (.openInit h)) []
  | init {s s' : Stream} {f : Frame} : Mux.initialWindowFrame s = .ok (f, s') →
      CallStep h s (.openInit h) .go s' (some (.sending f (.openWindow h))) []
  | initFailed {s : Stream} {e : MuxErr} : Mux.initialWindowFrame s = .error e →
      CallStep h s (.openInit h) .go s (some (.openAbort h e)) []
  | abort {s : Stream} {e : MuxErr} :
      CallStep h s (.openAbort h e) .go (s.remoteClose (some e)) (some (.removing s.id)) []
  | writeLock {s : Stream} {p : Bytes} : s.writeMu = false →
      CallStep h s (.writeLock h p) .go { s with writeMu := true } (some (.writeLoop h p 0))
        [.wrote h p]
  | writeChunk {s s' : Stream} {p data : Bytes} {total : ℕ} : total < p.length →
      s.takeChunk (p.drop total) = .chunk s' data → CallStep h s (.writeLoop h p total) .go s'
        (some (.sending (s.dataFrame data) (.write h p (total + data.length)))) []
  | writeFailed {s : Stream} {p : Bytes} {total : ℕ} : total < p.length →
      s.isOpen = false ∨ s.localClosed = true ∨ s.terminalErr ≠ none →
      CallStep h s (.writeLoop h p total) .go s (some (.writeUnlock h)) []
  | writeDone {s : Stream} {p : Bytes} {total : ℕ} : p.length ≤ total →
      CallStep h s (.writeLoop h p total) .go s (some (.writeUnlock h)) [.writeOK h p]
  | writeUnlock {s : Stream} :
      CallStep h s (.writeUnlock h) .go { s with writeMu := false } none []
  | closeLock {s : Stream} : s.writeMu = false →
      CallStep h s (.closeLock h) .go { s with writeMu := true }
        (some (.sending s.closeFrame (.close h))) []
  | closeUnlock {s : Stream} :
      CallStep h s (.closeUnlock h) .go { s with writeMu := false } (some (.closeCheck h)) []
  | closeKept {s : Stream} : s.isFullyClosed = false → CallStep h s (.closeCheck h) .go s none []
  | closeRemove {s : Stream} : s.isFullyClosed = true →
      CallStep h s (.closeCheck h) .go s (some (.removing s.id)) []
  | resetLock {s : Stream} : s.writeMu = false →
      CallStep h s (.resetLock h) .go { s with writeMu := true }
        (some (.sending s.resetFrame (.reset h))) []
  | resetUnlock {s : Stream} :
      CallStep h s (.resetUnlock h) .go { s with writeMu := false } (some (.removing s.id)) []

/-- The application, on a stream it holds: `Read`, `Close` and `Reset`. -/
inductive AppStep (h : Handle) : Mux.Act → Stream → Stream → Option Call → List Event → Prop
  | readNothing {s : Stream} : AppStep h (.read h 0) s s none []
  | readEOF {s : Stream} {n : ℕ} : s.read n = .eof → AppStep h (.read h n) s s none [.readEOF h]
  | readFailed {s : Stream} {n : ℕ} {e : MuxErr} : s.read n = .fail e →
      AppStep h (.read h n) s s none [.readError h e]
  | readViolation {s s' : Stream} {n : ℕ} {out : Bytes} : s.read n = .violation s' out →
      AppStep h (.read h n) s s' none
        [.read h out, .readError h (.flowControl .receiveCredit)]
  | read {s s' : Stream} {n : ℕ} {out : Bytes} : s.read n = .data s' out 0 →
      AppStep h (.read h n) s s' none [.read h out]
  | readGrant {s s' : Stream} {n grant : ℕ} {out : Bytes} : s.read n = .data s' out grant →
      0 < grant →
      AppStep h (.read h n) s s' (some (.sending (s.windowFrame (putUint32 grant)) .readGrant))
        [.read h out]
  | close {s : Stream} : s.localClosed = false →
      AppStep h (.close h) s { s with localClosed := true } (some (.closeLock h)) [.closed h]
  | reset {s : Stream} : s.localClosed = false → AppStep h (.reset h) s
        { s with localClosed := true, remoteClosed := true, terminalErr := some .streamReset }
        (some (.resetLock h)) []

/-- The reader loop, on the stream it works on. -/
inductive ReaderStep (h : Handle) : Stream → Reader → Stream → Reader → List Event → Prop
  | accept {s : Stream} {f : Frame} : f.type = .frameAccept → s.service = f.service →
      ReaderStep h s (.found f h) (s.signalAccepted none) .ready [.handled f]
  | windowService {s : Stream} {f : Frame} : f.type = .frameWindow → s.service ≠ f.service →
      ReaderStep h s (.found f h) (s.signalAccepted (some (.flowControl .windowService)))
        (.failClose h (.flowControl .windowService)) [.handled f]
  | windowPayload {s : Stream} {f : Frame} {e : MuxErr} : f.type = .frameWindow →
      decodeWindowCredit f.payload = .error e →
      ReaderStep h s (.found f h) (s.signalAccepted (some e)) (.failClose h e) [.handled f]
  | windowRefused {s : Stream} {f : Frame} {credit : ℕ} {e : MuxErr} : f.type = .frameWindow →
      decodeWindowCredit f.payload = .ok credit → s.addSendCredit credit = .error e →
      ReaderStep h s (.found f h) (s.signalAccepted (some e)) (.failClose h e)
        [.handled f, .violation f e]
  | window {s s' : Stream} {f : Frame} {credit : ℕ} : f.type = .frameWindow →
      s.service = f.service → decodeWindowCredit f.payload = .ok credit →
      s.addSendCredit credit = .ok s' → ReaderStep h s (.found f h) s' .ready [.handled f]
  | dataRefused {s : Stream} {f : Frame} : f.type = .frameData →
      s.isOpen = false ∨ s.service ≠ f.service →
      ReaderStep h s (.found f h) (s.signalAccepted (some .streamReset))
        (.failClose h .streamReset) [.handled f]
  | data {s : Stream} {f : Frame} : f.type = .frameData → s.isOpen = true →
      s.service = f.service → ReaderStep h s (.found f h) s (.delivering f h) []
  | closeService {s : Stream} {f : Frame} : f.type = .frameClose → s.service ≠ f.service →
      ReaderStep h s (.found f h) (s.signalAccepted (some .streamReset))
        (.failClose h .streamReset) [.handled f]
  | close {s : Stream} {f : Frame} : f.type = .frameClose → s.service = f.service →
      ReaderStep h s (.found f h) (s.remoteClose none) (.closeCheck h) [.handled f]
  | reset {s : Stream} {f : Frame} : f.type ≠ .frameAccept → f.type ≠ .frameWindow →
      f.type ≠ .frameData → f.type ≠ .frameClose →
      ReaderStep h s (.found f h) (s.signalAccepted (some .streamReset))
        (.resetClose h f.streamID) [.handled f]
  | deliver {s s' : Stream} {f : Frame} : s.deliver f.payload = .ok s' →
      ReaderStep h s (.delivering f h) s' .ready [.handled f]
  | deliverRefused {s : Stream} {f : Frame} {e : MuxErr} : s.deliver f.payload = .error e →
      ReaderStep h s (.delivering f h) (s.signalAccepted (some e)) (.failClose h e)
        [.handled f, .violation f e]
  | closeKept {s : Stream} : s.isFullyClosed = false → ReaderStep h s (.closeCheck h) s .ready []
  | closeRemove {s : Stream} : s.isFullyClosed = true →
      ReaderStep h s (.closeCheck h) s (.removing s.id) []
  | resetClose {s : Stream} {id : StreamID} :
      ReaderStep h s (.resetClose h id) (s.remoteClose (some .streamReset)) (.removing id) []
  | failClose {s : Stream} {e : MuxErr} :
      ReaderStep h s (.failClose h e) (s.remoteClose (some e))
        (.sending s.resetFrame (.reset s.id)) []
  | openFull {s : Stream} :
      ReaderStep h s (.opened h) (s.remoteClose (some .incomingBacklog)) (.backlogDrop h) []
  | openAccept {s : Stream} :
      ReaderStep h s (.opened h) s (.sending s.acceptFrame (.accept h)) []
  | init {s s' : Stream} {f : Frame} : Mux.initialWindowFrame s = .ok (f, s') →
      ReaderStep h s (.windowInit h) s' (.sending f (.window h)) []
  | initFailed {s : Stream} {e : MuxErr} : Mux.initialWindowFrame s = .error e →
      ReaderStep h s (.windowInit h) s (.openFail h e) []
  | mark {s : Stream} : ReaderStep h s (.marking h) s.markAccepted (.publishing h) []
  | openFail {s : Stream} {e : MuxErr} :
      ReaderStep h s (.openFail h e) (s.remoteClose (some e)) (.openFailDrop h e) []

/-! ## Steps of the mux -/

/-- Where the reader loop goes after a `sendAsync` that queued its frame. -/
def ReaderSite.next : ReaderSite → Reader
  | .accept h => .windowInit h
  | .window h => .marking h
  | .reset id => .removing id
  | .reply | .ignored => .ready

/-- Where a caller continues once its frame was sent. -/
def Site.next : Site → Option Call
  | .opening h => some (.openWait h)
  | .openWindow h => some (.openReturn h)
  | .cancel h => some (.openAbort h .ctxErr)
  | .write h p total => some (.writeLoop h p total)
  | .readGrant => none
  | .close h => some (.closeUnlock h)
  | .reset h => some (.resetUnlock h)

/-- The goroutine left running once the frame of a site is queued: a synchronous one waits. -/
def Site.running (site : Site) : Option Call := if site.sync then none else site.next

/-- The goroutine left waiting for the result of its frame. -/
def Site.waits (site : Site) : Option Site := if site.sync then some site else none

namespace Mux

lemma siteNext_none (m : Mux) (site : Site) : m.siteNext site none = site.next := by
  cases site <;> rfl

/-- The frame types whose handler begins with `lookupStream`. -/
def isLookup : FrameType → Bool
  | .frameAccept | .frameWindow | .frameData | .frameClose | .frameReset => true
  | _ => false

/-- Why `handleFrame` can fail before it has looked at a stream. -/
inductive HandleFault (m : Mux) (f : Frame) : MuxErr → Prop
  | notPeers : f.type = .frameOpen → m.peerOwns f.streamID = false →
      HandleFault m f (.invalidStreamID f.streamID)
  | closed {e : MuxErr} : m.err = some e → HandleFault m f e
  | duplicate {h : Handle} : f.type = .frameOpen → m.streams f.streamID = some h →
      HandleFault m f (.duplicateOpen f.streamID)
  | acceptUnknown : f.type = .frameAccept → m.streams f.streamID = none →
      HandleFault m f (.acceptUnknown f.streamID)
  | unsupported {code : UInt8} : f.type = .unknown code → HandleFault m f (.unsupportedType f.type)

inductive Move (m : Mux) : Act → Mux → Prop
  | openStream {service : ServiceID} {metadata : Bytes} : service.valid = true → m.err = none →
      Move m (.openStream service metadata)
        { m with
          nextID := m.nextID + 2
          heap := m.heap ++ [newStream m.limits m.nextID service [] false]
          streams := Function.update m.streams m.nextID (some m.heap.length)
          calls := m.calls ++ [.sending
            ((newStream m.limits m.nextID service [] false).openFrame metadata)
            (.opening m.heap.length)] }
  | accept {h : Handle} {rest : List Handle} : m.incoming = h :: rest →
      Move m .accept { m with incoming := rest, held := m.held ++ [h] }
  | write {h : Handle} {p : Bytes} : h ∈ m.held → p ≠ [] →
      Move m (.write h p) { m with calls := m.calls ++ [.writeLock h p] }
  | app {a : Act} {h : Handle} {s s' : Stream} {c' : Option Call} {evs : List Event} :
      h ∈ m.held → m.heap[h]? = some s → AppStep h a s s' c' evs →
      Move m a { m with
        heap := m.heap.set h s', calls := m.calls ++ c'.toList, log := m.log ++ evs }
  | call {i : ℕ} {pick : Pick} {l₁ l₂ : List Call} {c : Call} {h : Handle} {s s' : Stream}
      {c' : Option Call} {evs : List Event} : m.calls = l₁ ++ c :: l₂ → l₁.length = i →
      m.heap[h]? = some s → CallStep h s c pick s' c' evs →
      Move m (.run i pick) { m with
        heap := m.heap.set h s', calls := l₁ ++ c'.toList ++ l₂, log := m.log ++ evs }
  | enqueue {i : ℕ} {l₁ l₂ : List Call} {f : Frame} {site : Site} :
      m.calls = l₁ ++ .sending f site :: l₂ → m.room = true →
      Move m (.run i .go) { m with
        calls := l₁ ++ site.running.toList ++ l₂
        outgoing := m.outgoing ++ [⟨f, site.waits⟩]
        log := m.log ++ [.sent f] }
  | giveUp {i : ℕ} {l₁ l₂ : List Call} {f : Frame} {site : Site} :
      m.calls = l₁ ++ .sending f site :: l₂ → m.done = true →
      Move m (.run i .done) { m with
        calls := l₁ ++ (m.siteNext site (some m.closeErr)).toList ++ l₂ }
  | openDone {i : ℕ} {l₁ l₂ : List Call} {h : Handle} :
      m.calls = l₁ ++ .openWait h :: l₂ → m.done = true →
      Move m (.run i .done) { m with calls := l₁ ++ l₂ }
  | openReturn {i : ℕ} {l₁ l₂ : List Call} {h : Handle} :
      m.calls = l₁ ++ .openReturn h :: l₂ →
      Move m (.run i .go) { m with calls := l₁ ++ l₂, held := m.held ++ [h] }
  | remove {i : ℕ} {l₁ l₂ : List Call} {id : StreamID} :
      m.calls = l₁ ++ .removing id :: l₂ →
      Move m (.run i .go) { m with
        calls := l₁ ++ l₂, streams := Function.update m.streams id none }
  | reader {h : Handle} {s s' : Stream} {r' : Reader} {evs : List Event} :
      m.heap[h]? = some s → ReaderStep h s m.reader s' r' evs →
      (r' = .backlogDrop h → m.backlog ≤ m.incoming.length) →
      (∀ f, r' = .sending f (.accept h) → m.incoming.length < m.backlog) →
      Move m (.reader .go) { m with
        heap := m.heap.set h s', reader := r', log := m.log ++ evs }
  | readerEnqueue {f : Frame} {site : ReaderSite} : m.reader = .sending f site → m.room = true →
      Move m (.reader .go) { m with
        outgoing := m.outgoing ++ [⟨f, none⟩], log := m.log ++ [.sent f], reader := site.next }
  | readerGiveUp {f : Frame} {site : ReaderSite} : m.reader = .sending f site → m.done = true →
      Move m (.reader .done) (m.readerSiteNext site (some m.closeErr))
  | readerRemove {id : StreamID} : m.reader = .removing id →
      Move m (.reader .go) { m with
        streams := Function.update m.streams id none, reader := .ready }
  | backlogDrop {h : Handle} {s : Stream} : m.reader = .backlogDrop h → m.heap[h]? = some s →
      Move m (.reader .go) { m with
        streams := Function.update m.streams s.id none, reader := .sending s.resetFrame .reply }
  | publish {h : Handle} : m.reader = .publishing h → m.incoming.length < m.backlog →
      Move m (.reader .go) { m with incoming := m.incoming ++ [h], reader := .ready }
  | publishDone {h : Handle} : m.reader = .publishing h → m.done = true →
      Move m (.reader .done) { m with reader := .openFail h m.closeErr }
  | openFailDrop {h : Handle} {s : Stream} {e : MuxErr} : m.reader = .openFailDrop h e →
      m.heap[h]? = some s → Move m (.reader .go) ((m.removeStream s.id).fail e)
  | openRefused {f : Frame} : m.reader = .handling f → f.type = .frameOpen →
      f.service.valid = false ∨ m.allowed f.service = false →
      Move m (.reader .go) { m with
        reader := .sending f.resetReply .reply, log := m.log ++ [.handled f] }
  | openNew {f : Frame} : m.reader = .handling f → f.type = .frameOpen →
      f.service.valid = true → m.allowed f.service = true →
      m.peerOwns f.streamID = true → m.err = none → m.streams f.streamID = none →
      Move m (.reader .go) { m with
        heap := m.heap ++ [newStream m.limits f.streamID f.service f.payload true]
        streams := Function.update m.streams f.streamID (some m.heap.length)
        reader := .opened m.heap.length
        log := m.log ++ [.handled f] }
  | lookup {f : Frame} {h : Handle} : m.reader = .handling f → isLookup f.type = true →
      m.streams f.streamID = some h → Move m (.reader .go) { m with reader := .found f h }
  | unknownData {f : Frame} : m.reader = .handling f → f.type = .frameData →
      m.streams f.streamID = none →
      Move m (.reader .go) { m with
        reader := .sending f.resetReply .ignored, log := m.log ++ [.handled f] }
  | unknownDrop {f : Frame} : m.reader = .handling f → isLookup f.type = true →
      f.type ≠ .frameData → f.type ≠ .frameAccept → m.streams f.streamID = none →
      Move m (.reader .go) { m with reader := .ready, log := m.log ++ [.handled f] }
  | ping {f : Frame} : m.reader = .handling f → f.type = .framePing →
      Move m (.reader .go) { m with
        reader := .sending { type := .framePong, streamID := 0, payload := f.payload } .reply
        log := m.log ++ [.handled f] }
  | pong {f : Frame} : m.reader = .handling f → f.type = .framePong →
      Move m (.reader .go) { m with reader := .ready, log := m.log ++ [.handled f] }
  | handleFailed {f : Frame} {e : MuxErr} : m.reader = .handling f → HandleFault m f e →
      Move m (.reader .go) ((m.record (.handled f)).fail e)
  | acceptFailed {f : Frame} {h : Handle} {s : Stream} : m.reader = .found f h →
      m.heap[h]? = some s → f.type = .frameAccept → s.service ≠ f.service →
      Move m (.reader .go) ((m.record (.handled f)).fail (.acceptService f.streamID))
  | readFrame {f : Frame} : m.reader = .ready →
      Move m (.readFrame f) { m with reader := .handling f }
  | readFailed : m.reader = .ready →
      Move m .readFailed (({ m with reader := .stopped } : Mux).shutdown .transport)
  | take {r : WriteRequest} {rest : List WriteRequest} : m.writer = .idle →
      m.outgoing = r :: rest → writeFrameCheck m.limits.codecMax r.frame = none →
      Move m .take { m with outgoing := rest, writer := .writing r }
  | takeFailed {r : WriteRequest} {rest : List WriteRequest} {e : MuxErr} : m.writer = .idle →
      m.outgoing = r :: rest → writeFrameCheck m.limits.codecMax r.frame = some e → Move m .take
        ((({ m with outgoing := rest, writer := .stopped } : Mux).notify r (some e)).shutdown e)
  | written {r : WriteRequest} : m.writer = .writing r →
      Move m .written { m with
        writer := .idle, calls := m.calls ++ (r.waiter.bind Site.next).toList }
  | writeFailed {r : WriteRequest} : m.writer = .writing r → Move m .writeFailed
        ((({ m with writer := .stopped } : Mux).notify r (some .transport)).shutdown .transport)
  | writerExit : m.writer = .idle → m.done = true → Move m .writerExit { m with writer := .stopped }
  | abandon {j : ℕ} {r : WriteRequest} {site : Site} : m.outgoing[j]? = some r →
      r.waiter = some site → m.done = true →
      Move m (.abandon j) { m with
        outgoing := m.outgoing.set j { r with waiter := none }
        calls := m.calls ++ (m.siteNext site (some m.closeErr)).toList }
  | abandonWriting {r : WriteRequest} {site : Site} : m.writer = .writing r →
      r.waiter = some site → m.done = true →
      Move m .abandonWriting { m with
        writer := .writing { r with waiter := none }
        calls := m.calls ++ (m.siteNext site (some m.closeErr)).toList }
  | stopDone {k : ℕ} {rest : List StopStep} : m.stopping = .closeDone :: rest →
      Move m (.stop k) { m with stopping := rest, done := true }
  | stopConn {k : ℕ} {rest : List StopStep} : m.stopping = .closeConn :: rest →
      Move m (.stop k) { m with stopping := rest, connClosed := true }
  | stopSignal {k : ℕ} {hs : List Handle} {rest : List StopStep} {h : Handle} {s : Stream} :
      m.stopping = .streams hs :: rest → m.heap[h]? = some s →
      Move m (.stop k) { m with
        stopping := .terminate h :: .streams (hs.eraseIdx k) :: rest
        heap := m.heap.set h (s.signalAccepted (some m.closeErr)) }
  | stopTerminate {k : ℕ} {rest : List StopStep} {h : Handle} {s : Stream} :
      m.stopping = .terminate h :: rest → m.heap[h]? = some s →
      Move m (.stop k) { m with
        stopping := rest, heap := m.heap.set h (s.remoteClose (some m.closeErr)) }
  | closeMux : Move m .closeMux (m.shutdown .muxClosed)

/-! ## Every step is one of them -/

open Transition Move

variable {m m' : Mux}

variable {i : ℕ} {c : Call} {h : Handle} {s s' : Stream} {f : Frame}

lemma calls_split (hc : m.calls[i]? = some c) :
    ∃ l₁ l₂, m.calls = l₁ ++ c :: l₂ ∧ l₁.length = i := by
  obtain ⟨hlt, rfl⟩ := List.getElem?_eq_some_iff.mp hc
  refine ⟨m.calls.take i, m.calls.drop (i + 1), ?_, ?_⟩
  · rw [List.getElem_cons_drop, List.take_append_drop]
  · exact List.length_take_of_le hlt.le

lemma resume_eq {l₁ l₂ : List Call} (hc : m.calls = l₁ ++ c :: l₂)
    (hi : l₁.length = i) (c' : Option Call) :
    m.resume i c' = { m with calls := l₁ ++ c'.toList ++ l₂ } := by
  subst hi
  cases c' with
  | none => simp [Mux.resume, hc, List.eraseIdx_append_of_length_le]
  | some c' => simp [Mux.resume, hc]

lemma spawn_eq (c : Option Call) : m.spawn c = { m with calls := m.calls ++ c.toList } := by
  cases c <;> simp [Mux.spawn]

lemma Move.of_openCall (service : ServiceID) (metadata : Bytes) :
    Gives (Move m (.openStream service metadata)) (m.openCall service metadata) := by
  refine gives_ite (fun _ => gives_none) fun hvalid => ?_
  refine gives_ite (fun _ => gives_none) fun herr => gives_some ?_
  exact .openStream (by simpa using hvalid) (by simpa using herr)

lemma heap_set_self (hs : m.heap[h]? = some s) : m.heap.set h s = m.heap := by
  obtain ⟨hlt, rfl⟩ := List.getElem?_eq_some_iff.mp hs
  exact List.set_getElem_self hlt

lemma Move.of_readCall {h : ℕ} (n : ℕ) (hheld : h ∈ m.held)
    (hs : m.heap[h]? = some s) : Gives (Move m (.read h n)) (m.readCall h s n) := by
  have hset := heap_set_self hs
  refine gives_ite (fun hn => gives_some ?_) fun _ => ?_
  · subst hn
    simpa [hset] using app hheld hs .readNothing
  split
  · exact gives_none
  · exact gives_some (by simpa [hset, record] using app hheld hs (.readEOF ‹_›))
  · exact gives_some (by simpa [hset, record] using app hheld hs (.readFailed ‹_›))
  · exact gives_some (by simpa [put, record] using app hheld hs (.readViolation ‹_›))
  · rename_i grant hread
    refine gives_ite (fun hgrant => ?_) fun hgrant => ?_
    · simp only [encodeWindowCredit, if_neg (show grant ≠ 0 by omega)]
      exact gives_some (by simpa [put, record, spawn] using app hheld hs (.readGrant hread hgrant))
    · obtain rfl : grant = 0 := by omega
      exact gives_some (by simpa [put, record] using app hheld hs (.read hread))

variable {pick : Pick} {c' : Option Call}

/-- A section of the `i`-th goroutine on the stream `h`, in the form `runCall` leaves it. -/
lemma Move.of_callStep (hc : m.calls[i]? = some c) (hs : m.heap[h]? = some s)
    (hstep : CallStep h s c pick s' c' []) : Move m (.run i pick) ((m.put h s').resume i c') := by
  obtain ⟨l₁, l₂, hl, hi⟩ := calls_split hc
  have hmove := call hl hi hs hstep
  rw [resume_eq (m := m.put h s') hl hi]
  simpa [put] using hmove

lemma Move.of_callStep_record {e : Event} (hc : m.calls[i]? = some c) (hs : m.heap[h]? = some s)
    (hstep : CallStep h s c pick s' c' [e]) :
    Move m (.run i pick) (((m.put h s').resume i c').record e) := by
  obtain ⟨l₁, l₂, hl, hi⟩ := calls_split hc
  have hmove := call hl hi hs hstep
  rw [resume_eq (m := m.put h s') hl hi]
  simpa [put, record] using hmove

lemma put_self (hs : m.heap[h]? = some s) : m.put h s = m := by
  simp [put, heap_set_self hs]

lemma Move.of_callStep_same (hc : m.calls[i]? = some c) (hs : m.heap[h]? = some s)
    (hstep : CallStep h s c pick s c' []) : Move m (.run i pick) (m.resume i c') := by
  simpa only [put_self hs] using of_callStep hc hs hstep

lemma Move.of_writeIteration {h : ℕ} {p : Bytes} {total : ℕ}
    (hc : m.calls[i]? = some (.writeLoop h p total)) (hs : m.heap[h]? = some s) :
    Gives (Move m (.run i .go)) (m.writeIteration i h s p total) := by
  refine gives_ite (fun hlt => ?_) fun hlt => gives_some ?_
  · have hstop : s.isOpen = false ∨ s.localClosed = true ∨ s.terminalErr ≠ none →
        Move m (.run i .go) (m.resume i (some (.writeUnlock h))) :=
      fun hwhy => .of_callStep_same hc hs (.writeFailed hlt hwhy)
    split
    · exact gives_none
    · rename_i s' data hchunk
      exact gives_some (.of_callStep hc hs (.writeChunk hlt hchunk))
    all_goals
      rename_i hchunk
      refine gives_some (hstop ?_)
      unfold Stream.takeChunk at hchunk
      split_ifs at hchunk <;> simp_all
    all_goals split at hchunk <;> simp_all
  · have hmove := of_callStep_record hc hs (.writeDone (by omega : p.length ≤ total))
    rwa [put_self hs] at hmove

lemma Move.of_runCall (pick : Pick) (hc : m.calls[i]? = some c) :
    Gives (Move m (.run i pick)) (m.runCall i c pick) := by
  obtain ⟨l₁, l₂, hl, hi⟩ := calls_split hc
  unfold runCall
  split
  · -- at `outgoing <- request`
    rename_i f site
    refine gives_guard fun hroom => ?_
    have hmove := enqueue (i := i) hl hroom
    unfold enqueueCall
    split
    · rename_i hsync
      rw [resume_eq hl hi]
      simpa [Mux.enqueue, Site.running, Site.waits, hsync] using hmove
    · rename_i hsync
      rw [resume_eq hl hi, siteNext_none]
      simpa [Mux.enqueue, Site.running, Site.waits, hsync] using hmove
  · refine gives_guard fun hdone => ?_
    rw [resume_eq hl hi]
    exact .giveUp hl hdone
  · refine gives_bind fun s hs => gives_bind fun e he => gives_some ?_
    cases e with
    | none => exact .of_callStep hc hs (.answered he)
    | some e => exact .of_callStep hc hs (.refused he)
  · exact gives_bind fun s hs => gives_some (.of_callStep_same hc hs .cancel)
  · refine gives_guard fun hdone => ?_
    rw [resume_eq hl hi]
    simpa using openDone (i := i) hl hdone
  · exact gives_bind fun s hs => gives_some (.of_callStep hc hs .mark)
  · refine gives_bind fun s hs => ?_
    split
    · exact gives_some (.of_callStep_same hc hs (.initFailed ‹_›))
    · exact gives_some (.of_callStep hc hs (.init ‹_›))
  · rename_i h
    rw [resume_eq (m := { m with held := m.held ++ [h] }) hl hi]
    exact gives_some (by simpa using openReturn (i := i) hl)
  · exact gives_bind fun s hs => gives_some (.of_callStep hc hs .abort)
  · rename_i id
    rw [resume_eq (m := m.removeStream id) hl hi]
    exact gives_some (by simpa [removeStream] using remove (i := i) hl)
  · refine gives_bind fun s hs => gives_ite (fun _ => gives_none) fun hmu => gives_some ?_
    exact .of_callStep_record hc hs (.writeLock (by simpa using hmu))
  · exact gives_bind fun s hs => .of_writeIteration hc hs
  · exact gives_bind fun s hs => gives_some (.of_callStep hc hs .writeUnlock)
  · refine gives_bind fun s hs => gives_ite (fun _ => gives_none) fun hmu => gives_some ?_
    exact .of_callStep hc hs (.closeLock (by simpa using hmu))
  · exact gives_bind fun s hs => gives_some (.of_callStep hc hs .closeUnlock)
  · refine gives_bind fun s hs => gives_some ?_
    cases hfull : s.isFullyClosed with
    | true => exact .of_callStep_same hc hs (.closeRemove hfull)
    | false => exact .of_callStep_same hc hs (.closeKept hfull)
  · refine gives_bind fun s hs => gives_ite (fun _ => gives_none) fun hmu => gives_some ?_
    exact .of_callStep hc hs (.resetLock (by simpa using hmu))
  · exact gives_bind fun s hs => gives_some (.of_callStep hc hs .resetUnlock)
  · exact gives_none

variable {r r' : Reader}

/-- A section of the reader loop, in the form `runReader` leaves it. -/
lemma Move.of_readerStep
    (hr : m.reader = r) (hs : m.heap[h]? = some s) (hstep : ReaderStep h s r s' r' [])
    (hfull : r' = .backlogDrop h → m.backlog ≤ m.incoming.length)
    (hroom : ∀ f, r' = .sending f (.accept h) → m.incoming.length < m.backlog) :
    Move m (.reader .go) ((m.put h s').setReader r') := by
  have hmove := reader hs (hr ▸ hstep) hfull hroom
  simpa [put, setReader] using hmove

lemma Move.of_readerStep_same
    (hr : m.reader = r) (hs : m.heap[h]? = some s) (hstep : ReaderStep h s r s r' [])
    (hfull : r' = .backlogDrop h → m.backlog ≤ m.incoming.length)
    (hroom : ∀ f, r' = .sending f (.accept h) → m.incoming.length < m.backlog) :
    Move m (.reader .go) (m.setReader r') := by
  simpa only [put_self hs] using of_readerStep hr hs hstep hfull hroom

/-- The same for a section that completes an incoming frame. -/
lemma Move.of_handled
    (hr : m.reader = r) (hs : m.heap[h]? = some s) (hstep : ReaderStep h s r s' r' [.handled f])
    (hfull : r' ≠ .backlogDrop h) (hroom : ∀ f, r' ≠ .sending f (.accept h)) :
    Move m (.reader .go) (((m.record (.handled f)).put h s').setReader r') := by
  have hmove := reader hs (hr ▸ hstep) (fun h0 => absurd h0 hfull)
    (fun f h0 => absurd h0 (hroom f))
  simpa [put, setReader, record] using hmove

lemma Move.of_violation {e : MuxErr} (hr : m.reader = r) (hs : m.heap[h]? = some s)
    (hstep : ReaderStep h s r s' (.failClose h e) [.handled f, .violation f e]) :
    Move m (.reader .go) ((((m.record (.handled f)).record (.violation f e)).put h s').setReader
      (.failClose h e)) := by
  have hmove := @Move.reader _ _ _ _ (.failClose h e) _ hs (hr ▸ hstep) nofun nofun
  simpa [put, setReader, record] using hmove

lemma Move.of_handleOpen (hr : m.reader = .handling f) (ht : f.type = .frameOpen) :
    Move m (.reader .go) (m.handleOpen f) := by
  unfold handleOpen
  split
  · rename_i hservice
    exact .openRefused hr ht (by simpa using hservice)
  rename_i hservice
  have hok : f.service.valid = true ∧ m.allowed f.service = true := by simpa using hservice
  split
  · rename_i howns
    exact .handleFailed hr (.notPeers ht (by simpa using howns))
  rename_i howns
  split
  · rename_i e herr
    exact .handleFailed hr (.closed herr)
  · rename_i herr
    split
    · rename_i hdup
      obtain ⟨h, hh⟩ := Option.isSome_iff_exists.mp hdup
      exact .handleFailed hr (.duplicate ht hh)
    · rename_i hnew
      exact .openNew hr ht hok.1 hok.2 (by simpa using howns) herr (by simpa using hnew)

lemma Move.of_handleFrame (hr : m.reader = .handling f) :
    Move m (.reader .go) (m.handleFrame f) := by
  have hunknown (hl : isLookup f.type = true) (hnone : m.streams f.streamID = none) :
      Move m (.reader .go) (m.handleUnknown f) := by
    unfold handleUnknown
    split
    · rename_i ht
      exact .handleFailed hr (.acceptUnknown ht hnone)
    · rename_i ht
      exact .unknownData hr ht hnone
    · rename_i hacc hdata
      exact .unknownDrop hr hl hdata hacc hnone
  unfold handleFrame
  split
  · rename_i ht
    exact .of_handleOpen hr ht
  iterate 5
    rename_i ht
    have hl : isLookup f.type = true := by rw [ht]; rfl
    split
    · rename_i hnone
      exact hunknown hl hnone
    · rename_i hsome
      exact .lookup hr hl hsome
  · rename_i ht
    exact .ping hr ht
  · rename_i ht
    exact .pong hr ht
  · rename_i code ht
    exact .handleFailed hr (.unsupported ht)

lemma Move.of_handleFound (hr : m.reader = .found f h)
    (hs : m.heap[h]? = some s) : Move m (.reader .go) (m.handleFound f h s) := by
  unfold handleFound
  split
  · rename_i ht
    split
    · rename_i hsv
      exact .acceptFailed hr hs ht hsv
    · rename_i hsv
      exact .of_handled hr hs (.accept ht (by simpa using hsv)) nofun nofun
  · rename_i ht
    unfold handleWindow
    split
    · rename_i hsv
      exact .of_handled hr hs (.windowService ht hsv) nofun nofun
    rename_i hsv
    split
    · rename_i e hdec
      exact .of_handled hr hs (.windowPayload ht hdec) nofun nofun
    · rename_i credit hdec
      split
      · rename_i e hadd
        exact .of_violation hr hs (.windowRefused ht hdec hadd)
      · rename_i s' hadd
        exact .of_handled hr hs (.window ht (by simpa using hsv) hdec hadd) nofun nofun
  · rename_i ht
    split
    · rename_i hno
      exact .of_handled hr hs (.dataRefused ht (by simpa using hno)) nofun nofun
    · rename_i hyes
      have hok : s.isOpen = true ∧ s.service = f.service := by simpa using hyes
      exact .of_readerStep_same hr hs (.data ht hok.1 hok.2) nofun nofun
  · rename_i ht
    split
    · rename_i hsv
      exact .of_handled hr hs (.closeService ht hsv) nofun nofun
    · rename_i hsv
      exact .of_handled hr hs (.close ht (by simpa using hsv)) nofun nofun
  · rename_i hacc hwin hdata hclose
    exact .of_handled hr hs (.reset hacc hwin hdata hclose) nofun nofun

lemma Move.of_handleDeliver (hr : m.reader = .delivering f h) (hs : m.heap[h]? = some s) :
    Move m (.reader .go) (m.handleDeliver f h s) := by
  unfold handleDeliver
  split
  · rename_i e hdel
    exact .of_violation hr hs (.deliverRefused hdel)
  · rename_i s' hdel
    exact .of_handled hr hs (.deliver hdel) nofun nofun

lemma Move.of_runReader (pick : Pick) : Gives (Move m (.reader pick)) (m.runReader pick) := by
  unfold runReader
  split
  · exact gives_some (.of_handleFrame ‹_›)
  · exact gives_bind fun s hs => gives_some (.of_handleFound ‹_› hs)
  · exact gives_bind fun s hs => gives_some (.of_handleDeliver ‹_› hs)
  · rename_i h hr
    refine gives_bind fun s hs => gives_some ?_
    cases hfull : s.isFullyClosed with
    | true => exact .of_readerStep_same hr hs (.closeRemove hfull) nofun nofun
    | false => exact .of_readerStep_same hr hs (.closeKept hfull) nofun nofun
  · exact gives_bind fun s hs => gives_some (.of_readerStep ‹_› hs .resetClose nofun nofun)
  · refine gives_bind fun s hs => gives_some ?_
    exact .of_readerStep ‹_› hs .failClose nofun (fun f h0 => by cases h0)
  · exact gives_some (.readerRemove ‹_›)
  · refine gives_bind fun s hs => gives_ite (fun hfull => gives_some ?_) fun hroom => gives_some ?_
    · exact .of_readerStep ‹_› hs .openFull (fun _ => hfull) nofun
    · exact .of_readerStep_same ‹_› hs .openAccept nofun (fun _ _ => by omega)
  · exact gives_bind fun s hs => gives_some (.backlogDrop ‹_› hs)
  · rename_i h hr
    refine gives_bind fun s hs => ?_
    split
    · exact gives_some (.of_readerStep_same hr hs (.initFailed ‹_›) nofun nofun)
    · exact gives_some (.of_readerStep hr hs (.init ‹_›) nofun nofun)
  · exact gives_bind fun s hs => gives_some (.of_readerStep ‹_› hs .mark nofun nofun)
  · exact gives_guard fun hroom => .publish ‹_› hroom
  · exact gives_guard fun hdone => .publishDone ‹_› hdone
  · exact gives_bind fun s hs => gives_some (.of_readerStep ‹_› hs .openFail nofun nofun)
  · exact gives_bind fun s hs => gives_some (.openFailDrop ‹_› hs)
  · rename_i f site hr
    refine gives_guard fun hroom => ?_
    have hmove := readerEnqueue hr hroom
    cases site <;> exact hmove
  · exact gives_guard fun hdone => .readerGiveUp ‹_› hdone
  · exact gives_none

lemma Move.of_take : Gives (Move m .take) m.take := by
  unfold Mux.take
  split
  · split
    · exact gives_some (.take ‹_› ‹_› ‹_›)
    · exact gives_some (.takeFailed ‹_› ‹_› ‹_›)
  · exact gives_none

lemma Move.of_stop (k : ℕ) : Gives (Move m (.stop k)) (m.stop k) := by
  unfold Mux.stop
  split
  · exact gives_none
  · exact gives_some (.stopDone ‹_›)
  · exact gives_some (.stopConn ‹_›)
  · exact gives_bind fun _ _ => gives_bind fun s hs => gives_some (.stopSignal ‹_› hs)
  · exact gives_bind fun s hs => gives_some (.stopTerminate ‹_› hs)

/-- **Inversion.** Every step of a mux is one of the moves. -/
lemma Move.of_act (a : Act) : Gives (Move m a) (m.step a) := by
  cases a with
  | openStream service metadata => exact .of_openCall service metadata
  | accept =>
    simp only [step]
    split
    · exact gives_none
    · exact gives_some (.accept ‹_›)
  | write h p => exact gives_guard fun hheld => .write hheld.1 hheld.2
  | read h n =>
    refine gives_ite (fun hheld => ?_) fun _ => gives_none
    exact gives_bind fun s hs => .of_readCall n hheld hs
  | close h =>
    refine gives_ite (fun hheld => ?_) fun _ => gives_none
    refine gives_bind fun s hs => gives_bind fun s' hclose => gives_some ?_
    unfold Stream.closeLocal at hclose
    split at hclose
    · cases hclose
    · rename_i hopen
      obtain rfl := Option.some.inj hclose
      simpa [put, record, spawn] using app hheld hs (.close (by simpa using hopen))
  | reset h =>
    refine gives_ite (fun hheld => ?_) fun _ => gives_none
    refine gives_bind fun s hs => gives_bind fun s' hreset => gives_some ?_
    unfold Stream.resetLocal at hreset
    split at hreset
    · cases hreset
    · rename_i hopen
      obtain rfl := Option.some.inj hreset
      simpa [put, spawn] using app hheld hs (.reset (by simpa using hopen))
  | run i pick => exact gives_bind fun c hc => .of_runCall pick hc
  | reader pick => exact .of_runReader pick
  | readFrame f => exact gives_guard fun hr => .readFrame hr
  | readFailed => exact gives_guard fun hr => .readFailed hr
  | take => exact .of_take
  | written =>
    simp only [step, Mux.written]
    split
    · rename_i r hw
      have hmove := written hw
      refine gives_some ?_
      unfold notify
      split
      · rename_i hnone
        simpa [hnone] using hmove
      · rename_i site hsome
        rw [siteNext_none, spawn_eq]
        simpa [hsome] using hmove
    · exact gives_none
  | writeFailed =>
    simp only [step, Mux.writeFailed]
    split
    · exact gives_some (.writeFailed ‹_›)
    · exact gives_none
  | writerExit => exact gives_guard fun hw => .writerExit hw.1 hw.2
  | abandon j =>
    refine gives_bind fun r hr => gives_bind fun site hsite => gives_guard fun hdone => ?_
    have hmove := abandon hr hsite hdone
    rwa [spawn_eq]
  | abandonWriting =>
    simp only [step, Mux.abandonWriting]
    split
    · refine gives_bind fun site hsite => gives_guard fun hdone => ?_
      have hmove := abandonWriting ‹_› hsite hdone
      rwa [spawn_eq]
    · exact gives_none
  | stop k => exact .of_stop k
  | closeMux => exact gives_some .closeMux

lemma Move.of_step {a : Act} (hstep : m.step a = some m') : Move m a m' := of_act a m' hstep

end Mux

end WeaverSSH.SessionMux
