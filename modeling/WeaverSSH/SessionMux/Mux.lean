import WeaverSSH.SessionMux.Stream

/-!
# The multiplexer as a transition system (`sessionmux/mux.go`)

`Mux` is the record of the source with the control points of its goroutines: the two loops and any
number of callers inside `Open`, `Read`, `Write`, `Close` and `Reset`. `Mux.step` executes one
critical section, channel operation or transport operation of one goroutine; one that is blocked has
no step.

A goroutine about to put a frame on `outgoing` is `sending` it; a caller of `send` that waits for
its result lives in the `WriteRequest` it waits for. `streams` maps identifiers to *handles*,
positions in `heap`, as callers keep their pointers to a stream that was removed. `held` are the
handles the application has; no step reads `log`.
-/

namespace WeaverSSH.SessionMux

/-- A position in `Mux.heap`: a pointer to a `Stream`. -/
abbrev Handle := ℕ

/-! ## Configuration -/

inductive Role
  | initiator
  | responder
  deriving DecidableEq, Repr

/-- `Config`. A nil `AllowedServices` is `none`. -/
structure Config where
  role : UInt8
  maxPayload : UInt32 := 0
  incomingBacklog : ℤ := 0
  allowedServices : Option (ServiceID → Bool) := none
  initialWindow : UInt32 := 0
  windowUpdateThreshold : UInt32 := 0
  maxDataPayload : UInt32 := 0

namespace Config

variable (c : Config)

/-- `initialWindow` after its default. -/
def window : ℕ := if c.initialWindow = 0 then defaultInitialWindow else c.initialWindow.toNat

/-- `windowThreshold` after its default. -/
def threshold : ℕ :=
  if c.windowUpdateThreshold = 0 then if c.window / 2 = 0 then 1 else c.window / 2
  else c.windowUpdateThreshold.toNat

def codecMax : ℕ := codecMaxPayload c.maxPayload

/-- `maxDataPayload` after its default and before it is capped by the window. -/
def dataPayload : ℕ :=
  if c.maxDataPayload = 0 then min defaultMaxDataPayload c.codecMax else c.maxDataPayload.toNat

lemma window_pos : 0 < c.window := by
  unfold window
  split_ifs with h
  · decide
  · exact Nat.pos_of_ne_zero fun h0 => h (UInt32.toNat_inj.mp h0)

lemma threshold_pos : 0 < c.threshold := by
  unfold threshold
  split_ifs with h h2
  · decide
  · omega
  · exact Nat.pos_of_ne_zero fun h0 => h (UInt32.toNat_inj.mp h0)

/-- The limits `New` computes and the errors it returns, in its order. -/
def limits : Except MuxErr Limits :=
  if hw : c.window > maxInitialWindow then .error (.initialWindow c.window)
  else if ht : c.threshold > c.window then .error (.windowThreshold c.threshold c.window)
  else if hd : c.dataPayload > c.codecMax then .error (.dataPayload c.dataPayload c.codecMax)
  else if hz : min c.dataPayload c.window = 0 then .error .dataPayloadZero
  else .ok
    { initialWindow := c.window
      windowThreshold := c.threshold
      maxDataPayload := min c.dataPayload c.window
      codecMax := c.codecMax
      window_pos := c.window_pos
      window_le := by omega
      threshold_pos := c.threshold_pos
      threshold_le := by omega
      payload_pos := by omega
      payload_le_window := min_le_right _ _
      payload_le_codec := by omega }

/-- The services a mux accepts when `AllowedServices` is nil. -/
def defaultAllowed (s : ServiceID) : Bool :=
  s = serviceControl || s = serviceFS || s = serviceTCP || s = serviceExec || s = serviceEvents

/-- Capacity of `incoming`. -/
def backlog : ℕ := if c.incomingBacklog ≤ 0 then 16 else c.incomingBacklog.toNat

end Config

/-! ## Control points -/

/-- Where a caller continues once its frame is queued, or the error of `send` is known. -/
inductive Site
  /-- `Open`: `m.send(OPEN)` -/
  | opening (h : Handle)
  /-- `Open`: `m.sendInitialWindow(stream, false)` -/
  | openWindow (h : Handle)
  /-- `Open`: the RESET of a cancelled context -/
  | cancel (h : Handle)
  /-- `Write`: a chunk of `p` that ends at `total` -/
  | write (h : Handle) (p : Bytes) (total : ℕ)
  /-- `Read`: the returned credit -/
  | readGrant
  /-- `Close` -/
  | close (h : Handle)
  /-- `Reset` -/
  | reset (h : Handle)
  deriving DecidableEq

/-- `send` waits for the writer loop's result; `sendAsync` does not. -/
def Site.sync : Site → Bool
  | .opening _ | .openWindow _ | .write .. | .close _ => true
  | .cancel _ | .readGrant | .reset _ => false

/-- A goroutine inside one of the package's calls. -/
inductive Call
  /-- at `m.outgoing <- request` -/
  | sending (f : Frame) (site : Site)
  /-- `Open`: at the `select` on `stream.accepted`, the context and `m.done` -/
  | openWait (h : Handle)
  /-- `Open`: at `stream.markAccepted()` -/
  | openMark (h : Handle)
  /-- `Open`: at `stream.initializeReceiveWindow()` -/
  | openInit (h : Handle)
  /-- `Open`: at `return stream, nil` -/
  | openReturn (h : Handle)
  /-- `Open`: at `stream.remoteClose(err)`, then `m.removeStream` -/
  | openAbort (h : Handle) (e : MuxErr)
  /-- at `m.removeStream(id)`, then return -/
  | removing (id : StreamID)
  /-- `Write`: at `s.writeMu.Lock()` -/
  | writeLock (h : Handle) (p : Bytes)
  /-- `Write`: at the head of the loop, holding `writeMu` -/
  | writeLoop (h : Handle) (p : Bytes) (total : ℕ)
  /-- `Write`: at the deferred `s.writeMu.Unlock()` -/
  | writeUnlock (h : Handle)
  /-- `Close`: at `s.writeMu.Lock()` -/
  | closeLock (h : Handle)
  /-- `Close`: at `s.writeMu.Unlock()` -/
  | closeUnlock (h : Handle)
  /-- `Close`: at `s.mux.maybeRemove(s)` -/
  | closeCheck (h : Handle)
  /-- `Reset`: at `s.writeMu.Lock()` -/
  | resetLock (h : Handle)
  /-- `Reset`: at `s.writeMu.Unlock()` -/
  | resetUnlock (h : Handle)
  deriving DecidableEq

/-- Where the reader loop continues after a `sendAsync`. -/
inductive ReaderSite
  /-- `handleOpen`: ACCEPT -/
  | accept (h : Handle)
  /-- `handleOpen`: `sendInitialWindow(stream, true)` -/
  | window (h : Handle)
  /-- `resetStream`, whose `sendAsync` error is dropped -/
  | reset (id : StreamID)
  /-- `return m.sendAsync(frame)` -/
  | reply
  /-- `_ = m.sendAsync(frame); return nil` -/
  | ignored
  deriving DecidableEq

inductive Reader
  /-- blocked in `ReadFrame` -/
  | ready
  /-- at the `switch` of `handleFrame` -/
  | handling (f : Frame)
  /-- `lookupStream` has returned a stream -/
  | found (f : Frame) (h : Handle)
  /-- FrameData: at `stream.deliver` -/
  | delivering (f : Frame) (h : Handle)
  /-- FrameClose: at `m.maybeRemove(stream)` -/
  | closeCheck (h : Handle)
  /-- FrameReset: at `stream.remoteClose(ErrStreamReset)` -/
  | resetClose (h : Handle) (id : StreamID)
  /-- `resetStream`: at `stream.remoteClose(err)` -/
  | failClose (h : Handle) (e : MuxErr)
  /-- at `m.removeStream(id)`, then `return nil` -/
  | removing (id : StreamID)
  /-- `handleOpen`: the stream is registered, at the capacity check -/
  | opened (h : Handle)
  /-- `handleOpen`: no room in `incoming`, at `m.removeStream` -/
  | backlogDrop (h : Handle)
  /-- `handleOpen`: at `stream.initializeReceiveWindow()` -/
  | windowInit (h : Handle)
  /-- `handleOpen`: at `stream.markAccepted()` -/
  | marking (h : Handle)
  /-- `handleOpen`: at `m.incoming <- stream` -/
  | publishing (h : Handle)
  /-- `handleOpen`: at `stream.remoteClose(err)` of a failed `sendAsync` -/
  | openFail (h : Handle) (e : MuxErr)
  /-- `handleOpen`: at the `m.removeStream` that follows -/
  | openFailDrop (h : Handle) (e : MuxErr)
  /-- at `m.outgoing <- writeRequest{frame: f}` -/
  | sending (f : Frame) (site : ReaderSite)
  | stopped
  deriving DecidableEq

/-- `writeRequest`, with the goroutine that waits on its `result` channel. -/
structure WriteRequest where
  frame : Frame
  waiter : Option Site
  deriving DecidableEq

inductive Writer
  | idle
  /-- inside `WriteFrame`, at the transport -/
  | writing (r : WriteRequest)
  | stopped
  deriving DecidableEq

/-- What `shutdown` still has to do after it set `m.err` and emptied the map. -/
inductive StopStep
  /-- `close(m.done)` -/
  | closeDone
  /-- `m.conn.Close()` -/
  | closeConn
  /-- the loop over the streams that were in the map -/
  | streams (hs : List Handle)
  /-- `stream.remoteClose(err)`, after `stream.signalAccepted(err)` -/
  | terminate (h : Handle)
  deriving DecidableEq

/-- History: what the mux and its callers did, oldest first. -/
inductive Event
  /-- a frame was put on `outgoing` -/
  | sent (f : Frame)
  /-- an incoming frame took effect -/
  | handled (f : Frame)
  /-- `deliver` or `addSendCredit` returned an error for an incoming frame -/
  | violation (f : Frame) (e : MuxErr)
  /-- `handleFrame` returned an error -/
  | failed (e : MuxErr)
  /-- a `Write` of `p` took `writeMu` -/
  | wrote (h : Handle) (p : Bytes)
  /-- a `Write` of `p` returned `len(p), nil` -/
  | writeOK (h : Handle) (p : Bytes)
  /-- `Close` closed the local direction -/
  | closed (h : Handle)
  /-- `Read` returned bytes -/
  | read (h : Handle) (out : Bytes)
  /-- `Read` returned `io.EOF` -/
  | readEOF (h : Handle)
  /-- `Read` returned another error -/
  | readError (h : Handle) (e : MuxErr)
  deriving DecidableEq

structure Mux where
  role : Role
  limits : Limits
  backlog : ℕ
  allowed : ServiceID → Bool
  nextID : StreamID
  heap : List Stream := []
  streams : StreamID → Option Handle := fun _ => none
  err : Option MuxErr := none
  incoming : List Handle := []
  outgoing : List WriteRequest := []
  done : Bool := false
  connClosed : Bool := false
  stopping : List StopStep := []
  reader : Reader := .ready
  writer : Writer := .idle
  calls : List Call := []
  held : List Handle := []
  log : List Event := []

def Role.firstID : Role → StreamID
  | .initiator => 1
  | .responder => 2

/-- `New`, for a transport that is not nil. -/
def Mux.new (c : Config) : Except MuxErr Mux :=
  match c.role with
  | 1 => c.limits.map fun limits =>
      { role := .initiator, limits, backlog := c.backlog, nextID := Role.firstID .initiator
        allowed := c.allowedServices.getD Config.defaultAllowed }
  | 2 => c.limits.map fun limits =>
      { role := .responder, limits, backlog := c.backlog, nextID := Role.firstID .responder
        allowed := c.allowedServices.getD Config.defaultAllowed }
  | _ => .error .invalidRole

namespace Mux

/-! ## Operations on the shared state -/

def put (m : Mux) (h : Handle) (s : Stream) : Mux := { m with heap := m.heap.set h s }

def removeStream (m : Mux) (id : StreamID) : Mux :=
  { m with streams := Function.update m.streams id none }

/-- Register a new stream under its identifier. -/
def addStream (m : Mux) (s : Stream) : Mux :=
  { m with heap := m.heap ++ [s], streams := Function.update m.streams s.id (some m.heap.length) }

def peerOwns (m : Mux) (id : StreamID) : Bool :=
  if id = 0 then false
  else match m.role with
    | .initiator => id % 2 = 0
    | .responder => id % 2 = 1

def closeErr (m : Mux) : MuxErr := m.err.getD .muxClosed

/-- There is room in the channel `outgoing`, whose capacity is `backlog * 4`. -/
def room (m : Mux) : Bool := m.outgoing.length < m.backlog * 4

def record (m : Mux) (e : Event) : Mux := { m with log := m.log ++ [e] }

/-- Put a frame on `outgoing`. -/
def enqueue (m : Mux) (f : Frame) (waiter : Option Site) : Mux :=
  { m with outgoing := m.outgoing ++ [⟨f, waiter⟩], log := m.log ++ [.sent f] }

def setReader (m : Mux) (r : Reader) : Mux := { m with reader := r }

/-- The handles of the streams in the map, in the order of their creation. -/
def registered (m : Mux) : List Handle :=
  (List.range m.heap.length).filter fun h => (m.heap[h]?.bind fun s => m.streams s.id) = some h

/-- The first critical section of `shutdown`; `closeOne` makes a second call do nothing. -/
def shutdown (m : Mux) (e : MuxErr) : Mux :=
  if m.err.isSome then m
  else { m with
    err := some e
    streams := fun _ => none
    stopping := [.closeDone, .closeConn, .streams m.registered] }

/-- The rest of `shutdown`, one action at a time; `k` is the choice the loop over a map
leaves open. -/
def stop (m : Mux) (k : ℕ) : Option Mux :=
  match m.stopping with
  | [] => none
  | .closeDone :: rest => some { m with stopping := rest, done := true }
  | .closeConn :: rest => some { m with stopping := rest, connClosed := true }
  | .streams hs :: rest => do
      let h ← hs[k]?
      let s ← m.heap[h]?
      some ({ m with stopping := .terminate h :: .streams (hs.eraseIdx k) :: rest }.put h
        (s.signalAccepted (some m.closeErr)))
  | .terminate h :: rest => do
      let s ← m.heap[h]?
      some ({ m with stopping := rest }.put h (s.remoteClose (some m.closeErr)))

/-! ## Frames -/

end Mux

namespace Stream

def openFrame (s : Stream) (metadata : Bytes) : Frame :=
  { type := .frameOpen, streamID := s.id, service := s.service, payload := metadata }

def acceptFrame (s : Stream) : Frame :=
  { type := .frameAccept, streamID := s.id, service := s.service }

def dataFrame (s : Stream) (data : Bytes) : Frame :=
  { type := .frameData, streamID := s.id, service := s.service, payload := data }

def windowFrame (s : Stream) (payload : Bytes) : Frame :=
  { type := .frameWindow, streamID := s.id, service := s.service, payload }

def closeFrame (s : Stream) : Frame :=
  { type := .frameClose, streamID := s.id, service := s.service }

def resetFrame (s : Stream) : Frame :=
  { type := .frameReset, streamID := s.id, service := s.service }

end Stream

def Frame.resetReply (f : Frame) : Frame :=
  { type := .frameReset, streamID := f.streamID, service := f.service }

namespace Mux

/-! ## The callers -/

/-- Replace the `i`-th goroutine by what it continues as; `none` when it has returned. -/
def resume (m : Mux) (i : ℕ) : Option Call → Mux
  | some c => { m with calls := m.calls.set i c }
  | none => { m with calls := m.calls.eraseIdx i }

/-- Start a goroutine, or put one back that waited for its result. -/
def spawn (m : Mux) : Option Call → Mux
  | some c => { m with calls := m.calls ++ [c] }
  | none => m

/-- The identifier of a stream, for the `removeStream` calls that follow a handle. -/
def idOf (m : Mux) (h : Handle) : StreamID := ((m.heap[h]?).map (·.id)).getD 0

/-- What follows the frame of a site, given the error of `send` or `sendAsync`. -/
def siteNext (m : Mux) : Site → Option MuxErr → Option Call
  | .opening h, none => some (.openWait h)
  | .opening h, some _ => some (.removing (m.idOf h))
  | .openWindow h, none => some (.openReturn h)
  | .openWindow h, some e => some (.openAbort h e)
  | .cancel h, _ => some (.openAbort h .ctxErr)
  | .write h p total, none => some (.writeLoop h p total)
  | .write h _ _, some _ => some (.writeUnlock h)
  | .readGrant, _ => none
  | .close h, _ => some (.closeUnlock h)
  | .reset h, _ => some (.resetUnlock h)

/-- The branch a goroutine takes at a `select`: the channel operation, `<-m.done`, or
`<-ctx.Done()`. -/
inductive Pick
  | go
  | done
  | cancel
  deriving DecidableEq

/-- `m.outgoing <- request` of the `i`-th goroutine. -/
def enqueueCall (m : Mux) (i : ℕ) (f : Frame) (site : Site) : Mux :=
  if site.sync then (m.resume i none).enqueue f (some site)
  else (m.resume i (m.siteNext site none)).enqueue f none

/-- `Open` after the peer's answer: `markAccepted` follows a nil error. -/
def openAnswer (m : Mux) (i : ℕ) (h : Handle) (s : Stream) : Option MuxErr → Mux
  | none => (m.put h { s with accepted := none }).resume i (some (.openMark h))
  | some _ => (m.put h { s with accepted := none }).resume i (some (.removing s.id))

/-- `sendInitialWindow`: the frame to send, with the stream after, or the error. -/
def initialWindowFrame (s : Stream) : Except MuxErr (Frame × Stream) :=
  match s.initializeReceiveWindow with
  | .error e => .error e
  | .ok (credit, s') =>
    match encodeWindowCredit credit with
    | .error e => .error e
    | .ok payload => .ok (s.windowFrame payload, s')

/-- One iteration of the loop of `Write`. -/
def writeIteration (m : Mux) (i : ℕ) (h : Handle) (s : Stream) (p : Bytes) (total : ℕ) :
    Option Mux :=
  if total < p.length then
    match s.takeChunk (p.drop total) with
    | .wait => none
    | .chunk s' data =>
        some ((m.put h s').resume i
          (some (.sending (s.dataFrame data) (.write h p (total + data.length)))))
    | .notAccepted | .closedPipe | .terminal _ => some (m.resume i (some (.writeUnlock h)))
  else some ((m.resume i (some (.writeUnlock h))).record (.writeOK h p))

/-- One step of the `i`-th goroutine, which stands at `c`. -/
def runCall (m : Mux) (i : ℕ) (c : Call) (pick : Pick) : Option Mux :=
  match c, pick with
  | .sending f site, .go => if m.room then some (m.enqueueCall i f site) else none
  | .sending _ site, .done =>
      if m.done then some (m.resume i (m.siteNext site (some m.closeErr))) else none
  | .openWait h, .go => do
      let s ← m.heap[h]?
      some (m.openAnswer i h s (← s.accepted))
  | .openWait h, .cancel => do
      some (m.resume i (some (.sending (← m.heap[h]?).resetFrame (.cancel h))))
  | .openWait _, .done => if m.done then some (m.resume i none) else none
  | .openMark h, .go => do
      some ((m.put h (← m.heap[h]?).markAccepted).resume i (some (.openInit h)))
  | .openInit h, .go => do
      match initialWindowFrame (← m.heap[h]?) with
      | .error e => some (m.resume i (some (.openAbort h e)))
      | .ok (f, s') =>
          some ((m.put h s').resume i (some (.sending f (.openWindow h))))
  | .openReturn h, .go => some ({ m with held := m.held ++ [h] }.resume i none)
  | .openAbort h e, .go => do
      let s ← m.heap[h]?
      some ((m.put h (s.remoteClose (some e))).resume i (some (.removing s.id)))
  | .removing id, .go => some ((m.removeStream id).resume i none)
  | .writeLock h p, .go => do
      let s ← m.heap[h]?
      if s.writeMu then none
      else some (((m.put h { s with writeMu := true }).resume i
        (some (.writeLoop h p 0))).record (.wrote h p))
  | .writeLoop h p total, .go => do m.writeIteration i h (← m.heap[h]?) p total
  | .writeUnlock h, .go => do
      some ((m.put h { ← m.heap[h]? with writeMu := false }).resume i none)
  | .closeLock h, .go => do
      let s ← m.heap[h]?
      if s.writeMu then none
      else some ((m.put h { s with writeMu := true }).resume i
        (some (.sending s.closeFrame (.close h))))
  | .closeUnlock h, .go => do
      some ((m.put h { ← m.heap[h]? with writeMu := false }).resume i (some (.closeCheck h)))
  | .closeCheck h, .go => do
      let s ← m.heap[h]?
      some (m.resume i (if s.isFullyClosed then some (.removing s.id) else none))
  | .resetLock h, .go => do
      let s ← m.heap[h]?
      if s.writeMu then none
      else some ((m.put h { s with writeMu := true }).resume i
        (some (.sending s.resetFrame (.reset h))))
  | .resetUnlock h, .go => do
      let s ← m.heap[h]?
      some ((m.put h { s with writeMu := false }).resume i (some (.removing s.id)))
  | _, _ => none

/-- `Read`, on a stream the application holds, with a buffer of `n` bytes. -/
def readCall (m : Mux) (h : Handle) (s : Stream) (n : ℕ) : Option Mux :=
  if n = 0 then some m
  else match s.read n with
  | .wait => none
  | .eof => some (m.record (.readEOF h))
  | .fail e => some (m.record (.readError h e))
  | .violation s' out =>
      some (((m.put h s').record (.read h out)).record
        (.readError h (.flowControl .receiveCredit)))
  | .data s' out grant =>
      let m' := (m.put h s').record (.read h out)
      if grant > 0 then
        match encodeWindowCredit grant with
        | .error e => some (m'.record (.readError h e))
        | .ok payload => some (m'.spawn (some (.sending (s.windowFrame payload) .readGrant)))
      else some m'

/-- `newLocalStream`, and the goroutine of the `Open` that called it. -/
def openCall (m : Mux) (service : ServiceID) (metadata : Bytes) : Option Mux :=
  if !service.valid then none
  else if m.err.isSome then none
  else
    let s := newStream m.limits m.nextID service [] false
    some (({ m with nextID := m.nextID + 2 }.addStream s).spawn
      (some (.sending (s.openFrame metadata) (.opening m.heap.length))))

/-! ## The reader loop -/

/-- `handleFrame` returned an error: `readLoop` shuts the mux down and ends. -/
def fail (m : Mux) (e : MuxErr) : Mux :=
  ((m.record (.failed e)).setReader .stopped).shutdown e

/-- `resetStream`, up to its first blocking point. -/
def resetStream (m : Mux) (h : Handle) (s : Stream) (e : MuxErr) : Mux :=
  (m.put h (s.signalAccepted (some e))).setReader (.failClose h e)

/-- `handleOpen`, up to the registration of the stream. -/
def handleOpen (m : Mux) (f : Frame) : Mux :=
  if !f.service.valid || !m.allowed f.service then
    (m.record (.handled f)).setReader (.sending f.resetReply .reply)
  else if !m.peerOwns f.streamID then (m.record (.handled f)).fail (.invalidStreamID f.streamID)
  else match m.err with
  | some e => (m.record (.handled f)).fail e
  | none =>
    if (m.streams f.streamID).isSome then
      (m.record (.handled f)).fail (.duplicateOpen f.streamID)
    else
      ((m.record (.handled f)).addStream
        (newStream m.limits f.streamID f.service f.payload true)).setReader (.opened m.heap.length)

/-- `handleFrame` for a frame whose stream is not in the map. -/
def handleUnknown (m : Mux) (f : Frame) : Mux :=
  match f.type with
  | .frameAccept => (m.record (.handled f)).fail (.acceptUnknown f.streamID)
  | .frameData => (m.record (.handled f)).setReader (.sending f.resetReply .ignored)
  | _ => (m.record (.handled f)).setReader .ready

/-- The `switch` of `handleFrame`, up to `lookupStream`. -/
def handleFrame (m : Mux) (f : Frame) : Mux :=
  match f.type with
  | .frameOpen => m.handleOpen f
  | .frameAccept | .frameWindow | .frameData | .frameClose | .frameReset =>
    match m.streams f.streamID with
    | none => m.handleUnknown f
    | some h => m.setReader (.found f h)
  | .framePing =>
      (m.record (.handled f)).setReader
        (.sending { type := .framePong, streamID := 0, payload := f.payload } .reply)
  | .framePong => (m.record (.handled f)).setReader .ready
  | .unknown _ => (m.record (.handled f)).fail (.unsupportedType f.type)

def handleWindow (m : Mux) (f : Frame) (h : Handle) (s : Stream) : Mux :=
  if s.service ≠ f.service then
    (m.record (.handled f)).resetStream h s (.flowControl .windowService)
  else match decodeWindowCredit f.payload with
  | .error e => (m.record (.handled f)).resetStream h s e
  | .ok credit =>
    match s.addSendCredit credit with
    | .error e => ((m.record (.handled f)).record (.violation f e)).resetStream h s e
    | .ok s' => ((m.record (.handled f)).put h s').setReader .ready

/-- `handleFrame` once `lookupStream` has returned `s`. -/
def handleFound (m : Mux) (f : Frame) (h : Handle) (s : Stream) : Mux :=
  match f.type with
  | .frameAccept =>
    if s.service ≠ f.service then (m.record (.handled f)).fail (.acceptService f.streamID)
    else ((m.record (.handled f)).put h (s.signalAccepted none)).setReader .ready
  | .frameWindow => m.handleWindow f h s
  | .frameData =>
    if !s.isOpen || s.service ≠ f.service then
      (m.record (.handled f)).resetStream h s .streamReset
    else m.setReader (.delivering f h)
  | .frameClose =>
    if s.service ≠ f.service then (m.record (.handled f)).resetStream h s .streamReset
    else ((m.record (.handled f)).put h (s.remoteClose none)).setReader (.closeCheck h)
  | _ =>
    ((m.record (.handled f)).put h (s.signalAccepted (some .streamReset))).setReader
      (.resetClose h f.streamID)

/-- FrameData: `stream.deliver`. -/
def handleDeliver (m : Mux) (f : Frame) (h : Handle) (s : Stream) : Mux :=
  match s.deliver f.payload with
  | .error e => ((m.record (.handled f)).record (.violation f e)).resetStream h s e
  | .ok s' => ((m.record (.handled f)).put h s').setReader .ready

/-- What follows the reader's `sendAsync`, given its error. -/
def readerSiteNext (m : Mux) : ReaderSite → Option MuxErr → Mux
  | .accept h, none => m.setReader (.windowInit h)
  | .window h, none => m.setReader (.marking h)
  | .accept h, some e | .window h, some e => m.setReader (.openFail h e)
  | .reset id, _ => m.setReader (.removing id)
  | .reply, none => m.setReader .ready
  | .reply, some e => m.fail e
  | .ignored, _ => m.setReader .ready

/-- One step of the reader loop inside `handleFrame`. -/
def runReader (m : Mux) (pick : Pick) : Option Mux :=
  match m.reader, pick with
  | .handling f, .go => some (m.handleFrame f)
  | .found f h, .go => do some (m.handleFound f h (← m.heap[h]?))
  | .delivering f h, .go => do some (m.handleDeliver f h (← m.heap[h]?))
  | .closeCheck h, .go => do
      let s ← m.heap[h]?
      some (m.setReader (if s.isFullyClosed then .removing s.id else .ready))
  | .resetClose h id, .go => do
      let s ← m.heap[h]?
      some ((m.put h (s.remoteClose (some .streamReset))).setReader (.removing id))
  | .failClose h e, .go => do
      let s ← m.heap[h]?
      some ((m.put h (s.remoteClose (some e))).setReader (.sending s.resetFrame (.reset s.id)))
  | .removing id, .go => some ((m.removeStream id).setReader .ready)
  | .opened h, .go => do
      let s ← m.heap[h]?
      if m.incoming.length ≥ m.backlog then
        some ((m.put h (s.remoteClose (some .incomingBacklog))).setReader (.backlogDrop h))
      else some (m.setReader (.sending s.acceptFrame (.accept h)))
  | .backlogDrop h, .go => do
      let s ← m.heap[h]?
      some ((m.removeStream s.id).setReader (.sending s.resetFrame .reply))
  | .windowInit h, .go => do
      match initialWindowFrame (← m.heap[h]?) with
      | .error e => some (m.setReader (.openFail h e))
      | .ok (f, s') => some ((m.put h s').setReader (.sending f (.window h)))
  | .marking h, .go => do
      some ((m.put h (← m.heap[h]?).markAccepted).setReader (.publishing h))
  | .publishing h, .go =>
      if m.incoming.length < m.backlog then
        some ({ m with incoming := m.incoming ++ [h] }.setReader .ready)
      else none
  | .publishing h, .done =>
      if m.done then some (m.setReader (.openFail h m.closeErr)) else none
  | .openFail h e, .go => do
      let s ← m.heap[h]?
      some ((m.put h (s.remoteClose (some e))).setReader (.openFailDrop h e))
  | .openFailDrop h e, .go => do some ((m.removeStream (← m.heap[h]?).id).fail e)
  | .sending f site, .go =>
      if m.room then some ((m.enqueue f none).readerSiteNext site none) else none
  | .sending _ site, .done =>
      if m.done then some (m.readerSiteNext site (some m.closeErr)) else none
  | _, _ => none

/-! ## The writer loop -/

/-- Deliver the result of a request to the goroutine that waits for it. -/
def notify (m : Mux) (r : WriteRequest) (e : Option MuxErr) : Mux :=
  match r.waiter with
  | none => m
  | some site => m.spawn (m.siteNext site e)

/-- `request := <-m.outgoing`, and the checks of `WriteFrame`. -/
def take (m : Mux) : Option Mux :=
  match m.writer, m.outgoing with
  | .idle, r :: rest =>
    match writeFrameCheck m.limits.codecMax r.frame with
    | none => some { m with outgoing := rest, writer := .writing r }
    | some e =>
        some (({ m with outgoing := rest, writer := .stopped }.notify r (some e)).shutdown e)
  | _, _ => none

/-- The transport took the frame. -/
def written (m : Mux) : Option Mux :=
  match m.writer with
  | .writing r => some ({ m with writer := .idle }.notify r none)
  | _ => none

/-- The transport's `Write` failed. -/
def writeFailed (m : Mux) : Option Mux :=
  match m.writer with
  | .writing r =>
    some (({ m with writer := .stopped }.notify r (some .transport)).shutdown .transport)
  | _ => none

/-- A caller of `send` gives up on its result because `m.done` is closed. -/
def abandon (m : Mux) (j : ℕ) : Option Mux := do
  let r ← m.outgoing[j]?
  let site ← r.waiter
  if m.done then
    some ({ m with outgoing := m.outgoing.set j { r with waiter := none } }.spawn
      (m.siteNext site (some m.closeErr)))
  else none

/-- The same, for the request the writer loop holds. -/
def abandonWriting (m : Mux) : Option Mux :=
  match m.writer with
  | .writing r => do
    let site ← r.waiter
    if m.done then
      some ({ m with writer := .writing { r with waiter := none } }.spawn
        (m.siteNext site (some m.closeErr)))
    else none
  | _ => none

/-! ## Steps -/

/-- The actions of one mux and of its callers. -/
inductive Act
  | openStream (service : ServiceID) (metadata : Bytes)
  | accept
  | write (h : Handle) (p : Bytes)
  | read (h : Handle) (n : ℕ)
  | close (h : Handle)
  | reset (h : Handle)
  /-- the `i`-th goroutine runs -/
  | run (i : ℕ) (pick : Pick)
  /-- the reader loop runs inside `handleFrame` -/
  | reader (pick : Pick)
  /-- `ReadFrame` returns a frame -/
  | readFrame (f : Frame)
  /-- `ReadFrame` returns an error -/
  | readFailed
  /-- the writer loop takes a request -/
  | take
  /-- `WriteFrame` returns nil -/
  | written
  /-- `WriteFrame` returns a transport error -/
  | writeFailed
  /-- the writer loop sees `m.done` -/
  | writerExit
  | abandon (j : ℕ)
  | abandonWriting
  /-- `shutdown` continues -/
  | stop (k : ℕ)
  /-- `Mux.Close` -/
  | closeMux
  deriving DecidableEq

def step (m : Mux) : Act → Option Mux
  | .openStream service metadata => m.openCall service metadata
  | .accept =>
    match m.incoming with
    | [] => none
    | h :: rest => some { m with incoming := rest, held := m.held ++ [h] }
  | .write h p =>
    if h ∈ m.held ∧ p ≠ [] then some (m.spawn (some (.writeLock h p))) else none
  | .read h n => if h ∈ m.held then do m.readCall h (← m.heap[h]?) n else none
  | .close h =>
    if h ∈ m.held then do
      let s' ← (← m.heap[h]?).closeLocal
      some (((m.put h s').record (.closed h)).spawn (some (.closeLock h)))
    else none
  | .reset h =>
    if h ∈ m.held then do
      let s' ← (← m.heap[h]?).resetLocal
      some ((m.put h s').spawn (some (.resetLock h)))
    else none
  | .run i pick => do m.runCall i (← m.calls[i]?) pick
  | .reader pick => m.runReader pick
  | .readFrame f => if m.reader = .ready then some (m.setReader (.handling f)) else none
  | .readFailed =>
    if m.reader = .ready then some ((m.setReader .stopped).shutdown .transport) else none
  | .take => m.take
  | .written => m.written
  | .writeFailed => m.writeFailed
  | .writerExit => if m.writer = .idle ∧ m.done then some { m with writer := .stopped } else none
  | .abandon j => m.abandon j
  | .abandonWriting => m.abandonWriting
  | .stop k => m.stop k
  | .closeMux => some (m.shutdown .muxClosed)

end Mux

end WeaverSSH.SessionMux
