import WeaverSSH.SessionMux.Session

/-!
# What a session guarantees

For every orderly run of two muxes: credit is conserved and nobody violates it, a failure of one
stream leaves the session alone, and every stream is a reliable ordered stream of bytes.

None of these survives disorderly callers, and each is followed by a run that breaks it: `shutdown`
can be brought about by one caller of one stream, and its work is visible to the others while it is
being done.
-/

namespace WeaverSSH.SessionMux

open Transition Event List Net

/-! ## Frames on their way -/

lemma Mux.view_pending (m : Mux) (i : StreamID) : (m.view i).calls.filterMap Call.pending? =
      (m.calls.filterMap Call.pending?).filter fun f => f.streamID = i := by
  refine Mux.filterMap_filter_eq (fun c f hc => ?_) m.calls
  cases c <;> cases hc
  rfl

lemma Mux.view_reader_pending (m : Mux) (i : StreamID) :
    (m.view i).reader.pending = m.reader.pending.filter fun f => f.streamID = i := by
  change (if m.reader.sid m.ids = some i then m.reader else .ready).pending = _
  rw [apply_ite Reader.pending]
  cases m.reader with
  | sending f site => by_cases hi : f.streamID = i <;> simp [Reader.sid, Reader.pending, hi]
  | _ => exact ite_self _

namespace Net

variable {dp : ℕ} {n : Net} {x : Side} {i : StreamID}

/-- The frames of one stream on their way from `x` to the other side: in the hands of the other
side's reader loop, on the wire, in the queue of `x`, and in the hands of the goroutines of `x`
that are about to queue them. -/
def flight (n : Net) (x : Side) (i : StreamID) : List Frame :=
  ((n.mux x.other).reader.inbox ++ n.wire x ++ (n.mux x).queue ++
    (n.mux x).calls.filterMap Call.pending? ++ (n.mux x).reader.pending).filter
      fun f => f.streamID = i

/-- What an end has sent or is about to send, its peer has handled or will find on the way. -/
lemma Fifo.flight (hf : n.Fifo x) (i : StreamID) :
    ((n.mux x).view i).outgo = ((n.mux x.other).view i).handled ++ n.flight x i := by
  rw [End.outgo, Mux.view_sent, Mux.view_pending, Mux.view_reader_pending, Mux.view_handled, hf]
  simp [Net.flight]

lemma Joined.faultless (hj : Joined dp n) (hquiet : n.Quiet) (x : Side) {w : Event}
    (hw : w ∈ (n.mux x).log) : w.isFault = false := by
  by_contra hbad
  rw [Bool.not_eq_false] at hbad
  obtain ⟨i, hi⟩ : ∃ i, w.sid (n.mux x).ids = some i := by
    cases w <;> first | exact ⟨_, rfl⟩ | cases hbad
  have hmem : w ∈ ((n.mux x).view i).log := mem_filter.mpr ⟨hw, by simpa using hi⟩
  rcases (hj.pair x i).mine with ha | ⟨s, hs⟩
  · rcases ha.log w hmem with ⟨f, rfl⟩ | ⟨f, rfl⟩ <;> cases hbad
  · rw [((hquiet x i).mine s hs.stream).faultless w hmem] at hbad
    cases hbad

end Net

/-! ## Credit -/

/-- **Conservation of credit.** Whatever the two sides advertise and however their callers and
loops interleave, as long as the callers are orderly and nobody calls `Reset`: credit in the
sender's hands, bytes on their way, bytes the reader has not taken or whose credit it has not
returned, and credit on its way back make up the receiver's window. So `deliver` and
`addSendCredit` accept every frame, and no `Read` finds more credit than there can be. -/
theorem flow_control_conserved {left right : Config} {capacity : ℕ} {n₀ n : Net}
    (hnew : new left right capacity = .ok n₀) (hpeers : left.Peers right)
    (hrun : Reachable step (fun n a => n.orderly a = true ∧ resets a = false) n₀ n) :
    (∀ x, ∀ s ∈ (n.mux x).heap, ∀ t ∈ (n.mux x.other).heap, s.id = t.id →
      s.localClosed = false → s.terminalErr = none → t.remoteClosed = false →
      t.windowAdvertised = true →
      s.sendCredit + (dataBytes (n.flight x s.id)).length + t.readBuf.length + t.pendingWindow +
        creditSum (n.flight x.other s.id) = t.limits.initialWindow) ∧
    (∀ x f e, violation f e ∉ (n.mux x).log) ∧
    ∀ x h, readError h (.flowControl .receiveCredit) ∉ (n.mux x).log := by
  obtain ⟨hj, hquiet⟩ := Net.Quiet.reachable hnew hpeers hrun
  refine ⟨?_, fun x f e hmem => Bool.noConfusion (hj.faultless hquiet x hmem),
    fun x h hmem => Bool.noConfusion (hj.faultless hquiet x hmem)⟩
  intro x s hs t ht hid hlocal hterm hopen hadv
  obtain ⟨h, hh⟩ := mem_iff_getElem?.mp hs
  obtain ⟨k, hk⟩ := mem_iff_getElem?.mp ht
  have hvs := (hj.tidy x).view_stream hh
  have hvt := (hj.tidy x.other).view_stream hk
  rw [← hid] at hvt
  have hcons := (hj.pair x s.id).conserved (hquiet x s.id) hvs hvt ⟨hlocal, hterm⟩ hopen hadv
  have hback := (hj.fifo x.other).flight s.id
  rw [Side.other_other] at hback
  rw [(hj.fifo x).flight, hback] at hcons
  simp only [dataBytes_append, creditSum_append, length_append] at hcons
  rw [((hj.sound x.other).get hk).2]
  omega

/-! ### Two small sessions -/

/-- The reader loop of `x` runs. -/
def readerSteps (x : Side) (k : ℕ) : List Net.Act := replicate k (.mux x (.reader .go))

/-- The first goroutine of `x` runs. -/
def callSteps (x : Side) (k : ℕ) : List Net.Act := replicate k (.mux x (.run 0 .go))

/-- The writer loop of `x` sends frames. -/
def sendSteps (x : Side) (k : ℕ) : List Net.Act :=
  (replicate k [Net.Act.mux x .take, .transmit x]).flatten

/-- The reader loop of `x` takes a frame and runs. -/
def receiveSteps (x : Side) (k : ℕ) : List Net.Act := .receive x :: readerSteps x k

/-- Windows of eight bytes, frames of at most four. -/
def smallLeft : Config :=
  { role := 1, maxPayload := 4, initialWindow := 8, windowUpdateThreshold := 1,
    maxDataPayload := 4 }

def smallRight : Config := { smallLeft with role := 2 }

/-- The left side opens a stream and has it, the right side accepts it, and both have advertised
their windows. -/
def openingRun : List Net.Act :=
  [[.mux .left (.openStream serviceFS [])], callSteps .left 1, sendSteps .left 1,
    receiveSteps .right 7, [.mux .right .accept], sendSteps .right 2, receiveSteps .left 2,
    receiveSteps .left 2, callSteps .left 4, sendSteps .left 1, callSteps .left 1,
    receiveSteps .right 2].flatten

/-- Then the left side writes two bytes, which the right side has, and three it has not. -/
def writingRun : List Net.Act :=
  [openingRun, [.mux .left (.write 0 [1, 2])], callSteps .left 3, sendSteps .left 1,
    callSteps .left 2, receiveSteps .right 3, [.mux .left (.write 0 [3, 4, 5])],
    callSteps .left 2].flatten

/-- The sender has three bytes of credit, the receiver two bytes to read. -/
def writingEnd (n : Net) : Bool :=
  (n.mux .left).heap.any (fun s => s.id = 1 && !s.localClosed && s.terminalErr = none &&
    s.sendCredit = 3) &&
  (n.mux .right).heap.any (fun t => t.id = 1 && !t.remoteClosed && t.windowAdvertised &&
    t.readBuf = [1, 2] && t.pendingWindow = 0 && t.limits.initialWindow = 8)

lemma small_peers : smallLeft.Peers smallRight := ⟨rfl, rfl, rfl, rfl, by decide⟩

/-- Three bytes are on their way: what is left of the window of eight. -/
theorem flow_control_conserved_small : ∃ n₀ n, new smallLeft smallRight 4 = .ok n₀ ∧
    Reachable step (fun n a => n.orderly a = true ∧ resets a = false) n₀ n ∧
    3 + (dataBytes (n.flight .left 1)).length + 2 + 0 + creditSum (n.flight .right 1) = 8 := by
  have hends : ends step (fun n a => n.orderly a && !resets a)
      (new smallLeft smallRight 4) writingRun writingEnd = true := by decide +kernel
  obtain ⟨n₀, n, hnew, hrun, hend⟩ := exists_of_ends hends
  have hreach : Reachable step (fun n a => n.orderly a = true ∧ resets a = false) n₀ n :=
    hrun.mono fun n a h => by simpa using h
  simp only [writingEnd, any_eq_true, Bool.and_eq_true, decide_eq_true_eq,
    Bool.not_eq_true'] at hend
  obtain ⟨⟨s, hs, ⟨⟨hsid, hlocal⟩, hterm⟩, hcredit⟩, t, ht, ⟨⟨⟨⟨htid, hopen⟩, hadv⟩, hbuf⟩, hpend⟩,
    hwindow⟩ := hend
  have hcons := (flow_control_conserved hnew small_peers hreach).1 .left s hs t ht
    (hsid.trans htid.symm) hlocal hterm hopen hadv
  rw [hsid, hcredit, hbuf, hpend, hwindow] at hcons
  exact ⟨n₀, n, hnew, hreach, hcons⟩

/-- The right side calls `Open` with five bytes of metadata while its reader loop is about to
deliver: the writer loop cannot send the OPEN and shuts the mux down, and `remoteClose` reaches
the stream before `deliver` does. -/
def oversizeRun : List Net.Act :=
  [openingRun, [.mux .left (.write 0 [1, 2])], callSteps .left 3, sendSteps .left 1,
    receiveSteps .right 2, [.mux .right (.openStream serviceFS [0, 0, 0, 0, 0])],
    callSteps .right 1, [.mux .right .take], replicate 4 (.mux .right (.stop 0)),
    readerSteps .right 1].flatten

/-- The operations of streams other than `Reset`, uncancelled, and the two loops. -/
def Net.plain : Net.Act → Bool
  | .mux _ (.reset _) | .mux _ .closeMux | .mux _ (.run _ .cancel) => false
  | _ => true

theorem shutdown_refuses_honest_data : ∃ n₀ n, new smallLeft smallRight 4 = .ok n₀ ∧
    Reachable step (fun _ a => plain a = true) n₀ n ∧ ∃ f, f.type = .frameData ∧
      violation f (.flowControl (.dataAfterClose 1)) ∈ (n.mux .right).log := by
  have hends : ends step (fun _ a => plain a) (new smallLeft smallRight 4) oversizeRun
      (fun n => violation ⟨.frameData, 0, 1, serviceFS, [1, 2]⟩
        (.flowControl (.dataAfterClose 1)) ∈ (n.mux .right).log) = true := by decide +kernel
  obtain ⟨n₀, n, hnew, hrun, hend⟩ := exists_of_ends hends
  exact ⟨n₀, n, hnew, hrun, _, rfl, by simpa using hend⟩

/-! ## The session -/

/-- **No stream takes the session down.** However streams are opened, refused, cancelled once
answered, closed and reset, neither side's `handleFrame` returns an error and neither mux is shut
down. -/
theorem session_survives_streams {left right : Config} {capacity : ℕ} {n₀ n : Net}
    (hnew : new left right capacity = .ok n₀) (hpeers : left.Peers right)
    (hrun : Reachable step (fun n a => n.orderly a = true) n₀ n) (x : Side) :
    (∀ e, failed e ∉ (n.mux x).log) ∧ (n.mux x).err = none ∧ (n.mux x).stopping = [] := by
  have hh := (Net.Joined.reachable hnew hpeers hrun).healthy x
  exact ⟨hh.log, hh.err, hh.stopping⟩

/-- The right side resets a stream while DATA is on its way, and answers the DATA. -/
def resettingRun : List Net.Act :=
  [openingRun, [.mux .left (.write 0 [1, 2])], callSteps .left 3, [.mux .right (.reset 0)],
    callSteps .right 4, sendSteps .left 1, receiveSteps .right 2].flatten

theorem session_survives_reset : ∃ n₀ n, new smallLeft smallRight 4 = .ok n₀ ∧
    Reachable step (fun n a => n.orderly a = true) n₀ n ∧ (n.mux .right).streams 1 = none ∧
    ((∀ e, failed e ∉ (n.mux .right).log) ∧ (n.mux .right).err = none ∧
      (n.mux .right).stopping = []) := by
  have hends : ends step orderly (new smallLeft smallRight 4) resettingRun
      (fun n => (n.mux .right).streams 1 = none) = true := by decide +kernel
  obtain ⟨n₀, n, hnew, hrun, hend⟩ := exists_of_ends hends
  exact ⟨n₀, n, hnew, hrun, by simpa using hend,
    session_survives_streams hnew small_peers hrun .right⟩

/-- The left side's `Open` is cancelled while the ACCEPT is on its way. -/
def cancellingRun : List Net.Act :=
  [[.mux .left (.openStream serviceFS [])], callSteps .left 1, sendSteps .left 1,
    receiveSteps .right 3, sendSteps .right 1, [.mux .left (.run 0 .cancel)], callSteps .left 3,
    receiveSteps .left 1].flatten

/-- `ACCEPT for unknown stream` shuts the mux down. -/
theorem cancelled_open_kills_session : ∃ n₀ n, new smallLeft smallRight 4 = .ok n₀ ∧
    Reachable step (fun _ a => a ≠ .mux .left .closeMux ∧ a ≠ .mux .right .closeMux) n₀ n ∧
    failed (.acceptUnknown 1) ∈ (n.mux .left).log ∧
      (n.mux .left).err = some (.acceptUnknown 1) := by
  have hends : ends step (fun _ a => a ≠ .mux .left .closeMux ∧ a ≠ .mux .right .closeMux)
      (new smallLeft smallRight 4) cancellingRun
      (fun n => failed (.acceptUnknown 1) ∈ (n.mux .left).log &&
        (n.mux .left).err = some (.acceptUnknown 1)) = true := by decide +kernel
  obtain ⟨n₀, n, hnew, hrun, hend⟩ := exists_of_ends hends
  exact ⟨n₀, n, hnew, hrun.mono fun _ _ h => by simpa using h, by simpa using hend⟩

/-! ## The bytes -/

def Mux.history (m : Mux) (i : StreamID) : List Event :=
  m.log.filter fun w => w.sid m.ids = some i

/-- **Reliable ordered streams of bytes.** What one end has read of a stream is a prefix of what
the other end has written to it, in the order the `Write` calls held `writeMu`. `io.EOF` comes
only after the peer's `Close`, and after every byte of every `Write` the peer has seen succeed. -/
theorem streams_reliable_ordered {left right : Config} {capacity : ℕ} {n₀ n : Net}
    (hnew : new left right capacity = .ok n₀) (hpeers : left.Peers right)
    (hrun : Reachable step (fun n a => n.orderly a = true) n₀ n) (x : Side) (i : StreamID) :
    readBytes ((n.mux x).history i) <+: wroteBytes ((n.mux x.other).history i) ∧
    ∀ h, readEOF h ∈ (n.mux x).history i → (∃ k, closed k ∈ (n.mux x.other).history i) ∧
      ∀ A k p B, (n.mux x.other).history i = A ++ .writeOK k p :: B →
        wroteBytes A <+: readBytes ((n.mux x).history i) := by
  have hp := (Net.Joined.reachable hnew hpeers hrun).pair x i
  refine ⟨hp.read_isPrefix, fun h heof => ?_⟩
  obtain ⟨hclosed, hall⟩ := hp.eof heof rfl
  exact ⟨hclosed, fun A k p B hsplit => hall A _ B hsplit rfl⟩

/-- The left side writes two bytes and closes, the right side reads to the end. -/
def closingRun : List Net.Act :=
  [openingRun, [.mux .left (.write 0 [1, 2])], callSteps .left 3, sendSteps .left 1,
    callSteps .left 2, receiveSteps .right 3, [.mux .left (.close 0)], callSteps .left 2,
    sendSteps .left 1, callSteps .left 2, receiveSteps .right 3, [.mux .right (.read 0 5)],
    [.mux .right (.read 0 5)]].flatten

theorem streams_reliable_closing : ∃ n₀ n, new smallLeft smallRight 4 = .ok n₀ ∧
    Reachable step (fun n a => n.orderly a = true) n₀ n ∧
    readBytes ((n.mux .right).history 1) = [1, 2] ∧
    readBytes ((n.mux .right).history 1) <+: wroteBytes ((n.mux .left).history 1) ∧
    ∃ k, closed k ∈ (n.mux .left).history 1 := by
  have hends : ends step orderly (new smallLeft smallRight 4) closingRun
      (fun n => readBytes ((n.mux .right).history 1) = [1, 2] &&
        readEOF 0 ∈ (n.mux .right).history 1) = true := by decide +kernel
  obtain ⟨n₀, n, hnew, hrun, hend⟩ := exists_of_ends hends
  simp only [Bool.and_eq_true, decide_eq_true_eq] at hend
  obtain ⟨hpre, heof⟩ := streams_reliable_ordered hnew small_peers hrun .right 1
  exact ⟨n₀, n, hnew, hrun, hend.1, hpre, (heof 0 hend.2).1⟩

/-- An initiator whose queue holds four frames, and a responder that serves files only. -/
def shortLeft : Config := { smallLeft with incomingBacklog := 1 }

def filesRight : Config := { smallRight with allowedServices := some fun s => s = serviceFS }

/-- A cancelled `Open` shuts the left mux down while a `Write` of `[1]` waits for room in the
queue. `m.done` is closed and the `Write` gives up; the connection is still open, a `Write` of
`[2]` finds room, and the writer loop sends it. -/
def overtakingRun : List Net.Act :=
  [openingRun, [.mux .left (.openStream serviceFS [])], callSteps .left 1, sendSteps .left 1,
    receiveSteps .right 3, sendSteps .right 1, [.mux .left (.run 0 .cancel)], callSteps .left 3,
    [.mux .left (.openStream serviceTCP [])], callSteps .left 1,
    [.mux .left (.openStream serviceTCP [])], callSteps .left 1,
    [.mux .left (.openStream serviceTCP [])], callSteps .left 1,
    [.mux .left (.write 0 [1])], callSteps .left 2, receiveSteps .left 1,
    [.mux .left (.stop 0), .mux .left (.run 0 .done)], callSteps .left 1,
    [.mux .left (.write 0 [2])], callSteps .left 2, sendSteps .left 1, callSteps .left 1,
    sendSteps .left 4, readerSteps .right 4, receiveSteps .right 4, receiveSteps .right 2,
    receiveSteps .right 2, receiveSteps .right 2, receiveSteps .right 3,
    [.mux .right (.read 0 1)]].flatten

/-- The right side reads the second byte without the first. -/
theorem shutdown_loses_first_write : ∃ n₀ n, new shortLeft filesRight 8 = .ok n₀ ∧
    Reachable step (fun _ a => a ≠ .mux .left .closeMux ∧ a ≠ .mux .right .closeMux) n₀ n ∧
    readBytes ((n.mux .right).history 1) = [2] ∧ wroteBytes ((n.mux .left).history 1) = [1, 2] ∧
    ¬ readBytes ((n.mux .right).history 1) <+: wroteBytes ((n.mux .left).history 1) := by
  have hends : ends step (fun _ a => a ≠ .mux .left .closeMux ∧ a ≠ .mux .right .closeMux)
      (new shortLeft filesRight 8) overtakingRun
      (fun n => readBytes ((n.mux .right).history 1) = [2] &&
        wroteBytes ((n.mux .left).history 1) = [1, 2]) = true := by decide +kernel
  obtain ⟨n₀, n, hnew, hrun, hend⟩ := exists_of_ends hends
  simp only [Bool.and_eq_true, decide_eq_true_eq] at hend
  refine ⟨n₀, n, hnew, hrun.mono fun _ _ h => by simpa using h, hend.1, hend.2, ?_⟩
  rw [hend.1, hend.2]
  decide

end WeaverSSH.SessionMux
