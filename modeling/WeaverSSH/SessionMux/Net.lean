import WeaverSSH.Framework.Transition
import WeaverSSH.SessionMux.Mux

/-!
# Two muxes over one transport

`Net` joins an initiator and a responder by a FIFO of frames in each direction. A transport of
capacity `0` is a rendezvous, as `net.Pipe` is. It is reliable: an end sees an error only after one
of the two muxes has closed its connection.
-/

namespace WeaverSSH.SessionMux

inductive Side
  | left
  | right
  deriving DecidableEq, Repr

def Side.other : Side → Side
  | .left => .right
  | .right => .left

@[simp] lemma Side.other_other (x : Side) : x.other.other = x := by cases x <;> rfl

@[simp] lemma Side.other_ne (x : Side) : x.other ≠ x := by cases x <;> decide

@[simp] lemma Side.ne_other (x : Side) : x ≠ x.other := by cases x <;> decide

lemma Side.eq_other_of_ne {x y : Side} (h : x ≠ y) : x = y.other := by
  cases x <;> cases y <;> first | rfl | exact absurd rfl h

/-- Two muxes, and for each the frames on their way from it to the other. -/
structure Net where
  mux : Side → Mux
  /-- the frames the transport holds, sent by the given side -/
  wire : Side → List Frame := fun _ => []
  capacity : ℕ

namespace Net

/-- The actions of the two muxes that involve no transport, and the transport's own. -/
inductive Act
  | mux (x : Side) (a : Mux.Act)
  /-- the transport takes the frame the writer loop of `x` holds -/
  | transmit (x : Side)
  /-- the reader loop of `x` takes a frame from the transport -/
  | receive (x : Side)
  /-- the writer loop of `x` passes its frame to the peer's reader loop -/
  | handoff (x : Side)
  /-- `ReadFrame` of `x` fails: one of the connections is closed -/
  | readFailed (x : Side)
  /-- `WriteFrame` of `x` fails: one of the connections is closed -/
  | writeFailed (x : Side)
  deriving DecidableEq

/-- The actions a mux takes without its transport. -/
def isLocal : Mux.Act → Bool
  | .readFrame _ | .readFailed | .written | .writeFailed => false
  | _ => true

def setMux (n : Net) (x : Side) (m : Mux) : Net := { n with mux := Function.update n.mux x m }

def setWire (n : Net) (x : Side) (w : List Frame) : Net :=
  { n with wire := Function.update n.wire x w }

def broken (n : Net) : Bool := (n.mux .left).connClosed || (n.mux .right).connClosed

/-- The frame the writer loop of `x` is writing. -/
def writing (n : Net) (x : Side) : Option Frame :=
  match (n.mux x).writer with
  | .writing r => some r.frame
  | _ => none

def step (n : Net) : Act → Option Net
  | .mux x a => if isLocal a then do some (n.setMux x (← (n.mux x).step a)) else none
  | .transmit x => do
      let f ← n.writing x
      let m ← (n.mux x).step .written
      if (n.wire x).length < n.capacity then
        some ((n.setMux x m).setWire x (n.wire x ++ [f]))
      else none
  | .receive x =>
    match n.wire x.other with
    | [] => none
    | f :: rest => do
        let m ← (n.mux x).step (.readFrame f)
        some ((n.setMux x m).setWire x.other rest)
  | .handoff x => do
      let f ← n.writing x
      let m ← (n.mux x).step .written
      let p ← (n.mux x.other).step (.readFrame f)
      if n.capacity = 0 then some ((n.setMux x m).setMux x.other p) else none
  | .readFailed x =>
    if n.broken then do some (n.setMux x (← (n.mux x).step .readFailed)) else none
  | .writeFailed x =>
    if n.broken then do some (n.setMux x (← (n.mux x).step .writeFailed)) else none

/-- The system after `New` on both sides, over a transport of the given capacity. -/
def initial (left right : Mux) (capacity : ℕ) : Net :=
  { mux := fun x => match x with | .left => left | .right => right
    capacity }

end Net

end WeaverSSH.SessionMux
