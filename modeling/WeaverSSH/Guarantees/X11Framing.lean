import WeaverSSH.X11.Server

/-!
# Where an X11 request begins

The server reads a request with `io.ReadFull`, its header and then its data, under a deadline of
thirty seconds. A deadline that strikes is taken for an idle client: what `ReadFull` had read is
gone, and the rest of the request is taken for the beginning of another one (`framing_lost`).

The connection gives a byte at a time, and in between a deadline may strike. The handlers are a
parameter.
-/

namespace WeaverSSH.X11

open List

/-- What a read of the connection meets next. -/
inductive Arrival where
  | byte (b : UInt8)
  | deadline
deriving DecidableEq

/-- `ReadRequest` has read what it asked for: the header, and the data the header announces. -/
def whole (bo : ByteOrder) (read : List UInt8) : Bool :=
  4 ≤ read.length && bo.uint read 2 2 * 4 ≤ read.length

/-- `handleConnection`, within `processRequest`. -/
structure Loop (σ : Type) where
  /-- Nothing once the connection is closed. -/
  state : Option σ
  /-- What `ReadRequest` has read. -/
  read : List UInt8 := []
  processed : List (List UInt8) := []
deriving DecidableEq

section

variable {σ : Type} (bo : ByteOrder) (handle : σ → List UInt8 → Option σ)

def Loop.step (c : Loop σ) : Arrival → Loop σ
  -- `ReadFull` returns the timeout, and the bytes it has read are lost
  | .deadline => { c with read := [] }
  | .byte b =>
    c.state.elim c fun s =>
      let read := c.read ++ [b]
      if whole bo read then ⟨handle s read, [], c.processed ++ [read]⟩ else { c with read }

def serve (s : σ) (arrivals : List Arrival) : Loop σ :=
  arrivals.foldl (Loop.step bo handle) { state := some s }

/-- A deadline strikes only where nothing of a request is read. -/
def Loop.patient (c : Loop σ) : List Arrival → Bool
  | [] => true
  | a :: rest => (a ≠ .deadline || c.read = []) && (c.step bo handle a).patient rest

/-- The requests of a stream, up to the one at which the connection is closed. A request is the
shortest beginning that is whole. -/
inductive Parses : σ → List UInt8 → List (List UInt8) → Prop
  | stop {s : σ} {stream : List UInt8} :
    (∀ p, p <+: stream → whole bo p = false) → Parses s stream []
  | close {s : σ} {stream req rest : List UInt8} : stream = req ++ rest →
    whole bo req = true → (∀ p, p <+: req → p ≠ req → whole bo p = false) →
    handle s req = none → Parses s stream [req]
  | next {s s' : σ} {stream req rest : List UInt8} {reqs : List (List UInt8)} :
    stream = req ++ rest → whole bo req = true → (∀ p, p <+: req → p ≠ req → whole bo p = false) →
    handle s req = some s' → Parses s' rest reqs → Parses s stream (req :: reqs)

end

/-- The bytes among some arrivals. -/
def sent (arrivals : List Arrival) : List UInt8 :=
  arrivals.filterMap fun
    | .byte b => some b
    | .deadline => none

variable {σ : Type} {bo : ByteOrder} {handle : σ → List UInt8 → Option σ}

lemma foldl_closed (stream : List UInt8) (c : Loop σ) (h : c.state = none) :
    (stream.map Arrival.byte).foldl (Loop.step bo handle) c = c := by
  induction stream with
  | nil => rfl
  | cons b stream ih =>
    rw [map_cons, foldl_cons, show c.step bo handle (.byte b) = c by simp [Loop.step, h], ih]

lemma parses_foldl (stream read : List UInt8) (s : σ) (processed : List (List UInt8))
    (hread : ∀ p, p <+: read → whole bo p = false) :
    ∃ reqs, Parses bo handle s (read ++ stream) reqs ∧
      ((stream.map Arrival.byte).foldl (Loop.step bo handle) ⟨some s, read, processed⟩).processed =
        processed ++ reqs := by
  induction stream generalizing read s processed with
  | nil => exact ⟨[], .stop (by simpa using hread), (append_nil _).symm⟩
  | cons b stream ih =>
    have hproper : ∀ p, p <+: read ++ [b] → p ≠ read ++ [b] → whole bo p = false := by
      intro p hp hne
      exact hread p ((prefix_concat_iff.mp hp).resolve_left hne)
    have hstream : read ++ b :: stream = (read ++ [b]) ++ stream := by simp
    simp only [map_cons, foldl_cons, Loop.step, Option.elim_some]
    by_cases hwhole : whole bo (read ++ [b]) = true
    · rw [if_pos hwhole]
      cases hhandle : handle s (read ++ [b]) with
      | none =>
        rw [foldl_closed stream _ rfl]
        exact ⟨_, .close hstream hwhole hproper hhandle, rfl⟩
      | some s' =>
        obtain ⟨reqs, hreqs, heq⟩ := ih [] s' (processed ++ [read ++ [b]]) (by simp [whole])
        exact ⟨_, .next hstream hwhole hproper hhandle hreqs, by rw [heq, append_assoc]; rfl⟩
    · rw [if_neg hwhole, hstream]
      refine ih (read ++ [b]) s processed fun p hp => ?_
      by_cases heq : p = read ++ [b]
      · rw [heq]
        exact Bool.eq_false_iff.mpr hwhole
      · exact hproper p hp heq

lemma foldl_patient (arrivals : List Arrival) (c : Loop σ)
    (h : c.patient bo handle arrivals = true) :
    arrivals.foldl (Loop.step bo handle) c =
      ((sent arrivals).map Arrival.byte).foldl (Loop.step bo handle) c := by
  induction arrivals generalizing c with
  | nil => rfl
  | cons a arrivals ih =>
    simp only [Loop.patient, checks_ok, Bool.or_eq_true] at h
    obtain ⟨hread, hrest⟩ := h
    cases a with
    | byte b => exact ih _ hrest
    | deadline =>
      have hkept : c.step bo handle .deadline = c := by
        obtain ⟨state, read, processed⟩ := c
        obtain rfl : read = [] := hread.resolve_left nofun
        rfl
      rw [foldl_cons, ih _ hrest, hkept]
      rfl

/-- **Requests are framed as the client has sent them** if a deadline strikes only where nothing of
a request is read. -/
theorem requests_in_order (bo : ByteOrder) (handle : σ → List UInt8 → Option σ) (s : σ)
    (arrivals : List Arrival) (h : Loop.patient bo handle { state := some s } arrivals = true) :
    Parses bo handle s (sent arrivals) (serve bo handle s arrivals).processed := by
  obtain ⟨reqs, hreqs, heq⟩ := @parses_foldl _ bo handle (sent arrivals) [] s []
    (by simp [whole])
  rw [serve, foldl_patient _ _ h, heq]
  exact hreqs

/-- Two requests, with a deadline before and one between them. -/
theorem requests_in_order_patient :
    Parses .littleEndian (fun _ _ => some ()) () [98, 0, 1, 0, 98, 7, 2, 0, 1, 2, 3, 4]
      [[98, 0, 1, 0], [98, 7, 2, 0, 1, 2, 3, 4]] := by
  have hpatient : Loop.patient .littleEndian (fun _ _ => some ()) { state := some () }
      (.deadline :: [98, 0, 1, 0].map .byte ++ .deadline :: [98, 7, 2, 0, 1, 2, 3, 4].map .byte) =
      true := by decide
  exact requests_in_order _ _ _ _ hpatient

/-- A deadline strikes when one byte of a request is there: the bytes behind it are taken for a
request that the client has not sent. -/
theorem framing_lost : (serve .littleEndian (fun _ _ => some ()) ()
      (.byte 98 :: .deadline :: [0, 2, 0, 0, 1, 1, 0].map .byte)).processed = [[0, 2, 0, 0]] ∧
      ¬ Parses .littleEndian (fun _ _ => some ()) () [98, 0, 2, 0, 0, 1, 1, 0] [[0, 2, 0, 0]] := by
  refine ⟨by decide, fun h => ?_⟩
  cases h with
  | close hstream | next hstream => simp at hstream

end WeaverSSH.X11
