import WeaverSSH.SessionMux.End

/-!
# The phases of an end

Where the goroutines of one stream can stand, and what each control point says about the stream.
`End.Live` collects it: `writeMu` has exactly the one holder its flag announces, the initial window
is advertised at most once, a stream is in the application's hands only after its window is, and it
leaves the table only when it is closed remotely or was never opened.
-/

namespace WeaverSSH.SessionMux

open List Option Bool Nat SessionMux.Stream

/-! ## Who holds the write mutex, and who still has to advertise the window -/

/-- The sites that hold `writeMu` while their frame is queued and sent. -/
def Site.holds : Site → ℕ
  | .write .. | .close _ | .reset _ => 1
  | _ => 0

/-- The control points that hold `writeMu`. -/
def Call.holds : Call → ℕ
  | .sending _ site => site.holds
  | .writeLoop .. | .writeUnlock _ | .closeUnlock _ | .resetUnlock _ => 1
  | _ => 0

def Site.pre : Site → ℕ
  | .opening _ => 1
  | _ => 0

/-- The control points of `Open` before the initial window is advertised. -/
def Call.pre : Call → ℕ
  | .sending _ site => site.pre
  | .openWait _ | .openMark _ | .openInit _ => 1
  | _ => 0

/-- The control points of `handleOpen` before the initial window is advertised. -/
def Reader.pre : Reader → ℕ
  | .opened _ | .windowInit _ | .sending _ (.accept _) => 1
  | _ => 0

def Site.frameType : Site → FrameType
  | .opening _ => .frameOpen
  | .openWindow _ | .readGrant => .frameWindow
  | .cancel _ | .reset _ => .frameReset
  | .write .. => .frameData
  | .close _ => .frameClose

def ReaderSite.frameType : ReaderSite → FrameType
  | .accept _ => .frameAccept
  | .window _ => .frameWindow
  | .reset _ | .reply | .ignored => .frameReset

/-! ## Sections and flags -/

section

variable {h : Handle} {s s' : Stream} {c : Call} {c' : Option Call} {pick : Mux.Pick}
  {a : Mux.Act} {r r' : Reader} {evs : List Event}

/-- A goroutine takes `writeMu` and gives it back with its own control point, the initial window is
advertised by the one that still has to, and none fires `acceptOne`. -/
lemma CallStep.frame (hstep : CallStep h s c pick s' c' evs) (hs : s.Flow) :
    s.Grows s' ∧ ((c.holds = 1 → s.writeMu = true) →
      (c'.toList.map Call.holds).sum + s.writeMu.toNat = c.holds + s'.writeMu.toNat) ∧
    (c'.toList.map Call.pre).sum + s'.windowAdvertised.toNat ≤ c.pre + s.windowAdvertised.toNat ∧
    (c'.toList.map Call.pre).sum ≤ c.pre ∧
    (s'.windowAdvertised = true → s.windowAdvertised = true ∨ c = .openInit h) ∧
    s'.acceptOne = s.acceptOne ∧ (s'.accepted ≠ none → s.accepted ≠ none) := by
  cases hstep with
  | init hinit =>
    obtain ⟨hadv, -, rfl⟩ := Mux.initialWindowFrame_eq hinit
    refine ⟨by constructor <;> simp, ?_⟩
    simp [Call.holds, Site.holds, Call.pre, Site.pre, hadv]
  | abort =>
    rename_i err
    obtain ⟨t, ht⟩ := remoteClose_some s err
    rw [ht]
    exact ⟨by constructor <;> simp, by simp [Call.holds, Call.pre]⟩
  | writeChunk _ hchunk =>
    obtain ⟨-, -, -, -, -, rfl⟩ := Stream.takeChunk_eq hs hchunk
    exact ⟨by constructor <;> simp, by simp [Call.holds, Site.holds, Call.pre, Site.pre]⟩
  | mark =>
    exact ⟨by constructor <;> simp [Stream.markAccepted],
      by simp [Call.holds, Call.pre, Stream.markAccepted]⟩
  | writeLock hmu | closeLock hmu | resetLock hmu =>
    exact ⟨by constructor <;> simp, by simp [Call.holds, Site.holds, Call.pre, Site.pre, hmu]⟩
  | writeUnlock | closeUnlock | resetUnlock =>
    refine ⟨by constructor <;> simp, fun hmu => by simp [Call.holds, hmu rfl], ?_⟩
    simp [Call.pre]
  | _ => exact ⟨by constructor <;> simp, by simp [Call.holds, Site.holds, Call.pre, Site.pre]⟩

/-- The application neither takes `writeMu` nor touches the handshake. -/
lemma AppStep.frame (hstep : AppStep h a s s' c' evs) (hs : s.Flow) : s.Grows s' ∧
    s'.writeMu = s.writeMu ∧ s'.windowAdvertised = s.windowAdvertised ∧ s'.isOpen = s.isOpen ∧
      s'.accepted = s.accepted ∧ s'.acceptOne = s.acceptOne ∧
      (c'.toList.map Call.holds).sum = 0 ∧ (c'.toList.map Call.pre).sum = 0 := by
  cases hstep with
  | readViolation hread => exact absurd hread (read_ne_violation hs)
  | read hread | readGrant hread =>
    obtain ⟨-, -, ⟨-, -, rfl⟩ | ⟨-, rfl, -⟩⟩ := Stream.read_eq hs hread <;>
      exact ⟨by constructor <;> simp, by simp [Call.holds, Call.pre, Site.holds, Site.pre]⟩
  | _ => exact ⟨by constructor <;> simp, by simp [Call.holds, Call.pre]⟩

/-- The reader loop never takes `writeMu`, it advertises the initial window at one control point
only, and it fires `acceptOne` only with an incoming frame. -/
lemma ReaderStep.frame (hstep : ReaderStep h s r s' r' evs) (hs : s.Flow) :
    s.Grows s' ∧ s'.writeMu = s.writeMu ∧
    r'.pre + s'.windowAdvertised.toNat ≤ r.pre + s.windowAdvertised.toNat ∧ r'.pre ≤ r.pre ∧
    (s'.windowAdvertised = true → s.windowAdvertised = true ∨ r = .windowInit h) ∧
    ((s'.acceptOne = s.acceptOne ∧ s'.accepted = s.accepted) ∨
      (s'.acceptOne = true ∧ ∃ f, Event.handled f ∈ evs)) := by
  cases hstep with
  | accept | windowService | windowPayload | windowRefused | dataRefused | closeService | reset
  | deliverRefused =>
    obtain ⟨x, hx⟩ := signalAccepted_eq s _
    rw [hx]
    exact ⟨by constructor <;> simp, by simp [Reader.pre]⟩
  | resetClose | failClose | openFull | openFail =>
    obtain ⟨t, ht⟩ := remoteClose_some s _
    rw [ht]
    exact ⟨by constructor <;> simp, by simp [Reader.pre]⟩
  | close =>
    rw [Stream.remoteClose_none]
    exact ⟨by constructor <;> simp, by simp [Reader.pre]⟩
  | window _ _ hdec hadd =>
    obtain ⟨-, rfl⟩ | ⟨-, -, -, -, rfl⟩ | ⟨-, -, -, -, rfl⟩ :=
      Stream.addSendCredit_eq hs (decodeWindowCredit_lt hdec).2 hadd <;>
      exact ⟨by constructor <;> simp, by simp [Reader.pre]⟩
  | deliver hdel =>
    obtain ⟨-, rfl⟩ | ⟨-, -, -, -, rfl⟩ := Stream.deliver_eq hs hdel <;>
      exact ⟨by constructor <;> simp, by simp [Reader.pre]⟩
  | init hinit =>
    obtain ⟨hadv, -, rfl⟩ := Mux.initialWindowFrame_eq hinit
    exact ⟨by constructor <;> simp, by simp [Reader.pre, hadv]⟩
  | mark =>
    exact ⟨by constructor <;> simp [Stream.markAccepted], by simp [Reader.pre, Stream.markAccepted]⟩
  | _ => exact ⟨.refl s, by simp [Reader.pre]⟩

end

namespace End

def holds (e : End) : ℕ := (e.calls.map Call.holds).sum + (e.waiting.map Site.holds).sum

def pre (e : End) : ℕ :=
  (e.calls.map Call.pre).sum + (e.waiting.map Site.pre).sum + e.reader.pre

def Never (e : End) (s : Stream) : Prop := e.pre = 0 ∧ s.windowAdvertised = false

def Heard (e : End) : Prop := e.handled ≠ []

/-- Nobody but the reader loop knows the stream. -/
structure Fresh (e : End) : Prop where
  calls : e.calls = []
  waiting : e.waiting = []
  held : e.held = false
  queued : e.queued = false

/-! ## What a control point says -/

/-- What the site of a frame says of its stream. -/
def SiteOK (e : End) (s : Stream) : Site → Prop
  | .opening _ => True
  | .openWindow _ | .write .. | .readGrant => s.windowAdvertised = true
  | .cancel _ => e.Never s ∧ e.Heard
  | .close _ => s.windowAdvertised = true ∧ s.localClosed = true
  | .reset _ => s.windowAdvertised = true ∧ s.localClosed = true ∧ s.remoteClosed = true

/-- What the control point of a goroutine says of its stream. -/
def CallOK (e : End) (s : Stream) : Call → Prop
  | .sending f site => f.type = site.frameType ∧ SiteOK e s site
  | .openWait _ => True
  | .openMark _ => e.Heard
  | .openInit _ => e.Heard ∧ s.isOpen = true
  | .openAbort .. => e.Never s ∧ e.Heard
  | .removing _ => (s.remoteClosed = true ∨ e.Never s) ∧ e.Heard
  | .openReturn _ | .writeLock .. | .writeLoop .. | .writeUnlock _ => s.windowAdvertised = true
  | .closeLock _ | .closeUnlock _ | .closeCheck _ =>
      s.windowAdvertised = true ∧ s.localClosed = true
  | .resetLock _ | .resetUnlock _ =>
      s.windowAdvertised = true ∧ s.localClosed = true ∧ s.remoteClosed = true

/-- What the control point of the reader loop says of the stream it works on. -/
def ReaderOK (e : End) (s : Stream) : Reader → Prop
  | .ready => True
  | .found f _ => Mux.isLookup f.type = true
  | .delivering f _ => f.type = .frameData
  | .closeCheck _ | .resetClose .. | .failClose .. => e.Heard
  | .removing _ => (s.remoteClosed = true ∨ e.Never s) ∧ e.Heard
  | .opened _ | .windowInit _ => e.Fresh ∧ s.isOpen = true ∧ e.Heard
  | .marking _ | .publishing _ => e.Fresh ∧ s.windowAdvertised = true
  | .backlogDrop _ => e.Fresh ∧ s.remoteClosed = true ∧ e.Heard
  | .sending f site => f.type = site.frameType ∧
      match site with
      | .accept _ => e.Fresh ∧ s.isOpen = true ∧ e.Heard
      | .window _ => e.Fresh ∧ s.windowAdvertised = true
      | .reset _ => s.remoteClosed = true ∧ e.Heard
      | .reply | .ignored => e.Heard
  | .handling _ | .openFail .. | .openFailDrop .. | .stopped => False

structure Live (owner : Bool) (l : Limits) (e : End) (s : Stream) : Prop where
  flow : s.Flow
  limits : s.limits = l
  id_ne : s.id ≠ 0
  holds : e.holds = s.writeMu.toNat
  pre : e.pre + s.windowAdvertised.toNat ≤ 1
  isOpen : s.windowAdvertised = true → s.isOpen = true
  returned : e.held = true ∨ e.queued = true → s.windowAdvertised = true
  calls : ∀ c ∈ e.calls, e.CallOK s c
  waiting : ∀ site ∈ e.waiting, e.SiteOK s site
  reader : e.ReaderOK s e.reader
  accepted : s.accepted ≠ none → s.acceptOne = true
  answered : s.acceptOne = true → e.Heard
  advertised : s.windowAdvertised = true → e.Heard
  unlisted : e.listed = false → (s.remoteClosed = true ∨ e.Never s) ∧ e.Heard
  acceptor : owner = false → e.Heard

/-! ## Promises are kept -/

section

variable {owner : Bool} {l : Limits} {e e' : End} {s s' : Stream}

/-- Nothing a control point speaks of has been undone. -/
structure Grows (e : End) (s : Stream) (e' : End) (s' : Stream) : Prop where
  stream : s.Grows s'
  log : e.log <+: e'.log
  pre : e'.pre ≤ e.pre
  advertised : s'.windowAdvertised = true → s.windowAdvertised = true ∨ 0 < e.pre

lemma handled_isPrefix (hlog : e.log <+: e'.log) : e.handled <+: e'.handled := by
  obtain ⟨t, ht⟩ := hlog
  simp only [End.handled, ← ht, handledFrames_append]
  exact prefix_append _ _

lemma Heard.mono (h : e.Heard) (hlog : e.log <+: e'.log) : e'.Heard := by
  obtain ⟨t, ht⟩ := handled_isPrefix hlog
  intro h0
  rw [h0, append_eq_nil_iff] at ht
  exact h ht.1

variable {site : Site} {c : Call} {r : Reader}

section

variable (hg : Grows e s e' s')
include hg

lemma Grows.heard (h : e.Heard) : e'.Heard := h.mono hg.log

lemma Grows.never (h : e.Never s) : e'.Never s' := by
  refine ⟨le_zero.mp (h.1 ▸ hg.pre), ?_⟩
  by_contra hadv
  rcases hg.advertised (by simpa using hadv) with h1 | h1
  · rw [h.2] at h1
    cases h1
  · exact h1.ne' h.1

lemma SiteOK.grows (h : e.SiteOK s site) : e'.SiteOK s' site := by
  cases site with
  | opening => trivial
  | openWindow | write | readGrant => exact hg.stream.advertised h
  | cancel => exact ⟨hg.never h.1, hg.heard h.2⟩
  | close => exact ⟨hg.stream.advertised h.1, hg.stream.localClosed h.2⟩
  | reset =>
    exact ⟨hg.stream.advertised h.1, hg.stream.localClosed h.2.1, hg.stream.remoteClosed h.2.2⟩

lemma Grows.gone (h : (s.remoteClosed = true ∨ e.Never s) ∧ e.Heard) :
    (s'.remoteClosed = true ∨ e'.Never s') ∧ e'.Heard :=
  ⟨h.1.imp hg.stream.remoteClosed hg.never, hg.heard h.2⟩

lemma CallOK.grows (h : e.CallOK s c) : e'.CallOK s' c := by
  cases c with
  | sending f site => exact ⟨h.1, h.2.grows hg⟩
  | openWait => trivial
  | openMark => exact hg.heard h
  | openInit => exact ⟨hg.heard h.1, hg.stream.isOpen h.2⟩
  | openAbort => exact ⟨hg.never h.1, hg.heard h.2⟩
  | removing => exact hg.gone h
  | openReturn | writeLock | writeLoop | writeUnlock => exact hg.stream.advertised h
  | closeLock | closeUnlock | closeCheck =>
    exact ⟨hg.stream.advertised h.1, hg.stream.localClosed h.2⟩
  | resetLock | resetUnlock =>
    exact ⟨hg.stream.advertised h.1, hg.stream.localClosed h.2.1, hg.stream.remoteClosed h.2.2⟩

/-- The reader loop keeps its promise while it stands still. -/
lemma ReaderOK.grows (hf : e.Fresh → e'.Fresh) (h : e.ReaderOK s r) : e'.ReaderOK s' r := by
  cases r with
  | ready => trivial
  | found | delivering => exact h
  | closeCheck | resetClose | failClose => exact hg.heard h
  | removing => exact hg.gone h
  | opened | windowInit => exact ⟨hf h.1, hg.stream.isOpen h.2.1, hg.heard h.2.2⟩
  | marking | publishing => exact ⟨hf h.1, hg.stream.advertised h.2⟩
  | backlogDrop => exact ⟨hf h.1, hg.stream.remoteClosed h.2.1, hg.heard h.2.2⟩
  | sending f site =>
    refine ⟨h.1, ?_⟩
    cases site with
    | accept => exact ⟨hf h.2.1, hg.stream.isOpen h.2.2.1, hg.heard h.2.2.2⟩
    | window => exact ⟨hf h.2.1, hg.stream.advertised h.2.2⟩
    | reset => exact ⟨hg.stream.remoteClosed h.2.1, hg.heard h.2.2⟩
    | reply | ignored => exact hg.heard h.2
  | handling | openFail | openFailDrop | stopped => exact h.elim

end

/-- What a step has to show: its own effects, and the promises of the control points it leads
to. -/
structure Change (e : End) (s : Stream) (e' : End) (s' : Stream) : Prop extends
    Grows e s e' s' where
  section_ : s'.Flow ∧ s.Kept s'
  holds : e'.holds + s.writeMu.toNat = e.holds + s'.writeMu.toNat
  window : e'.pre + s'.windowAdvertised.toNat ≤ e.pre + s.windowAdvertised.toNat
  opens : s'.windowAdvertised = true → s.windowAdvertised = true ∨ s'.isOpen = true ∧ e'.Heard
  returned : e'.held = true ∨ e'.queued = true →
    (e.held = true ∨ e.queued = true) ∨ s'.windowAdvertised = true
  calls : ∀ c ∈ e'.calls, c ∈ e.calls ∨ e'.CallOK s' c
  waiting : ∀ site ∈ e'.waiting, site ∈ e.waiting ∨ e'.SiteOK s' site
  reader : e'.reader = e.reader ∧ (e.Fresh → e'.Fresh) ∨ e'.ReaderOK s' e'.reader
  accepted : s'.accepted ≠ none → s.accepted ≠ none ∨ s'.acceptOne = true
  answered : s'.acceptOne = true → s.acceptOne = true ∨ e'.Heard
  unlisted : e'.listed = false →
    e.listed = false ∨ (s'.remoteClosed = true ∨ e'.Never s') ∧ e'.Heard

lemma Live.change (hl : Live owner l e s) (hc : Change e s e' s') : Live owner l e' s' := by
  have hg := hc.toGrows
  constructor
  case flow => exact hc.section_.1
  case limits => exact hc.section_.2.limits.trans hl.limits
  case id_ne => rw [hc.section_.2.id]; exact hl.id_ne
  case holds => have := hl.holds; have := hc.holds; omega
  case pre => exact hc.window.trans hl.pre
  case isOpen =>
    intro hadv
    rcases hc.opens hadv with h | h
    · exact hg.stream.isOpen (hl.isOpen h)
    · exact h.1
  case returned =>
    intro h
    exact (hc.returned h).elim (fun h => hg.stream.advertised (hl.returned h)) (fun h => h)
  case calls =>
    intro c hcm
    exact (hc.calls c hcm).elim (fun h => (hl.calls c h).grows hg) (fun h => h)
  case waiting =>
    intro w hw
    exact (hc.waiting w hw).elim (fun h => (hl.waiting w h).grows hg) (fun h => h)
  case reader =>
    rcases hc.reader with ⟨heq, hf⟩ | h
    · rw [heq]
      exact hl.reader.grows hg hf
    · exact h
  case accepted =>
    intro h
    exact (hc.accepted h).elim (fun h => hg.stream.acceptOne (hl.accepted h)) (fun h => h)
  case answered =>
    intro h
    exact (hc.answered h).elim (fun h => hg.heard (hl.answered h)) (fun h => h)
  case advertised =>
    intro h
    exact (hc.opens h).elim (fun h => hg.heard (hl.advertised h)) (fun h => h.2)
  case unlisted =>
    intro h
    exact (hc.unlisted h).elim (fun h => hg.gone (hl.unlisted h)) (fun h => h)
  case acceptor => exact fun h => hg.heard (hl.acceptor h)

/-! ## The steps -/

variable {f : Frame}

lemma heard_of_mem (h : Event.handled f ∈ e.log) : e.Heard := by
  intro h0
  have hm : f ∈ e.handled := mem_filterMap.mpr ⟨_, h, rfl⟩
  rw [h0] at hm
  cases hm

variable {h : Handle} {pick : Mux.Pick} {c' : Option Call} {evs : List Event}

/-- What the control point a goroutine comes from says of the one it goes to. -/
lemma CallOK.step (hok : e.CallOK s c) (hl : Live owner l e s)
    (hstep : CallStep h s c pick s' c' evs) (hcancel : pick = .cancel → s.acceptOne = true)
    (hg : Grows e s e' s') (hpre : c.pre = 1 → s.windowAdvertised = false)
    (hnever : c.pre = 1 → (c'.toList.map Call.pre).sum = 0 → s'.windowAdvertised = false →
      e'.Never s') : ∀ c₀ ∈ c', e'.CallOK s' c₀ := by
  intro c₀ hnew
  cases hstep with
  | answered hacc =>
    obtain rfl := some.inj hnew
    exact hg.heard (hl.answered (hl.accepted (by simp [hacc])))
  | refused hacc =>
    obtain rfl := some.inj hnew
    exact ⟨.inr (hnever rfl rfl (hpre rfl)), hg.heard (hl.answered (hl.accepted (by simp [hacc])))⟩
  | cancel =>
    obtain rfl := some.inj hnew
    exact ⟨rfl, hnever rfl rfl (hpre rfl), hg.heard (hl.answered (hcancel rfl))⟩
  | mark =>
    obtain rfl := some.inj hnew
    exact ⟨hg.heard hok, rfl⟩
  | init hinit =>
    obtain rfl := some.inj hnew
    obtain ⟨-, rfl, rfl⟩ := Mux.initialWindowFrame_eq hinit
    exact ⟨rfl, rfl⟩
  | initFailed hfail =>
    obtain ⟨f, t, hinit⟩ := Mux.initialWindowFrame_ok (hpre rfl)
    rw [hinit] at hfail
    cases hfail
  | abort =>
    obtain rfl := some.inj hnew
    rename_i err
    obtain ⟨t, ht⟩ := remoteClose_some s err
    exact ⟨.inl (by rw [ht]), hg.heard hok.2⟩
  | writeChunk _ hchunk =>
    obtain rfl := some.inj hnew
    exact ⟨rfl, hg.stream.advertised hok⟩
  | closeRemove hfull =>
    obtain rfl := some.inj hnew
    simp only [isFullyClosed, and_eq_true] at hfull
    exact ⟨.inl hfull.2, hg.heard (hl.advertised hok.1)⟩
  | resetUnlock =>
    obtain rfl := some.inj hnew
    exact ⟨.inl hok.2.2, hg.heard (hl.advertised hok.1)⟩
  | writeLock | writeFailed | writeDone | closeUnlock =>
    obtain rfl := some.inj hnew
    exact hok
  | closeLock | resetLock =>
    obtain rfl := some.inj hnew
    exact ⟨rfl, hok⟩
  | writeUnlock | closeKept => cases hnew

variable {l₁ l₂ : List Call}

lemma Live.call (hl : Live owner l e s) (hc : e.calls = l₁ ++ c :: l₂)
    (hstep : CallStep h s c pick s' c' evs) (hcancel : pick = .cancel → s.acceptOne = true) :
    Change e s { e with
      stream := some s', calls := l₁ ++ c'.toList ++ l₂, log := e.log ++ evs } s' := by
  have hok : e.CallOK s c := hl.calls c (by simp [hc])
  have hmu : c.holds = 1 → s.writeMu = true := by
    intro h1
    have hh := hl.holds
    by_contra hno
    rw [Bool.not_eq_true] at hno
    simp [End.holds, hc, h1, hno] at hh
  obtain ⟨hgrows, hholds, hwin, hpre, hadv, hone, hacc⟩ := hstep.frame hl.flow
  specialize hholds hmu
  have hepre : c.pre ≤ e.pre := by simp [End.pre, hc]; omega
  have hunadv : c.pre = 1 → s.windowAdvertised = false := by
    intro h1
    have hp := hl.pre
    by_contra hno
    rw [Bool.not_eq_false] at hno
    rw [hno, Bool.toNat_true] at hp
    omega
  have hg : Grows e s { e with
      stream := some s', calls := l₁ ++ c'.toList ++ l₂, log := e.log ++ evs } s' :=
    { stream := hgrows
      log := prefix_append _ _
      pre := by
        simp only [End.pre, hc, map_append, map_cons, List.sum_append, sum_cons]
        omega
      advertised := fun h' => (hadv h').imp_right fun hinit => by
        rw [hinit] at hepre
        exact hepre }
  refine { hg with
    section_ := hstep.flow hl.flow
    holds := ?_, window := ?_, opens := ?_, returned := fun h' => .inl h'
    calls := ?_, waiting := fun w hw => .inl hw
    reader := .inl ⟨rfl, fun hf => by rw [hf.calls] at hc; simp at hc⟩
    accepted := fun h' => .inl (hacc h'), answered := fun h' => .inl (hone ▸ h')
    unlisted := fun h' => .inl h' }
  · simp only [End.holds, hc, map_append, map_cons, List.sum_append, sum_cons]
    omega
  · simp only [End.pre, hc, map_append, map_cons, List.sum_append, sum_cons]
    omega
  · intro hadv'
    rcases hadv hadv' with hold | rfl
    · exact .inl hold
    · exact .inr ⟨hg.stream.isOpen hok.2, hg.heard hok.1⟩
  · intro c₀ hc₀
    refine (mem_replaced hc rfl hc₀).imp_right fun hnew =>
      hok.step hl hstep hcancel hg hunadv ?_ c₀ hnew
    -- a goroutine that leaves the handshake leaves nobody to advertise the window
    intro h1 h0 hadv'
    refine ⟨?_, hadv'⟩
    have hp := hl.pre
    simp only [End.pre, hc, map_append, map_cons, List.sum_append, sum_cons, h1] at hp ⊢
    omega

variable {a : Mux.Act}

lemma Live.app (hl : Live owner l e s) (hheld : e.held = true) (hstep : AppStep h a s s' c' evs) :
    Change e s { e with
      stream := some s', calls := e.calls ++ c'.toList, log := e.log ++ evs } s' := by
  obtain ⟨hgrows, hmu, hadv, hopen, hacc, hone, hholds, hpre⟩ := hstep.frame hl.flow
  have hadvd : s.windowAdvertised = true := hl.returned (.inl hheld)
  refine
    { stream := hgrows
      log := prefix_append _ _
      pre := by simp [End.pre, hpre]
      advertised := fun h' => .inl (hadv ▸ h')
      section_ := hstep.flow hl.flow
      holds := by simp [End.holds, hholds, hmu]
      window := by simp [End.pre, hpre, hadv]
      opens := fun h' => .inl (hadv ▸ h')
      returned := fun h' => .inl h'
      calls := ?_
      waiting := fun w hw => .inl hw
      reader := .inl ⟨rfl, fun hf => by rw [hf.held] at hheld; cases hheld⟩
      accepted := fun h' => .inl (hacc ▸ h')
      answered := fun h' => .inl (hone ▸ h')
      unlisted := fun h' => .inl h' }
  intro c₀ hc₀
  rcases mem_append.mp hc₀ with hold | hnew
  · exact .inl hold
  · right
    rw [mem_toList] at hnew
    cases hstep with
    | readGrant =>
      obtain rfl := some.inj hnew
      exact ⟨rfl, hadv.trans hadvd⟩
    | close =>
      obtain rfl := some.inj hnew
      exact ⟨hadvd, rfl⟩
    | reset =>
      obtain rfl := some.inj hnew
      exact ⟨hadvd, rfl, rfl⟩
    | readNothing | readEOF | readFailed | readViolation | read => cases hnew

variable {r' : Reader}

/-- What the control point the reader loop comes from says of the one it goes to. -/
lemma ReaderOK.step (hok : e.ReaderOK s r)
    (hstep : ReaderStep h s r s' r' evs) (hg : Grows e s e' s') (hfresh : e.Fresh → e'.Fresh)
    (hheard : ∀ f, Event.handled f ∈ evs → e'.Heard)
    (hpre : r.pre = 1 → s.windowAdvertised = false) : e'.ReaderOK s' r' := by
  cases hstep with
  | accept | window | deliver | closeKept => trivial
  | windowService | windowPayload | windowRefused | dataRefused | closeService | close | reset
  | deliverRefused => exact hheard _ mem_cons_self
  | data ht => exact ht
  | closeRemove hfull =>
    simp only [isFullyClosed, and_eq_true] at hfull
    exact ⟨.inl hfull.2, hg.heard hok⟩
  | resetClose =>
    obtain ⟨t, ht⟩ := remoteClose_some s .streamReset
    exact ⟨.inl (by rw [ht]), hg.heard hok⟩
  | failClose =>
    rename_i err
    obtain ⟨t, ht⟩ := remoteClose_some s err
    exact ⟨rfl, by rw [ht], hg.heard hok⟩
  | openFull =>
    obtain ⟨t, ht⟩ := remoteClose_some s .incomingBacklog
    exact ⟨hfresh hok.1, by rw [ht], hg.heard hok.2.2⟩
  | openAccept => exact ⟨rfl, hfresh hok.1, hok.2.1, hg.heard hok.2.2⟩
  | init hinit =>
    obtain ⟨-, rfl, rfl⟩ := Mux.initialWindowFrame_eq hinit
    exact ⟨rfl, hfresh hok.1, rfl⟩
  | initFailed hfail =>
    obtain ⟨f, t, hinit⟩ := Mux.initialWindowFrame_ok (hpre rfl)
    rw [hinit] at hfail
    cases hfail
  | mark => exact ⟨hfresh hok.1, hg.stream.advertised hok.2⟩
  | openFail => exact hok.elim

section

variable (hl : Live owner l e s)
include hl

lemma Live.read (hstep : ReaderStep h s e.reader s' r' evs) :
    Change e s { e with stream := some s', reader := r', log := e.log ++ evs } s' := by
  have hok := hl.reader
  obtain ⟨hgrows, hmu, hwin, hpre, hadv, hshake⟩ := hstep.frame hl.flow
  have hunadv : e.reader.pre = 1 → s.windowAdvertised = false := by
    intro h1
    have hp := hl.pre
    by_contra hno
    rw [not_eq_false] at hno
    simp only [End.pre, h1, hno, Bool.toNat_true] at hp
    omega
  have hg : Grows e s { e with stream := some s', reader := r', log := e.log ++ evs } s' :=
    { stream := hgrows
      log := prefix_append _ _
      pre := by simp only [End.pre]; omega
      advertised := fun h' => (hadv h').imp_right fun hinit => by
        simp only [End.pre, hinit, Reader.pre]
        omega }
  have hheard : ∀ f, Event.handled f ∈ evs →
      End.Heard { e with stream := some s', reader := r', log := e.log ++ evs } :=
    fun f hf => heard_of_mem (f := f) (mem_append_right _ hf)
  refine { hg with
    section_ := hstep.flow hl.flow
    holds := by simp [End.holds, hmu]
    window := by simp only [End.pre]; omega
    opens := ?_, returned := fun h' => .inl h'
    calls := fun c hc => .inl hc, waiting := fun w hw => .inl hw
    reader := .inr ?_, accepted := ?_, answered := ?_, unlisted := fun h' => .inl h' }
  · intro hadv'
    rcases hadv hadv' with hold | hinit
    · exact .inl hold
    · rw [hinit] at hok
      exact .inr ⟨hg.stream.isOpen hok.2.1, hg.heard hok.2.2⟩
  · exact hok.step hstep hg (fun hf => ⟨hf.1, hf.2, hf.3, hf.4⟩) hheard hunadv
  · intro h'
    rcases hshake with ⟨-, hacc⟩ | ⟨hone, -⟩
    · exact .inl (hacc ▸ h')
    · exact .inr hone
  · intro h'
    rcases hshake with ⟨hone, -⟩ | ⟨-, f, hf⟩
    · exact .inl (hone ▸ h')
    · exact .inr (hheard f hf)

lemma Live.still (hlog : e.log <+: e'.log) (hpre : e'.pre ≤ e.pre) (hholds : e'.holds = e.holds)
    (hreturned : e'.held = true ∨ e'.queued = true →
      (e.held = true ∨ e.queued = true) ∨ s.windowAdvertised = true)
    (hcalls : Grows e s e' s → ∀ c ∈ e'.calls, c ∈ e.calls ∨ e'.CallOK s c)
    (hwaiting : Grows e s e' s → ∀ site ∈ e'.waiting, site ∈ e.waiting ∨ e'.SiteOK s site)
    (hreader : e'.reader = e.reader ∧ (e.Fresh → e'.Fresh) ∨ e'.ReaderOK s e'.reader)
    (hunlisted : e'.listed = false →
      e.listed = false ∨ (s.remoteClosed = true ∨ e.Never s) ∧ e.Heard) : Change e s e' s := by
  have hg : Grows e s e' s := { stream := .refl s, log := hlog, pre := hpre, advertised := .inl }
  exact { hg with
    section_ := ⟨hl.flow, .refl s⟩
    holds := by rw [hholds]
    window := Nat.add_le_add_right hpre _
    opens := .inl, returned := hreturned, calls := hcalls hg, waiting := hwaiting hg
    reader := hreader, accepted := .inl, answered := .inl
    unlisted := fun h => (hunlisted h).imp_right hg.gone }

/-- A goroutine queues its frame: it goes on, or waits in the queue with its promise. -/
lemma Live.enqueue (hc : e.calls = l₁ ++ .sending f site :: l₂) : Change e s { e with
      calls := l₁ ++ site.running.toList ++ l₂, waiting := e.waiting ++ site.waits.toList
      log := e.log ++ [.sent f] } s := by
  obtain ⟨-, hok⟩ : e.CallOK s (.sending f site) := hl.calls _ (by simp [hc])
  have hpre : (site.running.toList.map Call.pre).sum + (site.waits.toList.map Site.pre).sum =
      site.pre := by cases site <;> rfl
  have hholds : (site.running.toList.map Call.holds).sum +
      (site.waits.toList.map Site.holds).sum = site.holds := by cases site <;> rfl
  refine hl.still (prefix_append _ _) ?_ ?_ .inl (fun hg c₀ hc₀ => ?_) (fun hg w hw => ?_)
    (.inl ⟨rfl, fun hf => by rw [hf.calls] at hc; simp at hc⟩) .inl
  · simp only [End.pre, hc, map_append, map_cons, List.sum_append, sum_cons, Call.pre]
    omega
  · simp only [End.holds, hc, map_append, map_cons, List.sum_append, sum_cons, Call.holds]
    omega
  · refine (mem_replaced hc rfl hc₀).imp_right fun hnew => ?_
    cases site with
    | cancel =>
      obtain rfl := some.inj hnew
      exact hok.grows hg
    | reset =>
      obtain rfl := some.inj hnew
      exact hok
    | opening | openWindow | write | readGrant | close => cases hnew
  · refine (mem_append.mp hw).imp_right fun hnew => ?_
    rw [mem_toList] at hnew
    unfold Site.waits at hnew
    split at hnew
    · obtain rfl := some.inj hnew
      exact hok.grows hg
    · cases hnew

lemma Live.written {rest : List Site} (hw : e.waiting = site :: rest) :
    Change e s { e with waiting := rest, calls := e.calls ++ site.next.toList } s := by
  have hok : e.SiteOK s site := hl.waiting site (by simp [hw])
  have hpre : (site.next.toList.map Call.pre).sum = site.pre := by cases site <;> rfl
  have hholds : (site.next.toList.map Call.holds).sum = site.holds := by cases site <;> rfl
  refine hl.still (prefix_refl _) ?_ ?_ .inl
    (fun hg c₀ hc₀ => (mem_append.mp hc₀).imp_right fun hnew => ?_)
    (fun _ w hw' => .inl (by rw [hw]; exact mem_cons_of_mem _ hw'))
    (.inl ⟨rfl, fun hf => by rw [hf.waiting] at hw; cases hw⟩) .inl
  · simp only [End.pre, hw, map_append, map_cons, List.sum_append, sum_cons]
    omega
  · simp only [End.holds, hw, map_append, map_cons, List.sum_append, sum_cons]
    omega
  · rw [mem_toList] at hnew
    cases site with
    | readGrant => cases hnew
    | opening =>
      obtain rfl := some.inj hnew
      trivial
    | cancel =>
      obtain rfl := some.inj hnew
      exact hok.grows hg
    | openWindow | write | close | reset =>
      obtain rfl := some.inj hnew
      exact hok

/-- A goroutine leaves, and with it the table entry or the handle it held. -/
lemma Live.leave (hc : e.calls = l₁ ++ c :: l₂) (hpre : c.pre = 0) (hholds : c.holds = 0)
    (hcalls : e'.calls = l₁ ++ l₂) (hwaiting : e'.waiting = e.waiting)
    (hreader : e'.reader = e.reader) (hqueued : e'.queued = e.queued) (hlog : e'.log = e.log)
    (hheld : e'.held = true → e.held = true ∨ s.windowAdvertised = true)
    (hlisted : e'.listed = false → e.listed = false ∨ e.CallOK s (.removing s.id)) :
    Change e s e' s := by
  refine hl.still (hlog ▸ prefix_refl _) ?_ ?_ ?_ (fun _ c hm => .inl ?_)
    (fun _ w hm => .inl (hwaiting ▸ hm))
    (.inl ⟨hreader, fun hf => by rw [hf.calls] at hc; simp at hc⟩) hlisted
  · simp only [End.pre, hc, hcalls, hwaiting, hreader, map_append, map_cons, List.sum_append,
      sum_cons]
    omega
  · simp only [End.holds, hc, hcalls, hwaiting, map_append, map_cons, List.sum_append, sum_cons]
    omega
  · rintro (h | h)
    · exact (hheld h).imp_left .inl
    · exact .inl (.inr (hqueued ▸ h))
  · rw [hcalls] at hm
    rw [hc]
    rcases mem_append.mp hm with h | h <;> simp [h]

/-- The reader loop goes on without touching the stream. -/
lemma Live.pass (hcalls : e'.calls = e.calls)
    (hwaiting : e'.waiting = e.waiting) (hheld : e'.held = e.held) (hlog : e.log <+: e'.log)
    (hpre : e'.reader.pre ≤ e.reader.pre) (hreader : e'.ReaderOK s e'.reader)
    (hqueued : e'.queued = true → e.queued = true ∨ s.windowAdvertised = true)
    (hlisted : e'.listed = false → e.listed = false ∨
      (s.remoteClosed = true ∨ e.Never s) ∧ e.Heard) : Change e s e' s := by
  refine hl.still hlog ?_ (by simp [End.holds, hcalls, hwaiting]) ?_
    (fun _ c hm => .inl (hcalls ▸ hm)) (fun _ w hm => .inl (hwaiting ▸ hm)) (.inr hreader) hlisted
  · simp only [End.pre, hcalls, hwaiting]
    omega
  · exact fun h => h.elim (fun h => .inl (.inl (hheld ▸ h))) (fun h => (hqueued h).imp_left .inr)

lemma Live.start {p : Bytes} (hheld : e.held = true) :
    Change e s { e with calls := e.calls ++ [.writeLock h p] } s := by
  refine hl.still (prefix_refl _) (by simp [End.pre, Call.pre])
    (by simp [End.holds, Call.holds]) .inl
    (fun _ c hc => (mem_append.mp hc).imp_right fun hnew => ?_) (fun _ w hw => .inl hw)
    (.inl ⟨rfl, fun hf => by rw [hf.held] at hheld; cases hheld⟩) .inl
  obtain rfl := mem_singleton.mp hnew
  exact hl.returned (.inl hheld)

/-- **The step lemma.** The end of a stream that exists stays in its phases. -/
lemma Live.step (hs : e.stream = some s)
    (hstep : Step owner l e a e') : ∃ s', e'.stream = some s' ∧ Change e s e' s' := by
  cases hstep with
  | openStream _ hnone | openNew _ _ _ hnone => cases hs.symm.trans hnone
  | accept hq =>
    have hadv := hl.returned (.inr hq)
    exact ⟨s, hs, hl.still (prefix_refl _) le_rfl rfl (fun _ => .inr hadv)
      (fun _ c hc => .inl hc) (fun _ w hw => .inl hw)
      (.inl ⟨rfl, fun hf => by rw [hf.queued] at hq; cases hq⟩) .inl⟩
  | write hheld _ => exact ⟨s, hs, hl.start hheld⟩
  | app hheld hs' happ =>
    obtain rfl : s = _ := some.inj (hs.symm.trans hs')
    exact ⟨_, rfl, hl.app hheld happ⟩
  | call hc hs' hcall hcancel =>
    obtain rfl : s = _ := some.inj (hs.symm.trans hs')
    exact ⟨_, rfl, hl.call hc hcall hcancel⟩
  | enqueue hc => exact ⟨s, hs, hl.enqueue hc⟩
  | written hw => exact ⟨s, hs, hl.written hw⟩
  | openReturn hc =>
    rename_i h
    have hok : e.CallOK s (.openReturn h) := hl.calls _ (by rw [hc]; simp)
    exact ⟨s, hs, hl.leave hc rfl rfl rfl rfl rfl rfl rfl
      (fun _ => .inr hok) .inl⟩
  | remove hc =>
    rename_i id
    have hok : e.CallOK s (.removing id) := hl.calls _ (by rw [hc]; simp)
    exact ⟨s, hs, hl.leave hc rfl rfl rfl rfl rfl rfl rfl .inl (fun _ => .inr hok)⟩
  | reader hs' hread =>
    obtain rfl : s = _ := some.inj (hs.symm.trans hs')
    exact ⟨_, rfl, hl.read hread⟩
  | readerEnqueue hr =>
    rename_i f site
    have hok := hl.reader
    rw [hr] at hok
    refine ⟨s, hs, hl.pass rfl rfl rfl (prefix_append _ _) ?_ ?_ .inl .inl⟩
    · rw [hr]
      cases site <;> simp [ReaderSite.next, Reader.pre]
    · have hheard : e.Heard → End.Heard { e with
          reader := site.next, log := e.log ++ [.sent f] } :=
        fun h => h.mono (prefix_append _ _)
      obtain ⟨-, hok⟩ := hok
      cases site with
      | accept =>
        obtain ⟨⟨h1, h2, h3, h4⟩, hopen, hh⟩ := hok
        exact ⟨⟨h1, h2, h3, h4⟩, hopen, hheard hh⟩
      | window =>
        obtain ⟨⟨h1, h2, h3, h4⟩, hadv⟩ := hok
        exact ⟨⟨h1, h2, h3, h4⟩, hadv⟩
      | reset => exact ⟨.inl hok.1, hheard hok.2⟩
      | reply | ignored => trivial
  | readerRemove hr =>
    have hok := hl.reader
    rw [hr] at hok
    exact ⟨s, hs, hl.pass rfl rfl rfl (prefix_refl _) (zero_le _) trivial .inl
      (fun _ => .inr hok)⟩
  | backlogDrop hr hs' =>
    have hok := hl.reader
    rw [hr] at hok
    exact ⟨s, hs, hl.pass rfl rfl rfl (prefix_refl _) (zero_le _) ⟨rfl, hok.2.2⟩ .inl
      (fun _ => .inr ⟨.inl hok.2.1, hok.2.2⟩)⟩
  | publish hr =>
    have hok := hl.reader
    rw [hr] at hok
    exact ⟨s, hs, hl.pass rfl rfl rfl (prefix_refl _) (zero_le _) trivial
      (fun _ => .inr hok.2) .inl⟩
  | openRefused _ hr =>
    exact ⟨s, hs, hl.pass rfl rfl rfl (prefix_append _ _) (zero_le _)
      ⟨rfl, heard_of_mem (mem_append_right _ mem_cons_self)⟩ .inl .inl⟩
  | lookup hr _ ht =>
    exact ⟨s, hs, hl.pass rfl rfl rfl (prefix_refl _) (zero_le _) ht .inl .inl⟩
  | unknownData hr =>
    exact ⟨s, hs, hl.pass rfl rfl rfl (prefix_append _ _) (zero_le _)
      ⟨rfl, heard_of_mem (mem_append_right _ mem_cons_self)⟩ .inl .inl⟩
  | unknownDrop hr =>
    refine ⟨s, hs, hl.pass rfl rfl rfl (prefix_append _ _) le_rfl ?_ .inl .inl⟩
    rw [hr]
    trivial

end

end

end End

end WeaverSSH.SessionMux
