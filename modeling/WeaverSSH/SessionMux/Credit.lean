import WeaverSSH.SessionMux.Phases

/-!
# The credit accounts of an end

WINDOW frames are payments, DATA frames are purchases. As a sender an end has received `creditSum
handled` and spent `dataBytes outgo`; `sendCredit` is what is left. As a receiver it has paid
`creditSum outgo` and been delivered `dataBytes handled`; `recvCredit` is what the peer may still
spend. `End.Credit` states both balances, which are kept against any peer whose frames are `Honest`.
-/

namespace WeaverSSH.SessionMux

open List Option Reader Call End SessionMux.Frame SessionMux.Stream

/-! ## Sections and counters -/

namespace Stream

def alive (s : Stream) : Prop := s.localClosed = false ∧ s.terminalErr = none

/-- The counters two states of a stream share when a section does not touch them. -/
structure Still (s s' : Stream) : Prop where
  sendCredit : s'.sendCredit = s.sendCredit
  recvCredit : s'.recvCredit = s.recvCredit
  peerWindowSet : s'.peerWindowSet = s.peerWindowSet
  peerWindow : s'.peerWindow = s.peerWindow
  advertised : s'.windowAdvertised = s.windowAdvertised

lemma Still.refl (s : Stream) : Still s s := ⟨rfl, rfl, rfl, rfl, rfl⟩

lemma still_signalAccepted (s : Stream) (e : Option MuxErr) : Still s (s.signalAccepted e) := by
  obtain ⟨x, hx⟩ := signalAccepted_eq s e
  rw [hx]
  exact ⟨rfl, rfl, rfl, rfl, rfl⟩

lemma still_remoteClose (s : Stream) (e : MuxErr) : Still s (s.remoteClose (some e)) := by
  obtain ⟨t, ht⟩ := remoteClose_some s e
  rw [ht]
  exact ⟨rfl, rfl, rfl, rfl, rfl⟩

lemma Grows.remoteOpen {s s' : Stream} (hg : s.Grows s') (h : s'.remoteClosed = false) :
    s.remoteClosed = false := by
  by_contra hno
  rw [hg.remoteClosed (by simpa using hno)] at h
  cases h

lemma Grows.alive {s s' : Stream} (hg : s.Grows s') (h : s'.alive) : s.alive := by
  refine ⟨?_, ?_⟩
  · by_contra hno
    have hclosed := hg.localClosed (by simpa using hno)
    rw [h.1] at hclosed
    cases hclosed
  · by_contra hno
    exact hg.terminal hno h.2

end Stream

/-- A frame that carries neither bytes nor credit, and the service of its stream. -/
structure Frame.Idle (s : Stream) (f : Frame) : Prop where
  data : f.type ≠ .frameData
  window : f.type ≠ .frameWindow
  service : f.type ≠ .frameReset → f.service = s.service

lemma Frame.Idle.of_reset {s : Stream} {f : Frame} (h : f.type = .frameReset) : f.Idle s :=
  ⟨by simp [h], by simp [h], fun hne => absurd h hne⟩

section

variable {h : Handle} {s s' : Stream} {c : Call} {c' : Option Call} {pick : Mux.Pick}
  {a : Mux.Act} {r r' : Reader} {evs : List Event}

/-- A goroutine spends credit for the one chunk it is about to send, advertises the initial
window, or leaves the accounts alone. -/
lemma CallStep.credit (hstep : CallStep h s c pick s' c' evs) (hs : s.Flow) :
    (s.Still s' ∧ ∀ f ∈ c'.bind pending?, f.Idle s) ∨
    (∃ data site, c' = some (.sending (s.dataFrame data) site) ∧ s.alive ∧ data ≠ [] ∧
      data.length ≤ s.sendCredit ∧ data.length ≤ s.limits.maxDataPayload ∧
      s' = { s with sendCredit := s.sendCredit - data.length }) ∨
    (∃ site, c' = some (.sending (s.windowFrame (putUint32 s.limits.initialWindow)) site) ∧
      s.windowAdvertised = false ∧
      s' = { s with windowAdvertised := true, recvCredit := s.limits.initialWindow }) := by
  cases hstep with
  | init hinit =>
    obtain ⟨hadv, rfl, rfl⟩ := Mux.initialWindowFrame_eq hinit
    exact .inr (.inr ⟨_, rfl, hadv, rfl⟩)
  | writeChunk hlt hchunk =>
    rename_i p data total
    have hrest : p.drop total ≠ [] := by simpa using hlt
    obtain ⟨hle, hmax⟩ := takeChunk_length hs hchunk
    have hne := takeChunk_ne_nil hs hrest hchunk
    obtain ⟨-, hloc, hterm, -, -, rfl⟩ := takeChunk_eq hs hchunk
    exact .inr (.inl ⟨_, _, rfl, ⟨hloc, hterm⟩, hne, hle, hmax, rfl⟩)
  | abort => exact .inl ⟨still_remoteClose s _, by simp [pending?]⟩
  | cancel | resetLock =>
    refine .inl ⟨⟨rfl, rfl, rfl, rfl, rfl⟩, ?_⟩
    simp only [bind_some, pending?, mem_def, some.injEq]
    rintro f rfl
    exact .of_reset rfl
  | closeLock =>
    refine .inl ⟨⟨rfl, rfl, rfl, rfl, rfl⟩, ?_⟩
    simp only [bind_some, pending?, mem_def, some.injEq]
    rintro f rfl
    exact ⟨nofun, nofun, fun _ => rfl⟩
  | _ => exact .inl ⟨⟨rfl, rfl, rfl, rfl, rfl⟩, by simp [pending?]⟩

/-- The application returns the credit of what it reads, or leaves the accounts alone. -/
lemma AppStep.credit (hstep : AppStep h a s s' c' evs) (hs : s.Flow) :
    handledFrames evs = [] ∧ sentFrames evs = [] ∧ ((s.Still s' ∧ c'.bind pending? = none) ∨
     (∃ grant, 0 < grant ∧ grant < 2 ^ 32 ∧ s.remoteClosed = false ∧ s.readBuf ≠ [] ∧
       c' = some (.sending (s.windowFrame (putUint32 grant)) .readGrant) ∧
       s'.sendCredit = s.sendCredit ∧ s'.recvCredit = s.recvCredit + grant ∧
       s'.peerWindowSet = s.peerWindowSet ∧ s'.peerWindow = s.peerWindow ∧
       s'.windowAdvertised = s.windowAdvertised)) := by
  cases hstep with
  | readViolation hread => exact absurd hread (read_ne_violation hs)
  | read hread =>
    refine ⟨rfl, rfl, .inl ⟨?_, rfl⟩⟩
    obtain ⟨-, -, ⟨-, -, rfl⟩ | ⟨-, rfl, -⟩⟩ := read_eq hs hread <;>
      exact ⟨rfl, rfl, rfl, rfl, rfl⟩
  | readGrant hread hpos =>
    refine ⟨rfl, rfl, .inr ⟨_, hpos, ?_⟩⟩
    obtain ⟨hne, hout, ⟨-, rfl, -⟩ | ⟨hopen, rfl, hle⟩⟩ := read_eq hs hread
    · omega
    · refine ⟨?_, hopen, hne, rfl, rfl, rfl, rfl, rfl, rfl⟩
      have hlt := hs.recv_lt
      rw [hout, length_take] at hle
      omega
  | _ => exact ⟨rfl, rfl, .inl ⟨⟨rfl, rfl, rfl, rfl, rfl⟩, rfl⟩⟩

/-- The reader loop books an incoming WINDOW or DATA frame, refuses one, advertises the initial
window, or leaves the accounts alone. -/
lemma ReaderStep.credit (hstep : ReaderStep h s r s' r' evs) : sentFrames evs = [] ∧
    ((s.Still s' ∧ (∀ f ∈ r'.pending, f.Idle s) ∧
        ∀ f ∈ handledFrames evs, f.type ≠ .frameData ∧ f.type ≠ .frameWindow) ∨
     (∃ f credit, r = .found f h ∧ f.type = .frameWindow ∧ handledFrames evs = [f] ∧ r' = .ready ∧
        decodeWindowCredit f.payload = .ok credit ∧ s.addSendCredit credit = .ok s') ∨
     (∃ f, r = .delivering f h ∧ handledFrames evs = [f] ∧ r' = .ready ∧
        s.deliver f.payload = .ok s') ∨
     (∃ f, handledFrames evs = [f] ∧ r'.pending = [] ∧ s.Still s' ∧
        ((r = .found f h ∧ f.type = .frameWindow ∧ (s.service ≠ f.service ∨
            ∀ credit s', decodeWindowCredit f.payload = .ok credit →
              s.addSendCredit credit ≠ .ok s')) ∨
         (f.type = .frameData ∧ (s.isOpen = false ∨ s.service ≠ f.service)) ∨
         (r = .delivering f h ∧ ∀ s', s.deliver f.payload ≠ .ok s'))) ∨
     (evs = [] ∧ r'.pending = [s.windowFrame (putUint32 s.limits.initialWindow)] ∧
        s.windowAdvertised = false ∧
        s' = { s with windowAdvertised := true, recvCredit := s.limits.initialWindow })) := by
  cases hstep with
  | accept ht _ =>
    exact ⟨rfl, .inl ⟨still_signalAccepted s _, by simp [pending],
      by simp [ht]⟩⟩
  | reset _ hw hd _ =>
    exact ⟨rfl, .inl ⟨still_signalAccepted s _, by simp [pending],
      by simp [hw, hd]⟩⟩
  | closeService ht _ =>
    exact ⟨rfl, .inl ⟨still_signalAccepted s _, by simp [pending],
      by simp [ht]⟩⟩
  | close ht _ =>
    refine ⟨rfl, .inl ⟨?_, by simp [pending], by simp [ht]⟩⟩
    rw [remoteClose_none]
    exact ⟨rfl, rfl, rfl, rfl, rfl⟩
  | window ht _ hdec hadd => exact ⟨rfl, .inr (.inl ⟨_, _, rfl, ht, rfl, rfl, hdec, hadd⟩)⟩
  | deliver hdel => exact ⟨rfl, .inr (.inr (.inl ⟨_, rfl, rfl, rfl, hdel⟩))⟩
  | windowService ht hsv =>
    exact ⟨rfl, .inr (.inr (.inr (.inl ⟨_, rfl, rfl, still_signalAccepted s _,
      .inl ⟨rfl, ht, .inl hsv⟩⟩)))⟩
  | windowPayload ht hdec =>
    exact ⟨rfl, .inr (.inr (.inr (.inl ⟨_, rfl, rfl, still_signalAccepted s _,
      .inl ⟨rfl, ht, .inr fun c t hok => by rw [hdec] at hok; cases hok⟩⟩)))⟩
  | windowRefused ht hdec hadd =>
    refine ⟨rfl, .inr (.inr (.inr (.inl ⟨_, rfl, rfl, still_signalAccepted s _,
      .inl ⟨rfl, ht, .inr fun c t hok => ?_⟩⟩)))⟩
    rw [hdec] at hok
    obtain rfl := Except.ok.inj hok
    rw [hadd]
    nofun
  | dataRefused ht hwhy =>
    exact ⟨rfl, .inr (.inr (.inr (.inl ⟨_, rfl, rfl, still_signalAccepted s _,
      .inr (.inl ⟨ht, hwhy⟩)⟩)))⟩
  | deliverRefused hdel =>
    exact ⟨rfl, .inr (.inr (.inr (.inl ⟨_, rfl, rfl, still_signalAccepted s _,
      .inr (.inr ⟨rfl, fun t => by rw [hdel]; nofun⟩)⟩)))⟩
  | init hinit =>
    obtain ⟨hadv, rfl, rfl⟩ := Mux.initialWindowFrame_eq hinit
    exact ⟨rfl, .inr (.inr (.inr (.inr ⟨rfl, rfl, hadv, rfl⟩)))⟩
  | resetClose | openFull | openFail =>
    exact ⟨rfl, .inl ⟨still_remoteClose s _, by simp [pending],
      by simp [handledFrames]⟩⟩
  | failClose =>
    refine ⟨rfl, .inl ⟨still_remoteClose s _, ?_, by simp [handledFrames]⟩⟩
    simp only [pending, mem_singleton]
    rintro f rfl
    exact .of_reset rfl
  | openAccept =>
    refine ⟨rfl, .inl ⟨.refl s, ?_, by simp [handledFrames]⟩⟩
    simp only [pending, mem_singleton]
    rintro f rfl
    exact ⟨nofun, nofun, fun _ => rfl⟩
  | mark =>
    exact ⟨rfl, .inl ⟨⟨rfl, rfl, rfl, rfl, rfl⟩, by simp [pending],
      by simp [handledFrames]⟩⟩
  | _ => exact ⟨rfl, .inl ⟨.refl s, by simp [pending], by simp [handledFrames]⟩⟩

lemma CallStep.source (hstep : CallStep h s c pick s' c' evs) :
    c.pending? = none ∧ handledFrames evs = [] ∧ sentFrames evs = [] := by
  cases hstep <;> exact ⟨rfl, rfl, rfl⟩

lemma ReaderStep.source
    (hstep : ReaderStep h s r s' r' evs) : r.pending = [] ∧ ∀ f h, r' ≠ .found f h := by
  cases hstep <;> exact ⟨rfl, nofun⟩

end

/-! ## The balances -/

namespace End

/-- Credit that arrives reaches the stream: the table lists it, or the reader loop has it. -/
def attached (e : End) : Prop := e.listed = true ∨ ∃ f h, e.reader = .found f h

/-- The accounts of the end of a stream whose peer advertises `pw`. -/
structure Credit (l : Limits) (pw : ℕ) (e : End) (s : Stream) : Prop where
  send_le : s.sendCredit + (dataBytes e.outgo).length ≤ creditSum e.handled
  send_eq : s.alive → e.attached → s.sendCredit + (dataBytes e.outgo).length = creditSum e.handled
  unset : s.alive → e.attached → s.peerWindowSet = false → creditSum e.handled = 0
  window : s.peerWindowSet = true → s.peerWindow = pw
  recv_le : creditSum e.outgo ≤ l.initialWindow + (dataBytes e.handled).length
  recv_eq : s.windowAdvertised = true → s.remoteClosed = false →
    s.recvCredit + (dataBytes e.handled).length = creditSum e.outgo
  unadvertised : s.windowAdvertised = false → creditSum e.outgo = 0 ∧ dataBytes e.handled = []
  paid : s.windowAdvertised = true → l.initialWindow ≤ creditSum e.outgo
  /-- before any byte arrived, only the initial window was paid -/
  first : ∀ f ∈ e.outgo, f.type = .frameWindow →
    f.credit = l.initialWindow ∨ dataBytes e.handled ≠ []
  windows : ∀ f ∈ e.outgo, f.type = .frameWindow → ∃ c, decodeWindowCredit f.payload = .ok c
  datas : ∀ f ∈ e.outgo, f.type = .frameData → f.payload ≠ [] ∧ f.payload.length ≤ l.maxDataPayload
  service : ∀ f ∈ e.outgo, f.type ≠ .frameReset → f.service = s.service

/-- What the frame an end handles next may be assumed to be. `dp` is the payload limit the two
ends were configured with. -/
structure Honest (pw dp : ℕ) (e : End) (s : Stream) (f : Frame) : Prop where
  service : f.type ≠ .frameReset → f.service = s.service
  data : f.type = .frameData → f.payload ≠ [] ∧ f.payload.length ≤ dp ∧
    (dataBytes e.handled).length + f.payload.length ≤ creditSum e.outgo
  window : f.type = .frameWindow → ∃ c, decodeWindowCredit f.payload = .ok c ∧
    creditSum e.handled + c ≤ pw + (dataBytes e.outgo).length ∧
    (creditSum e.handled = 0 → dataBytes e.outgo = [] → c = pw)

variable {owner : Bool} {l : Limits} {pw dp : ℕ} {e e' : End} {s s' : Stream}

lemma creditSum_perm {fs gs : List Frame} (h : fs.Perm gs) : creditSum fs = creditSum gs :=
  (h.map _).sum_eq

lemma length_dataBytes_perm {fs gs : List Frame} (h : fs.Perm gs) :
    (dataBytes fs).length = (dataBytes gs).length := (h.flatMap_right _).length_eq

/-- What the accounts say of one frame, where the bytes `got` have arrived. -/
structure Billed (l : Limits) (got : Bytes) (s : Stream) (f : Frame) : Prop where
  first : f.type = .frameWindow → f.credit = l.initialWindow ∨ got ≠ []
  window : f.type = .frameWindow → ∃ c, decodeWindowCredit f.payload = .ok c
  data : f.type = .frameData → f.payload ≠ [] ∧ f.payload.length ≤ l.maxDataPayload
  service : f.type ≠ .frameReset → f.service = s.service

variable {k : List Frame} {f : Frame} {credit : ℕ}

section

variable (hc : Credit l pw e s)
include hc

section

variable (hout : e'.outgo.Perm (e.outgo ++ k))
include hout

lemma Credit.of_added (hnew : ∀ f ∈ k, Billed l (dataBytes e'.handled) s f)
    (hgot : dataBytes e'.handled = [] → dataBytes e.handled = []) (hsv : s'.service = s.service)
    (hsend : s'.sendCredit + (dataBytes e'.outgo).length ≤ creditSum e'.handled)
    (halive : s'.alive → e'.attached →
      s'.sendCredit + (dataBytes e'.outgo).length = creditSum e'.handled ∧
        (s'.peerWindowSet = false → creditSum e'.handled = 0))
    (hwindow : s'.peerWindowSet = true → s'.peerWindow = pw)
    (hrecv : creditSum e'.outgo ≤ l.initialWindow + (dataBytes e'.handled).length)
    (hadv : s'.windowAdvertised = true → l.initialWindow ≤ creditSum e'.outgo ∧
      (s'.remoteClosed = false →
        s'.recvCredit + (dataBytes e'.handled).length = creditSum e'.outgo))
    (hunadv : s'.windowAdvertised = false →
      creditSum e'.outgo = 0 ∧ dataBytes e'.handled = []) : Credit l pw e' s' := by
  have hall : ∀ f ∈ e'.outgo, Billed l (dataBytes e'.handled) s f := by
    intro f hf
    rcases mem_append.mp (hout.mem_iff.mp hf) with hold | hadded
    · exact ⟨fun ht => (hc.first f hold ht).imp_right (mt hgot), hc.windows f hold,
        hc.datas f hold, hc.service f hold⟩
    · exact hnew f hadded
  exact ⟨hsend, fun ha hatt => (halive ha hatt).1, fun ha hatt => (halive ha hatt).2, hwindow,
    hrecv, fun h => (hadv h).2, hunadv, fun h => (hadv h).1, fun f hf => (hall f hf).first,
    fun f hf => (hall f hf).window, fun f hf => (hall f hf).data,
    fun f hf ht => ((hall f hf).service ht).trans hsv.symm⟩

section

variable (hnew : ∀ f ∈ k, f.Idle s) {g : List Frame}
include hnew

/-- A step that moves neither bytes nor credit, or moves them where they no longer count. -/
lemma Credit.quiet (hin : e'.handled = e.handled ++ g)
    (hcredit : s'.alive → e'.attached → creditSum g = 0)
    (hdata : s'.windowAdvertised = false ∨ s'.remoteClosed = false → dataBytes g = [])
    (hstill : s.Still s') (hg : s.Grows s') (hsv : s'.service = s.service)
    (hlisted : e'.attached → e.attached) : Credit l pw e' s' := by
  have hnewC : creditSum k = 0 := creditSum_eq_zero fun f hf => (hnew f hf).window
  have hnewD : dataBytes k = [] := dataBytes_eq_nil fun f hf => (hnew f hf).data
  have hC : creditSum e'.outgo = creditSum e.outgo := by
    rw [creditSum_perm hout, creditSum_append, hnewC, add_zero]
  have hD : (dataBytes e'.outgo).length = (dataBytes e.outgo).length := by
    rw [length_dataBytes_perm hout, dataBytes_append, hnewD, append_nil]
  refine hc.of_added hout ?_ ?_ hsv ?_ ?_ ?_ ?_ ?_ ?_
  · intro f hf
    exact ⟨fun ht => absurd ht (hnew f hf).window, fun ht => absurd ht (hnew f hf).window,
      fun ht => absurd ht (hnew f hf).data, (hnew f hf).service⟩
  · rw [hin, dataBytes_append]
    exact fun h0 => (append_eq_nil_iff.mp h0).1
  · rw [hstill.sendCredit, hD, hin, creditSum_append]
    exact hc.send_le.trans (Nat.le_add_right _ _)
  · intro ha hlst
    rw [hstill.sendCredit, hD, hin, creditSum_append, hcredit ha hlst, add_zero,
      hstill.peerWindowSet]
    exact ⟨hc.send_eq (hg.alive ha) (hlisted hlst), hc.unset (hg.alive ha) (hlisted hlst)⟩
  · rw [hstill.peerWindow, hstill.peerWindowSet]
    exact hc.window
  · rw [hC, hin, dataBytes_append, length_append]
    exact hc.recv_le.trans (by omega)
  · intro hadv
    rw [hstill.advertised] at hadv
    refine ⟨hC ▸ hc.paid hadv, fun hopen => ?_⟩
    rw [hC, hin, dataBytes_append, hdata (.inr hopen), append_nil, hstill.recvCredit]
    exact hc.recv_eq hadv (hg.remoteOpen hopen)
  · intro hadv
    rw [hC, hin, dataBytes_append, hdata (.inl hadv), append_nil]
    exact hc.unadvertised (hstill.advertised ▸ hadv)

lemma Credit.same
    (hin : e'.handled = e.handled ++ g) (hcredit : s.alive → e'.attached → creditSum g = 0)
    (hdata : s.windowAdvertised = false ∨ s.remoteClosed = false → dataBytes g = [])
    (hlisted : e'.attached → e.attached) : Credit l pw e' s :=
  hc.quiet hout hnew hin hcredit hdata (.refl s) (.refl s) rfl hlisted

lemma Credit.idle (hin : e'.handled = e.handled) (hlisted : e'.attached → e.attached) :
    Credit l pw e' s :=
  hc.same (g := []) hout hnew (hin.trans (append_nil _).symm) (by simp) (by simp) hlisted

end

end

lemma Credit.spend {data : Bytes} (hlim : s.limits = l)
    (hout : e'.outgo.Perm (e.outgo ++ [s.dataFrame data])) (hin : e'.handled = e.handled)
    (hne : data ≠ []) (hle : data.length ≤ s.sendCredit)
    (hmax : data.length ≤ s.limits.maxDataPayload) (hlisted : e'.attached → e.attached) :
    Credit l pw e' { s with sendCredit := s.sendCredit - data.length } := by
  have hC : creditSum e'.outgo = creditSum e.outgo := by
    rw [creditSum_perm hout, creditSum_append]
    exact rfl
  have hD : (dataBytes e'.outgo).length = (dataBytes e.outgo).length + data.length := by
    rw [length_dataBytes_perm hout, dataBytes_append, length_append]
    simp [Frame.data, Stream.dataFrame]
  have hsend := hc.send_le
  refine hc.of_added hout ?_ (hin ▸ fun h0 => h0) rfl ?_ ?_ hc.window ?_ ?_ ?_
  · intro f hf
    obtain rfl := mem_singleton.mp hf
    exact ⟨nofun, nofun, fun _ => ⟨hne, hlim ▸ hmax⟩, fun _ => rfl⟩
  · rw [hD, hin]
    simp only
    omega
  · intro ha hlst
    have heq := hc.send_eq ha (hlisted hlst)
    rw [hD, hin]
    refine ⟨?_, hc.unset ha (hlisted hlst)⟩
    simp only
    omega
  · rw [hC, hin]
    exact hc.recv_le
  · rw [hC, hin]
    exact fun hadv => ⟨hc.paid hadv, hc.recv_eq hadv⟩
  · rw [hC, hin]
    exact hc.unadvertised

lemma Credit.pay (hpos : 0 < credit) (hlt : credit < 2 ^ 32)
    (hout : e'.outgo.Perm (e.outgo ++ [s.windowFrame (putUint32 credit)]))
    (hin : e'.handled = e.handled) (hlisted : e'.attached → e.attached)
    (hsend : s'.sendCredit = s.sendCredit) (hset : s'.peerWindowSet = s.peerWindowSet)
    (hpeer : s'.peerWindow = s.peerWindow) (hsv : s'.service = s.service)
    (halive : s'.alive → s.alive) (hadv : s'.windowAdvertised = true)
    (hpaid : l.initialWindow ≤ creditSum e.outgo + credit)
    (hle : creditSum e.outgo + credit ≤ l.initialWindow + (dataBytes e.handled).length)
    (heq : s'.remoteClosed = false →
      s'.recvCredit + (dataBytes e.handled).length = creditSum e.outgo + credit)
    (hfirst : credit = l.initialWindow ∨ dataBytes e.handled ≠ []) : Credit l pw e' s' := by
  have hdec := decodeWindowCredit_putUint32 hpos hlt
  have hcr : (s.windowFrame (putUint32 credit)).credit = credit := credit_of_eq rfl hdec
  have hC : creditSum e'.outgo = creditSum e.outgo + credit := by
    rw [creditSum_perm hout, creditSum_append, creditSum_cons, creditSum_nil, hcr]
    rfl
  have hD : (dataBytes e'.outgo).length = (dataBytes e.outgo).length := by
    rw [length_dataBytes_perm hout, dataBytes_append, length_append]
    exact rfl
  refine hc.of_added hout ?_ (hin ▸ fun h0 => h0) hsv ?_ ?_ ?_ ?_ ?_ ?_
  · intro f hf
    obtain rfl := mem_singleton.mp hf
    rw [hin]
    exact ⟨fun _ => hcr.symm ▸ hfirst, fun _ => ⟨credit, hdec⟩, nofun, fun _ => rfl⟩
  · rw [hsend, hD, hin]
    exact hc.send_le
  · intro ha hlst
    rw [hsend, hD, hin, hset]
    exact ⟨hc.send_eq (halive ha) (hlisted hlst), hc.unset (halive ha) (hlisted hlst)⟩
  · rw [hpeer, hset]
    exact hc.window
  · rw [hC, hin]
    exact hle
  · rw [hC, hin]
    exact fun _ => ⟨hpaid, heq⟩
  · intro h0
    rw [hadv] at h0
    cases h0

end

/-! ## Incoming frames -/

section

variable (hc : Credit l pw e s) (hl : Live owner l e s)
include hc hl

/-- Credit that arrives is booked while the write direction is open. -/
lemma Credit.book (ht : f.type = .frameWindow) (hdec : decodeWindowCredit f.payload = .ok credit)
    (hadd : s.addSendCredit credit = .ok s') (hh : Honest pw dp e s f) (hatt : e.attached)
    (hatt' : e'.attached → e.attached)
    (hout : e'.outgo.Perm e.outgo) (hin : e'.handled = e.handled ++ [f]) : Credit l pw e' s' := by
  have hfc : f.credit = credit := credit_of_eq ht hdec
  have hfd : f.data = [] := data_of_ne (by rw [ht]; nofun)
  have hlt := (decodeWindowCredit_lt hdec).2
  have hC : creditSum e'.outgo = creditSum e.outgo := creditSum_perm hout
  have hD := length_dataBytes_perm hout
  have hinC : creditSum e'.handled = creditSum e.handled + credit := by simp [hin, hfc]
  have hinD : dataBytes e'.handled = dataBytes e.handled := by simp [hin, hfd]
  have hout' : e'.outgo.Perm (e.outgo ++ []) := by simpa using hout
  have hsend := hc.send_le
  rcases addSendCredit_eq hl.flow hlt hadd with
    ⟨hdead, rfl⟩ | ⟨hloc, hterm, hset, -, rfl⟩ | ⟨hloc, hterm, hset, -, rfl⟩
  · refine hc.quiet (g := [f]) hout' (by simp) hin ?_ ?_ (.refl _) (.refl _) rfl hatt'
    · rintro ⟨hloc, hterm⟩
      simp [hloc, hterm] at hdead
    · intro _
      simp [hfd]
  · have hzero := hc.unset ⟨hloc, hterm⟩ hatt hset
    have hnil : dataBytes e.outgo = [] := length_eq_zero_iff.mp (by omega)
    obtain ⟨c, hdec', -, hfirst⟩ := hh.window ht
    obtain rfl : credit = c := Except.ok.inj (hdec.symm.trans hdec')
    refine hc.of_added hout' (by simp) (hinD ▸ fun h0 => h0) rfl ?_ (fun _ _ => ?_)
      (fun _ => hfirst hzero hnil) ?_ ?_ ?_
    · simp [hD, hinC, hnil]
    · simp [hD, hinC, hnil, hzero]
    · exact hC ▸ hinD ▸ hc.recv_le
    · exact hC ▸ hinD ▸ fun hadv => ⟨hc.paid hadv, hc.recv_eq hadv⟩
    · exact hC ▸ hinD ▸ hc.unadvertised
  · have heq := hc.send_eq ⟨hloc, hterm⟩ hatt
    refine hc.of_added hout' (by simp) (hinD ▸ fun h0 => h0) rfl ?_ (fun _ _ =>
      ⟨?_, by simp [hset]⟩)
      hc.window ?_ ?_ ?_
    · simp only
      omega
    · simp only
      omega
    · exact hC ▸ hinD ▸ hc.recv_le
    · exact hC ▸ hinD ▸ fun hadv => ⟨hc.paid hadv, hc.recv_eq hadv⟩
    · exact hC ▸ hinD ▸ hc.unadvertised

lemma Credit.addSendCredit_ok (hpw : pw ≤ maxInitialWindow) (ht : f.type = .frameWindow)
    (hh : Honest pw dp e s f) (hatt : e.attached) :
    ∃ credit s', decodeWindowCredit f.payload = .ok credit ∧ s.addSendCredit credit = .ok s' := by
  obtain ⟨credit, hdec, hle, hfirst⟩ := hh.window ht
  have hlt : s.sendCredit + credit < 2 ^ 64 := by
    have := hl.flow.send_lt
    have := (decodeWindowCredit_lt hdec).2
    omega
  refine ⟨credit, ?_⟩
  unfold addSendCredit
  rw [u64_of_lt hlt]
  split
  · exact ⟨s, hdec, rfl⟩
  rename_i hlive
  push Not at hlive
  have halive : s.alive := ⟨by simpa using hlive.1, by simpa using hlive.2⟩
  have heq := hc.send_eq halive hatt
  split
  · rename_i hset
    have hzero := hc.unset halive hatt (by simpa using hset)
    have hnil : dataBytes e.outgo = [] := length_eq_zero_iff.mp (by omega)
    have hcr := hfirst hzero hnil
    rw [if_neg (by omega)]
    exact ⟨_, hdec, rfl⟩
  · rename_i hset
    have hwin := hc.window (by simpa using hset)
    rw [if_neg (by omega)]
    exact ⟨_, hdec, rfl⟩

omit hl in
lemma Credit.advertised (ht : f.type = .frameData)
    (hh : Honest pw dp e s f) : s.windowAdvertised = true := by
  obtain ⟨hne, -, hle⟩ := hh.data ht
  by_contra hno
  have hzero := (hc.unadvertised (by simpa using hno)).1
  have hpos : 0 < f.payload.length := length_pos_iff.mpr hne
  omega

lemma Credit.deliver_ok (hdp : l.maxDataPayload = min dp l.initialWindow) (ht : f.type = .frameData)
    (hh : Honest pw dp e s f) (hopen : s.remoteClosed = false) :
    ∃ s', s.deliver f.payload = .ok s' := by
  have hadv := hc.advertised ht hh
  obtain ⟨hne, hlen, hle⟩ := hh.data ht
  have hpos : 0 < f.payload.length := length_pos_iff.mpr hne
  have hrecv := hc.recv_eq hadv hopen
  have hflow := hl.flow.recv_eq hadv hopen
  have hlt := hl.flow.recv_lt
  have hlim := hl.limits
  unfold deliver
  rw [u32_of_lt (by omega), u64_of_lt (by omega), if_neg (by omega), if_neg, if_neg, if_neg,
    if_neg, if_neg]
  · exact ⟨_, rfl⟩
  · omega
  · omega
  · simp [hadv]
  · simp [hopen]
  · rw [hlim, hdp]
    rw [hlim] at hflow
    omega

lemma Credit.deliver
    (ht : f.type = .frameData) (hh : Honest pw dp e s f) (hdel : s.deliver f.payload = .ok s')
    (hatt' : e'.attached → e.attached) (hout : e'.outgo.Perm e.outgo)
    (hin : e'.handled = e.handled ++ [f]) : Credit l pw e' s' := by
  have hfc : f.credit = 0 := credit_of_ne (by rw [ht]; nofun)
  have hC : creditSum e'.outgo = creditSum e.outgo := creditSum_perm hout
  have hD := length_dataBytes_perm hout
  have hinC : creditSum e'.handled = creditSum e.handled := by simp [hin, hfc]
  have hinD : dataBytes e'.handled = dataBytes e.handled ++ f.payload := by
    simp [hin, data_of_eq ht]
  obtain ⟨hnil, -⟩ | ⟨hne, hopen, hadv, hle, rfl⟩ := deliver_eq hl.flow hdel
  · exact absurd hnil (hh.data ht).1
  have heq := hc.recv_eq hadv hopen
  have hrecv := hc.recv_le
  refine hc.of_added (k := []) (by simpa using hout) (by simp) ?_ rfl ?_ ?_ hc.window ?_ ?_ ?_
  · simp [hinD, hne]
  · exact hD ▸ hinC ▸ hc.send_le
  · exact fun ha hatt => hD ▸ hinC ▸ ⟨hc.send_eq ha (hatt' hatt), hc.unset ha (hatt' hatt)⟩
  · rw [hC, hinD, length_append]
    omega
  · rw [hC, hinD, length_append]
    refine fun _ => ⟨hc.paid hadv, fun _ => ?_⟩
    simp only
    omega
  · simp [hadv]

end

/-! ## The steps -/

variable {d : End}

lemma attached_of_eq (hlst : d.listed = e.listed) (hr : ∀ f h, d.reader ≠ .found f h) :
    d.attached → e.attached := by
  rintro (h | ⟨f, h, h'⟩)
  · exact .inl (hlst ▸ h)
  · exact absurd h' (hr f h)

lemma filterMap_toList (k : Option Call) :
    k.toList.filterMap pending? = (k.bind pending?).toList := by
  cases k with
  | none => rfl
  | some k => cases h : k.pending? <;> simp [h]

variable {l₁ l₂ : List Call} {c : Call}

lemma outgo_call {k : Option Call} (hc : e.calls = l₁ ++ c :: l₂) (hcp : c.pending? = none)
    (hc' : d.calls = l₁ ++ k.toList ++ l₂) (hsent : d.sent = e.sent) (hr : d.reader = e.reader) :
    d.outgo.Perm (e.outgo ++ (k.bind pending?).toList) := by
  simp only [outgo, hc, hc', hsent, hr, filterMap_append, filterMap_cons, hcp, filterMap_toList]
  rw [← Multiset.coe_eq_coe]
  simp only [← Multiset.coe_add]
  abel

lemma outgo_add {k : Option Call} (hc' : d.calls = e.calls ++ k.toList)
    (hsent : d.sent = e.sent) (hr : d.reader = e.reader) :
    d.outgo.Perm (e.outgo ++ (k.bind pending?).toList) := by
  simp only [outgo, hc', hsent, hr, filterMap_append, filterMap_toList]
  rw [← Multiset.coe_eq_coe]
  simp only [← Multiset.coe_add]
  abel

lemma outgo_reader (hc : d.calls = e.calls) (hsent : d.sent = e.sent)
    (hr : e.reader.pending = []) : d.outgo = e.outgo ++ d.reader.pending := by
  simp [outgo, hc, hsent, hr]

lemma outgo_enqueue {site : Site} (hc : e.calls = l₁ ++ .sending f site :: l₂)
    (hc' : e'.calls = l₁ ++ site.running.toList ++ l₂) (hsent : e'.sent = e.sent ++ [f])
    (hr : e'.reader = e.reader) : e'.outgo.Perm e.outgo := by
  have hnew : site.running.toList.filterMap pending? = [] := by cases site <;> rfl
  simp only [outgo, hc, hc', hsent, hr, filterMap_append, filterMap_cons, hnew, pending?]
  rw [← Multiset.coe_eq_coe]
  simp only [← Multiset.coe_add, ← Multiset.cons_coe, ← Multiset.singleton_add]
  rw [Multiset.coe_nil, ← Multiset.coe_singleton]
  abel

lemma outgo_readerEnqueue {site : ReaderSite} (hr : e.reader = .sending f site)
    (hr' : d.reader.pending = []) (hc : d.calls = e.calls) (hsent : d.sent = e.sent ++ [f]) :
    d.outgo.Perm e.outgo := by
  have hold : e.reader.pending = [f] := by rw [hr]; rfl
  simp only [outgo, hr', hc, hsent, hold, append_nil, append_assoc]
  exact List.Perm.append_left _ perm_append_comm

section

variable (hc : Credit l pw e s) (hl : Live owner l e s) {h : Handle} {c' : Option Call}
  {evs : List Event}
include hc hl

lemma Credit.call {pick : Mux.Pick}
    (hcalls : e.calls = l₁ ++ c :: l₂) (hstep : CallStep h s c pick s' c' evs) :
    Credit l pw { e with
      stream := some s', calls := l₁ ++ c'.toList ++ l₂, log := e.log ++ evs } s' := by
  obtain ⟨hcp, hhand, hsent⟩ := hstep.source
  have hsent' : (sentFrames (e.log ++ evs)) = e.sent := by simp [sent, hsent]
  have hin : handledFrames (e.log ++ evs) = e.handled := by simp [handled, hhand]
  have hout := outgo_call (d := { e with
    stream := some s', calls := l₁ ++ c'.toList ++ l₂, log := e.log ++ evs })
    hcalls hcp rfl hsent' rfl
  have hkept := (hstep.flow hl.flow).2
  rcases hstep.credit hl.flow with ⟨hstill, hnew⟩ | ⟨data, site, rfl, -, hne, hle, hmax, rfl⟩ |
    ⟨site, rfl, hadv, rfl⟩
  · exact hc.quiet (g := []) hout (fun f hf => hnew f (mem_toList.mp hf))
      (hin.trans (append_nil _).symm) (by simp) (by simp) hstill (hstep.frame hl.flow).1
      hkept.service (fun h' => h')
  · exact hc.spend hl.limits hout hin hne hle hmax (fun h' => h')
  · obtain ⟨hpaid, hgot⟩ := hc.unadvertised hadv
    refine hc.pay (hl.limits ▸ s.limits.window_pos) (hl.limits ▸ s.limits.window_lt)
      (hl.limits ▸ hout) hin (fun h' => h') rfl rfl rfl rfl (fun h' => h') rfl ?_ ?_ ?_ (.inl rfl)
    · omega
    · omega
    · intro _
      rw [hl.limits, hgot]
      simp [hpaid]

variable {a : Mux.Act}

lemma Credit.app (hheld : e.held = true) (hstep : AppStep h a s s' c' evs) : Credit l pw { e with
      stream := some s', calls := e.calls ++ c'.toList, log := e.log ++ evs } s' := by
  obtain ⟨hhand, hsent, hcredit⟩ := hstep.credit hl.flow
  have hsent' : (sentFrames (e.log ++ evs)) = e.sent := by simp [sent, hsent]
  have hin : handledFrames (e.log ++ evs) = e.handled := by simp [handled, hhand]
  have hout := outgo_add (d := { e with
    stream := some s', calls := e.calls ++ c'.toList, log := e.log ++ evs }) rfl hsent' rfl
  have hkept := (hstep.flow hl.flow).2
  have hg := (hstep.frame hl.flow).1
  rcases hcredit with ⟨hstill, hnone⟩ |
    ⟨grant, hpos, hlt, hopen, hne, rfl, hsd, hrc, hset, hpw, hadv⟩
  · rw [hnone] at hout
    exact hc.quiet (k := []) (g := []) hout (by simp) (hin.trans (append_nil _).symm)
      (by simp) (by simp) hstill hg hkept.service (fun h' => h')
  · have hadvd := hl.returned (.inl hheld)
    have heq := hc.recv_eq hadvd hopen
    have hpaid := hc.paid hadvd
    have hrecv := (hstep.flow hl.flow).1.recv_le
    rw [hkept.limits, hl.limits, hrc] at hrecv
    refine hc.pay hpos hlt hout hin (fun h' => h') hsd hset hpw hkept.service hg.alive
      (hadv.trans hadvd) (by omega) (by omega) (fun _ => by omega) (.inr ?_)
    -- the bytes read were delivered, so some byte has arrived
    intro h0
    have hflow := hl.flow.recv_eq hadvd hopen
    have hlen : 0 < s.readBuf.length := length_pos_iff.mpr hne
    rw [h0, length_nil] at heq
    rw [hl.limits] at hflow
    omega

lemma Credit.read (hpw : pw ≤ maxInitialWindow)
    (hdp : l.maxDataPayload = min dp l.initialWindow) {r' : Reader}
    (hstep : ReaderStep h s e.reader s' r' evs)
    (hh : ∀ f, handledFrames evs = [f] → Honest pw dp e s f) :
    Credit l pw { e with stream := some s', reader := r', log := e.log ++ evs } s' := by
  obtain ⟨hrp, hnf⟩ := hstep.source
  obtain ⟨hsent, hcredit⟩ := hstep.credit
  have hsent' : (sentFrames (e.log ++ evs)) = e.sent := by simp [sent, hsent]
  have hin : handledFrames (e.log ++ evs) = e.handled ++ handledFrames evs := by
    simp [handled]
  have hout := outgo_reader (e := e) (d := { e with
    stream := some s', reader := r', log := e.log ++ evs }) rfl hsent' hrp
  have hatt := attached_of_eq (e := e) (d := { e with
    stream := some s', reader := r', log := e.log ++ evs }) rfl hnf
  have hkept := (hstep.flow hl.flow).2
  have hg := (hstep.frame hl.flow).1
  have hreader := hl.reader
  rcases hcredit with ⟨hstill, hnew, hgot⟩ | ⟨f, credit, hr, ht, hf, rfl, hdec, hadd⟩ |
    ⟨f, hr, hf, rfl, hdel⟩ | ⟨f, hf, hp, hstill, hwhy⟩ | ⟨rfl, hp, hadv, rfl⟩
  · exact hc.quiet (.of_eq hout) hnew hin
      (fun _ _ => creditSum_eq_zero fun f hf => (hgot f hf).2)
      (fun _ => dataBytes_eq_nil fun f hf => (hgot f hf).1) hstill hg hkept.service hatt
  · refine hc.book hl ht hdec hadd (hh f hf) (.inr ⟨f, h, hr⟩) hatt ?_ (by rw [← hf]; exact hin)
    rw [hout]
    simp [pending]
  · rw [hr] at hreader
    refine hc.deliver hl hreader (hh f hf) hdel hatt ?_ (by rw [← hf]; exact hin)
    rw [hout]
    simp [pending]
  · have hhf := hh f hf
    rcases hwhy with ⟨hr, ht, hwhy⟩ | ⟨ht, hwhy⟩ | ⟨hr, hwhy⟩
    · -- an honest WINDOW is never refused
      obtain ⟨credit, t, hdec, hadd⟩ := hc.addSendCredit_ok hl hpw ht hhf (.inr ⟨f, h, hr⟩)
      rcases hwhy with hsv | hno
      · exact absurd (hhf.service (by simp [ht])).symm hsv
      · exact absurd hadd (hno credit t hdec)
    · -- bytes only arrive on an open stream of their service
      rcases hwhy with hopen | hsv
      · rw [hl.isOpen (hc.advertised ht hhf)] at hopen
        cases hopen
      · exact absurd (hhf.service (by simp [ht])).symm hsv
    · -- a frame is refused in `deliver` only on a stream closed under it
      rw [hr] at hreader
      have hadv := hc.advertised hreader hhf
      refine hc.quiet (k := []) (.of_eq (by rw [hout, hp])) (by simp) (hin.trans (by rw [hf]))
        ?_ ?_ hstill hg hkept.service hatt
      · intro _ _
        simp [credit_of_ne (f := f) (by rw [hreader]; simp)]
      · rintro (h0 | h0)
        · rw [hstill.advertised, hadv] at h0
          cases h0
        · obtain ⟨t, hdel⟩ := hc.deliver_ok hl hdp hreader hhf (hg.remoteOpen h0)
          exact absurd hdel (hwhy t)
  · obtain ⟨hpaid, hgot⟩ := hc.unadvertised hadv
    rw [hp, hl.limits] at hout
    refine hc.pay (hl.limits ▸ s.limits.window_pos) (hl.limits ▸ s.limits.window_lt)
      (.of_eq hout) (hin.trans (append_nil _)) hatt rfl rfl rfl rfl (fun h' => h') rfl ?_ ?_
      ?_ (.inl rfl)
    · omega
    · omega
    · intro _
      rw [hl.limits, hgot]
      simp [hpaid]

/-- **The step lemma.** Against an honest peer both accounts stay balanced. -/
lemma Credit.step (hpw : pw ≤ maxInitialWindow) (hdp : l.maxDataPayload = min dp l.initialWindow)
    (hs : e.stream = some s) (hs' : e'.stream = some s') (hstep : Step owner l e a e')
    (hh : ∀ f, e'.handled = e.handled ++ [f] → Honest pw dp e s f) : Credit l pw e' s' := by
  have hsame : e'.stream = e.stream → s' = s := fun h => some.inj (hs'.symm.trans (h.trans hs))
  cases hstep with
  | openStream _ hnone | openNew _ _ _ hnone => cases hs.symm.trans hnone
  | app hheld hs₀ happ =>
    obtain rfl := mem_unique hs hs₀
    obtain rfl := some.inj hs'
    exact hc.app hl hheld happ
  | call hcalls hs₀ hcall =>
    obtain rfl := mem_unique hs hs₀
    obtain rfl := some.inj hs'
    exact hc.call hl hcalls hcall
  | reader hs₀ hread =>
    obtain rfl := mem_unique hs hs₀
    obtain rfl := some.inj hs'
    refine hc.read hl hpw hdp hread fun f hf => hh f ?_
    simp [handled, hf]
  | accept =>
    obtain rfl := hsame rfl
    exact hc.idle (k := []) (.of_eq (append_nil _).symm) (by simp) rfl (fun h => h)
  | write =>
    obtain rfl := hsame rfl
    exact hc.idle (outgo_add (k := some _) rfl rfl rfl) (by simp [pending?]) rfl (fun h => h)
  | written =>
    rename_i site rest hw
    obtain rfl := hsame rfl
    have hnone : site.next.bind pending? = none := by cases site <;> rfl
    exact hc.idle (outgo_add rfl rfl rfl) (by simp [hnone]) rfl (fun h => h)
  | openReturn hcalls =>
    obtain rfl := hsame rfl
    exact hc.idle (outgo_call (k := none) hcalls rfl (by simp) rfl rfl) (by simp) rfl (fun h => h)
  | remove hcalls =>
    obtain rfl := hsame rfl
    exact hc.idle (outgo_call (k := none) hcalls rfl (by simp) rfl rfl) (by simp) rfl
      (Or.imp_left (by simp))
  | enqueue hcalls =>
    obtain rfl := hsame rfl
    refine hc.idle (k := []) ?_ (by simp) ?_ (fun h => h)
    · rw [append_nil]
      exact outgo_enqueue hcalls rfl (sentFrames_append _ _) rfl
    · simp [handled]
  | readerEnqueue hr =>
    rename_i f site
    obtain rfl := hsame rfl
    have hnext : site.next.pending = [] := by cases site <;> rfl
    refine hc.idle (k := []) ?_ (by simp) ?_ ?_
    · rw [append_nil]
      exact outgo_readerEnqueue hr hnext rfl (sentFrames_append _ _)
    · simp [handled]
    · refine attached_of_eq rfl ?_
      intro g h
      cases site <;> rintro ⟨⟩
  | readerRemove hr =>
    obtain rfl := hsame rfl
    exact hc.idle (.of_eq (outgo_reader (e := e) rfl rfl (by rw [hr]; rfl))) (by simp [pending]) rfl
      (by rintro (h | ⟨_, _, h⟩) <;> cases h)
  | backlogDrop hr hs₀ =>
    obtain rfl := hsame rfl
    obtain rfl : s' = _ := some.inj (hs.symm.trans hs₀)
    refine hc.idle (.of_eq (outgo_reader (e := e) rfl rfl (by rw [hr]; rfl))) ?_ rfl
      (by rintro (h | ⟨_, _, h⟩) <;> cases h)
    simp only [pending, mem_singleton]
    rintro f rfl
    exact .of_reset rfl
  | publish hr =>
    obtain rfl := hsame rfl
    exact hc.idle (.of_eq (outgo_reader (e := e) rfl rfl (by rw [hr]; rfl))) (by simp [pending]) rfl
      (attached_of_eq rfl (by simp))
  | openRefused hown hr ht =>
    rename_i f
    obtain rfl := hsame rfl
    refine hc.same (g := [f]) (.of_eq (outgo_reader (e := e) rfl ?_ (by rw [hr]; rfl))) ?_ ?_
      ?_ ?_ (attached_of_eq rfl (by simp))
    · simp [sent]
    · simp only [pending, mem_singleton]
      rintro f rfl
      exact .of_reset rfl
    · simp [handled]
    · intro _ _
      simp [credit_of_ne (f := f) (by simp [ht])]
    · intro _
      simp [data_of_ne (f := f) (by simp [ht])]
  | lookup hr hlst =>
    obtain rfl := hsame rfl
    exact hc.idle (.of_eq (outgo_reader (e := e) rfl rfl (by rw [hr]; rfl))) (by simp [pending]) rfl
      (fun _ => .inl hlst)
  | unknownData hr hlst ht =>
    rename_i f
    obtain rfl := hsame rfl
    have hhf := hh f (by simp [handled])
    have hadv := hc.advertised ht hhf
    refine hc.same (g := [f]) (.of_eq (outgo_reader (e := e) rfl ?_ (by rw [hr]; rfl))) ?_ ?_
      ?_ ?_ (attached_of_eq rfl (by simp))
    · simp [sent]
    · simp only [pending, mem_singleton]
      rintro f rfl
      exact .of_reset rfl
    · simp [handled]
    · intro _ _
      simp [credit_of_ne (f := f) (by simp [ht])]
    · -- a stream that left the table is closed
      rintro (h0 | h0)
      · rw [hadv] at h0
        cases h0
      · rcases (hl.unlisted hlst).1 with hclosed | hnever
        · rw [hclosed] at h0
          cases h0
        · rw [hnever.2] at hadv
          cases hadv
  | unknownDrop hr hlst hlk ht hna =>
    rename_i f
    obtain rfl := hsame rfl
    refine hc.same (k := []) (g := [f]) (.of_eq ?_) (by simp) ?_ ?_ ?_ (fun h => h)
    · simp [outgo, sent]
    · simp [handled]
    · rintro _ (h | ⟨_, _, h⟩)
      · rw [hlst] at h
        cases h
      · rw [hr] at h
        cases h
    · intro _
      simp [data_of_ne ht]

end

end End

end WeaverSSH.SessionMux
