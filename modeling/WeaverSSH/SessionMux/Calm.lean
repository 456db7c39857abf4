import WeaverSSH.SessionMux.Content

/-!
# Streams nobody resets

When no application calls `Reset` and the peer is honest, a stream is closed remotely only because
its peer closed it or because it never came to life, a RESET is only sent for a stream that never
came to life, and nothing an honest peer sends is refused (`End.Welcome`, which is stronger than
`End.Honest`).
-/

namespace WeaverSSH.SessionMux

open Option Event End List SessionMux.Stream

/-- The errors a stream can end with when nobody resets it and no frame is refused. -/
def MuxErr.isCalm : MuxErr → Bool
  | .streamReset | .incomingBacklog | .ctxErr => true
  | _ => false

/-- The reports of a violated flow control. -/
def Event.isFault : Event → Bool
  | .violation .. => true
  | .readError _ e => !e.isCalm
  | _ => false

lemma Stream.terminalErr_remoteClose (s : Stream) (e t : MuxErr)
    (h : (s.remoteClose (some e)).terminalErr = some t) : s.terminalErr = some t ∨ t = e := by
  unfold remoteClose at h
  split at h
  · exact .inl h
  · exact .inr (some.inj h).symm

lemma Stream.accepted_signalAccepted (s : Stream) (e : Option MuxErr) (t : Option MuxErr)
    (h : (s.signalAccepted e).accepted = some t) : s.accepted = some t ∨ t = e := by
  unfold signalAccepted at h
  split at h
  · exact .inl h
  · exact .inr (some.inj h).symm

variable {h : Handle} {c : Call} {pick : Mux.Pick} {c' : Option Call}

lemma CallStep.faultless {s s' : Stream}
    {evs : List Event} (hstep : CallStep h s c pick s' c' evs) : ∀ w ∈ evs, w.isFault = false := by
  cases hstep <;> simp [isFault]

namespace End

variable {owner : Bool} {l : Limits} {e e' : End} {s s' : Stream}

def PeerReset (e : End) : Prop := ∃ f ∈ e.handled, f.type = .frameReset

structure Welcome (e : End) (s : Stream) (f : Frame) : Prop where
  service : f.type ≠ .frameReset → s.service = f.service
  data : f.type = .frameData → s.isOpen = true ∧ s.remoteClosed = false ∧ e.listed = true ∧
    ∃ t, s.deliver f.payload = .ok t
  window : f.type = .frameWindow → e.attached →
    ∃ c t, decodeWindowCredit f.payload = .ok c ∧ s.addSendCredit c = .ok t
  notOpen : f.type ≠ .frameOpen

/-- What the control point of a goroutine says when nobody resets. -/
def CallCalm (e : End) (s : Stream) : Call → Prop
  | .resetLock _ | .sending _ (.reset _) | .resetUnlock _ => False
  | .openAbort _ t => t.isCalm = true
  | .removing _ => ¬ s.alive ∨ e.PeerReset
  | _ => True

/-- What the control point of the reader loop says when nobody resets. -/
def ReaderCalm (e : End) (s : Stream) : Reader → Prop
  | .failClose .. | .sending _ (.reset _) => False
  | .resetClose .. => e.PeerReset
  | .removing _ => ¬ s.alive ∨ e.PeerReset
  | .backlogDrop _ => e.Never s ∧ ¬ s.alive
  | _ => True

/-- The end of a stream that nobody resets. -/
structure Calm (e : End) (s : Stream) : Prop where
  closed : s.remoteClosed = true → e.PeerClosed ∨ e.PeerReset ∨ e.Never s
  resets : ∀ f ∈ e.outgo, f.type = .frameReset → e.Never s
  datas : ∀ f ∈ e.outgo, f.type = .frameData → s.windowAdvertised = true
  calls : ∀ c ∈ e.calls, e.CallCalm s c
  waiting : ∀ h, Site.reset h ∉ e.waiting
  reader : e.ReaderCalm s e.reader
  terminal : ∀ t, s.terminalErr = some t → t.isCalm = true
  accepted : ∀ t, s.accepted = some (some t) → e.PeerReset
  unlisted : e.listed = false → ¬ s.alive ∨ e.PeerReset
  faultless : ∀ w ∈ e.log, w.isFault = false

lemma PeerReset.mono (h : e.PeerReset) (hlog : e.log <+: e'.log) : e'.PeerReset :=
  h.imp fun _ hf => ⟨(handled_isPrefix hlog).subset hf.1, hf.2⟩

lemma PeerClosed.mono (h : e.PeerClosed) (hlog : e.log <+: e'.log) : e'.PeerClosed :=
  h.imp fun _ hf => ⟨(handled_isPrefix hlog).subset hf.1, hf.2⟩

lemma CallCalm.grows (hg : Grows e s e' s') (h : e.CallCalm s c) : e'.CallCalm s' c := by
  cases c with
  | removing => exact h.imp (fun h ha => h (hg.stream.alive ha)) (fun h => h.mono hg.log)
  | sending f site => cases site <;> exact h
  | _ => exact h

lemma ReaderCalm.grows {r : Reader} (hg : Grows e s e' s') (h : e.ReaderCalm s r) :
    e'.ReaderCalm s' r := by
  cases r with
  | removing => exact h.imp (fun h ha => h (hg.stream.alive ha)) (fun h => h.mono hg.log)
  | resetClose => exact h.mono hg.log
  | backlogDrop => exact ⟨hg.never h.1, fun ha => h.2 (hg.stream.alive ha)⟩
  | sending f site => cases site <;> exact h
  | _ => exact h

/-- What a step has to show. What it leaves alone is filled in. -/
structure Soft (e : End) (s : Stream) (e' : End) (s' : Stream) (new : List Frame) : Prop where
  outgo : e'.outgo.Perm (e.outgo ++ new)
  frames : ∀ f ∈ new, (f.type = .frameReset → e'.Never s') ∧
    (f.type = .frameData → s'.windowAdvertised = true) := by simp [Call.pending?, Reader.pending]
  closed : s'.remoteClosed = true →
    s.remoteClosed = true ∨ e'.PeerClosed ∨ e'.PeerReset ∨ e'.Never s' := by exact .inl
  calls : ∀ c ∈ e'.calls, c ∈ e.calls ∨ e'.CallCalm s' c := by exact fun c hm => .inl hm
  waiting : ∀ h, Site.reset h ∈ e'.waiting → Site.reset h ∈ e.waiting := by exact fun h hm => hm
  reader : e'.reader = e.reader ∨ e'.ReaderCalm s' e'.reader := by
    first | exact .inl rfl | exact .inr trivial
  terminal : ∀ t, s'.terminalErr = some t → s.terminalErr = some t ∨ t.isCalm = true := by
    exact fun t ht => .inl ht
  accepted : ∀ t, s'.accepted = some (some t) → s.accepted = some (some t) ∨ e'.PeerReset := by
    exact fun t ht => .inl ht
  unlisted : e'.listed = false → e.listed = false ∨ ¬ s'.alive ∨ e'.PeerReset := by exact .inl
  faultless : ∀ w ∈ e'.log, w ∈ e.log ∨ w.isFault = false := by exact fun w hw => .inl hw

lemma Calm.soft {k : List Frame} (hc : Calm e s) (hg : Grows e s e' s')
    (h : Soft e s e' s' k) : Calm e' s' := by
  have hmem : ∀ f ∈ e'.outgo, f ∈ e.outgo ∨ f ∈ k := fun f hf =>
    mem_append.mp (h.outgo.mem_iff.mp hf)
  have hgone : ¬ s.alive ∨ e.PeerReset → ¬ s'.alive ∨ e'.PeerReset :=
    Or.imp (fun h ha => h (hg.stream.alive ha)) (fun h => h.mono hg.log)
  constructor
  case closed =>
    intro h1
    rcases h.closed h1 with h2 | h2
    · exact (hc.closed h2).imp (fun h => h.mono hg.log)
        (Or.imp (fun h => h.mono hg.log) (fun h => hg.never h))
    · exact h2
  case resets =>
    exact fun f hf ht => (hmem f hf).elim (fun hm => hg.never (hc.resets f hm ht))
      (fun hm => (h.frames f hm).1 ht)
  case datas =>
    exact fun f hf ht => (hmem f hf).elim (fun hm => hg.stream.advertised (hc.datas f hm ht))
      (fun hm => (h.frames f hm).2 ht)
  case calls =>
    exact fun c hcm => (h.calls c hcm).elim (fun hm => (hc.calls c hm).grows hg) (fun hm => hm)
  case waiting => exact fun h₀ hm => hc.waiting h₀ (h.waiting h₀ hm)
  case reader =>
    rcases h.reader with heq | hok
    · rw [heq]
      exact hc.reader.grows hg
    · exact hok
  case terminal => exact fun t ht => (h.terminal t ht).elim (hc.terminal t) (fun h => h)
  case accepted =>
    exact fun t ht => (h.accepted t ht).elim (fun h => (hc.accepted t h).mono hg.log) (fun h => h)
  case unlisted => exact fun h0 =>
    (h.unlisted h0).elim (fun h => hgone (hc.unlisted h)) (fun h => h)
  case faultless => exact fun w hw => (h.faultless w hw).elim (hc.faultless w) (fun h => h)

lemma Live.unadvertised (hl : Live owner l e s) (hc : c ∈ e.calls) (hpre : c.pre = 1) :
    s.windowAdvertised = false := by
  have hp := hl.pre
  have hle : c.pre ≤ (e.calls.map Call.pre).sum := single_le_sum (by simp) _
    (mem_map_of_mem hc)
  by_contra hno
  rw [Bool.not_eq_false] at hno
  simp only [End.pre, hno, Bool.toNat_true] at hp
  omega

/-- The frame a goroutine is about to queue is a RESET only of a stream that never came to life. -/
lemma Live.calm_pending (hl : Live owner l e s) (hmem : ∀ c ∈ c', c ∈ e.calls)
    (hcalm : ∀ c ∈ c', e.CallCalm s c) : ∀ f ∈ (c'.bind Call.pending?).toList,
      (f.type = .frameReset → e.Never s) ∧ (f.type = .frameData → s.windowAdvertised = true) := by
  intro f hf
  obtain ⟨c, hc, hf⟩ := bind_eq_some_iff.mp (mem_toList.mp hf)
  have hok := hl.calls c (hmem c hc)
  have hcalm := hcalm c hc
  cases c with
  | sending g site =>
    obtain rfl := some.inj hf
    obtain ⟨ht, hok⟩ := hok
    rw [ht]
    cases site with
    | reset => exact hcalm.elim
    | cancel => exact ⟨fun _ => hok.1, nofun⟩
    | write => exact ⟨nofun, fun _ => hok⟩
    | _ => exact ⟨nofun, nofun⟩
  | _ => cases hf

variable {evs : List Event}

lemma faultless_append {log : List Event} (h : ∀ w ∈ evs, w.isFault = false) :
    ∀ w ∈ log ++ evs, w ∈ log ∨ w.isFault = false :=
  fun w hw => (mem_append.mp hw).imp_right (h w)

lemma Calm.call (hc : Calm e s) (hl : Live owner l e s) {l₁ l₂ : List Call}
    (hcalls : e.calls = l₁ ++ c :: l₂) (hstep : CallStep h s c pick s' c' evs) (he : e' = { e with
      stream := some s', calls := l₁ ++ c'.toList ++ l₂, log := e.log ++ evs })
    (hl' : Live owner l e' s') (hg : Grows e s e' s') : Calm e' s' := by
  have hmem : c ∈ e.calls := by simp [hcalls]
  have hok := hl.calls c hmem
  have hcalm := hc.calls c hmem
  have hfacts : (s'.remoteClosed = true → s.remoteClosed = true ∨ e'.Never s') ∧
      (∀ c₀ ∈ c', e'.CallCalm s' c₀) ∧
      (∀ t, s'.terminalErr = some t → s.terminalErr = some t ∨ t.isCalm = true) ∧
      ∀ t, s'.accepted = some t → s.accepted = some t := by
    clear he
    cases hstep with
    | refused hacc =>
      have hpeer := (hc.accepted _ hacc).mono hg.log
      simp +contextual [CallCalm, hpeer]
    | init hinit =>
      obtain ⟨-, -, rfl⟩ := Mux.initialWindowFrame_eq hinit
      simp +contextual [CallCalm]
    | initFailed hfail =>
      obtain ⟨f, t, hinit⟩ := Mux.initialWindowFrame_ok (hl.unadvertised hmem rfl)
      rw [hinit] at hfail
      cases hfail
    | abort =>
      rename_i err
      have hterm := s.terminalErr_remoteClose err
      obtain ⟨t, ht⟩ := remoteClose_some s err
      rw [ht] at hg hterm ⊢
      refine ⟨fun _ => .inr (hg.never hok.1), ?_, ?_, fun _ => id⟩
      · simp [CallCalm, alive]
      · exact fun t ht => (hterm t ht).imp_right (by rintro rfl; exact hcalm)
    | writeChunk hlt hchunk =>
      obtain ⟨-, -, -, -, -, rfl⟩ := takeChunk_eq hl.flow hchunk
      simp +contextual [CallCalm]
    | closeRemove hfull =>
      simp only [isFullyClosed, Bool.and_eq_true] at hfull
      simp +contextual [CallCalm, alive, hfull.1]
    | resetLock | resetUnlock => exact hcalm.elim
    | _ => simp +contextual [CallCalm, markAccepted]
  obtain ⟨hclosed, hcalm', hterm, hacc⟩ := hfacts
  have hfault := hstep.faultless
  have hsent := hstep.source.2.2
  have hpend := hstep.source.1
  subst he
  exact hc.soft hg
    { outgo := outgo_call hcalls hpend rfl (by simp [sent, hsent]) rfl
      frames := hl'.calm_pending (fun c hm => by simp [mem_toList.mpr hm]) hcalm'
      closed := fun h1 => (hclosed h1).imp_right fun h => .inr (.inr h)
      calls := fun c₀ hm => (mem_replaced hcalls rfl hm).imp_right (hcalm' c₀)
      terminal := hterm
      accepted := fun t ht => .inl (hacc _ ht)
      faultless := faultless_append hfault }

variable {a : Mux.Act}

lemma Calm.app (hc : Calm e s) (hl : Live owner l e s) (hstep : AppStep h a s s' c' evs)
    (hreset : ∀ h, a ≠ .reset h) (he : e' = { e with
      stream := some s', calls := e.calls ++ c'.toList, log := e.log ++ evs })
    (hl' : Live owner l e' s') (hg : Grows e s e' s') : Calm e' s' := by
  have hfacts : s'.remoteClosed = s.remoteClosed ∧ s'.terminalErr = s.terminalErr ∧
      s'.accepted = s.accepted ∧ (∀ c₀ ∈ c', e'.CallCalm s' c₀) ∧ ∀ w ∈ evs, w.isFault = false := by
    clear he
    cases hstep with
    | reset => exact absurd rfl (hreset h)
    | readViolation hv => exact absurd hv (read_ne_violation hl.flow)
    | readFailed hv =>
      rename_i n t
      have hterm : s.terminalErr = some t := by
        unfold Stream.read Stream.returnCredit at hv
        split_ifs at hv <;> grind
      simp [isFault, hc.terminal t hterm]
    | read hd | readGrant hd =>
      obtain ⟨-, -, ⟨-, -, rfl⟩ | ⟨-, rfl, -⟩⟩ := read_eq hl.flow hd <;>
        simp [CallCalm, isFault]
    | readNothing | readEOF | close => simp [CallCalm, isFault]
  obtain ⟨hclosed, hterm, hacc, hcalm, hfault⟩ := hfacts
  have hsent := (hstep.credit hl.flow).2.1
  subst he
  exact hc.soft hg
    { outgo := outgo_add rfl (by simp [sent, hsent]) rfl
      frames := hl'.calm_pending (fun c hm => by simp [mem_toList.mpr hm]) hcalm
      closed := fun h1 => .inl (hclosed ▸ h1)
      calls := fun c₀ hm => (mem_append.mp hm).imp_right fun hn => hcalm c₀ (mem_toList.mp hn)
      terminal := fun t ht => .inl (hterm ▸ ht)
      accepted := fun t ht => .inl (hacc ▸ ht)
      faultless := faultless_append hfault }

lemma Calm.read (hc : Calm e s) (hl : Live owner l e s) {r r' : Reader}
    (hr : e.reader = r) (hstep : ReaderStep h s r s' r' evs)
    (hh : ∀ f, handledFrames evs = [f] → Welcome e s f)
    (he : e' = { e with stream := some s', reader := r', log := e.log ++ evs })
    (hg : Grows e s e' s') : Calm e' s' := by
  have hin : e'.handled = e.handled ++ handledFrames evs := by simp [End.handled, he]
  have hreader := hl.reader
  have hcalm := hc.reader
  rw [hr] at hreader hcalm
  have hfacts : (s'.remoteClosed = true →
        s.remoteClosed = true ∨ e'.PeerClosed ∨ e'.PeerReset ∨ e'.Never s') ∧
      (∀ f ∈ r'.pending, f.type ≠ .frameReset ∧ f.type ≠ .frameData) ∧ e'.ReaderCalm s' r' ∧
      (∀ t, s'.terminalErr = some t → s.terminalErr = some t ∨ t.isCalm = true) ∧
      (∀ t, s'.accepted = some (some t) → s.accepted = some (some t) ∨ e'.PeerReset) ∧
      ∀ w ∈ evs, w.isFault = false := by
    cases hstep with
    | accept ht _ =>
      obtain ⟨x, hx⟩ := Stream.signalAccepted_eq s none
      have hacc := s.accepted_signalAccepted none
      rw [hx] at hacc ⊢
      exact ⟨.inl, by simp [Reader.pending], trivial, fun t ht => .inl ht,
        fun t ht => .inl ((hacc _ ht).resolve_right (by simp)), by simp [isFault]⟩
    | windowService ht hsv | closeService ht hsv =>
      exact absurd ((hh _ rfl).service (by simp [ht])) hsv
    | windowPayload ht hdec =>
      obtain ⟨c, t, hdec', -⟩ := (hh _ rfl).window ht (.inr ⟨_, _, hr⟩)
      rw [hdec] at hdec'
      cases hdec'
    | windowRefused ht hdec hadd =>
      obtain ⟨c, t, hdec', hadd'⟩ := (hh _ rfl).window ht (.inr ⟨_, _, hr⟩)
      obtain rfl := Except.ok.inj (hdec.symm.trans hdec')
      rw [hadd] at hadd'
      cases hadd'
    | dataRefused ht hwhy =>
      obtain ⟨hopen, -⟩ := (hh _ rfl).data ht
      rcases hwhy with h0 | h0
      · rw [hopen] at h0
        cases h0
      · exact absurd ((hh _ rfl).service (by simp [ht])) h0
    | deliverRefused hdel =>
      obtain ⟨-, -, -, t, hdel'⟩ := (hh _ rfl).data hreader
      rw [hdel] at hdel'
      cases hdel'
    | window ht _ hdec hadd =>
      obtain ⟨-, rfl⟩ | ⟨-, -, -, -, rfl⟩ | ⟨-, -, -, -, rfl⟩ :=
        Stream.addSendCredit_eq hl.flow (decodeWindowCredit_lt hdec).2 hadd <;>
        simp +contextual [Reader.pending, ReaderCalm, isFault]
    | deliver hdel =>
      obtain ⟨-, rfl⟩ | ⟨-, -, -, -, rfl⟩ := Stream.deliver_eq hl.flow hdel <;>
        simp +contextual [Reader.pending, ReaderCalm, isFault]
    | close ht _ =>
      rename_i f _
      have hpeer : e'.PeerClosed := ⟨f, by simp [hin], ht⟩
      rw [Stream.remoteClose_none]
      simp +contextual [Reader.pending, ReaderCalm, isFault, hpeer]
    | reset h₁ h₂ h₃ h₄ =>
      rename_i f
      have ht : f.type = .frameReset := by
        have hlk : Mux.isLookup f.type = true := hreader
        generalize f.type = ty at hlk h₁ h₂ h₃ h₄
        cases ty <;> first | rfl | contradiction
      have hpeer : e'.PeerReset := ⟨f, by simp [hin], ht⟩
      obtain ⟨x, hx⟩ := Stream.signalAccepted_eq s (some .streamReset)
      rw [hx]
      simp +contextual [Reader.pending, ReaderCalm, isFault, hpeer]
    | resetClose =>
      have hpeer := PeerReset.mono hcalm hg.log
      have hterm := s.terminalErr_remoteClose .streamReset
      obtain ⟨t, ht⟩ := Stream.remoteClose_some s .streamReset
      rw [ht] at hterm ⊢
      exact ⟨fun _ => .inr (.inr (.inl hpeer)), by simp [Reader.pending], .inr hpeer,
        fun t ht => (hterm t ht).imp_right (by rintro rfl; rfl), fun _ ht => .inl ht, by simp⟩
    | openFull =>
      have hterm := s.terminalErr_remoteClose .incomingBacklog
      obtain ⟨t, ht⟩ := Stream.remoteClose_some s .incomingBacklog
      have hpre := hl.pre
      rw [ht] at hterm ⊢
      have hnever : e'.Never { s with remoteClosed := true, terminalErr := some t } := by
        have hadv : s.windowAdvertised = false := by
          by_contra hno
          rw [Bool.not_eq_false] at hno
          simp [End.pre, hr, Reader.pre, hno] at hpre
        refine ⟨?_, hadv⟩
        simp only [End.pre, hr, he, Reader.pre] at hpre ⊢
        omega
      exact ⟨fun _ => .inr (.inr (.inr hnever)), by simp [Reader.pending],
        ⟨hnever, fun ha => by cases ha.2⟩,
        fun t ht => (hterm t ht).imp_right (by rintro rfl; rfl), fun _ ht => .inl ht, by simp⟩
    | closeRemove hfull =>
      simp only [Stream.isFullyClosed, Bool.and_eq_true] at hfull
      simp +contextual [Reader.pending, ReaderCalm, Stream.alive, hfull.1]
    | init hinit =>
      obtain ⟨-, rfl, rfl⟩ := Mux.initialWindowFrame_eq hinit
      simp +contextual [Reader.pending, ReaderCalm, Stream.windowFrame]
    | failClose => exact hcalm.elim
    | openFail => exact hreader.elim
    | openAccept | data | closeKept | initFailed | mark =>
      simp +contextual [Reader.pending, ReaderCalm, Stream.acceptFrame, Stream.markAccepted]
  obtain ⟨hclosed, hpending, hcalm', hterm, hacc, hfault⟩ := hfacts
  have hsent := hstep.credit.1
  have hsource := hstep.source.1
  subst he
  exact hc.soft hg
    { outgo := .of_eq (outgo_reader rfl (by simp [End.sent, hsent]) (hr ▸ hsource))
      frames := fun f hf => ⟨fun ht => absurd ht (hpending f hf).1,
        fun ht => absurd ht (hpending f hf).2⟩
      closed := hclosed
      reader := .inr hcalm'
      terminal := hterm
      accepted := hacc
      faultless := faultless_append hfault }

/-- **The step lemma.** -/
lemma Calm.step (hc : Calm e s) (hl : Live owner l e s) (hl' : Live owner l e' s')
    (hs : e.stream = some s) (hs' : e'.stream = some s') (hstep : Step owner l e a e')
    (hg : Grows e s e' s') (hreset : ∀ h, a ≠ .reset h)
    (hh : ∀ f, e'.handled = e.handled ++ [f] → Welcome e s f) : Calm e' s' := by
  have hsame : e'.stream = e.stream → s' = s := fun h => some.inj (hs'.symm.trans (h.trans hs))
  cases hstep with
  | openStream _ hnone | openNew _ _ _ hnone => cases hs.symm.trans hnone
  | app _ hs₀ happ =>
    obtain rfl := mem_unique hs hs₀
    obtain rfl := some.inj hs'
    exact hc.app hl happ hreset rfl hl' hg
  | call hcalls hs₀ hcall =>
    obtain rfl := mem_unique hs hs₀
    obtain rfl := some.inj hs'
    exact hc.call hl hcalls hcall rfl hl' hg
  | reader hs₀ hread =>
    obtain rfl := mem_unique hs hs₀
    obtain rfl := some.inj hs'
    refine hc.read hl rfl hread (fun f hf => hh f ?_) rfl hg
    simp [handled, hf]
  | accept =>
    obtain rfl := hsame rfl
    exact hc.soft (k := []) hg { outgo := by simp [outgo, sent] }
  | write =>
    obtain rfl := hsame rfl
    exact hc.soft hg
      { outgo := outgo_add (k := some _) rfl rfl rfl
        calls := by simp +contextual [or_imp, CallCalm] }
  | written hwait =>
    rename_i site rest
    obtain rfl := hsame rfl
    have hnone : site.next.bind Call.pending? = none := by cases site <;> rfl
    refine hc.soft hg
      { outgo := outgo_add rfl rfl rfl
        frames := by simp [hnone]
        calls := fun c hm => (mem_append.mp hm).imp_right fun hn => ?_
        waiting := fun h hm => by rw [hwait]; exact mem_cons_of_mem _ hm }
    rw [mem_toList] at hn
    cases site with
    | reset h => exact absurd (by simp [hwait]) (hc.waiting h)
    | readGrant => cases hn
    | cancel => obtain rfl := some.inj hn; rfl
    | _ => obtain rfl := some.inj hn; trivial
  | enqueue hcalls =>
    rename_i l₁ l₂ f site
    obtain rfl := hsame rfl
    have hcalm := hc.calls (.sending f site) (by simp [hcalls])
    refine hc.soft (k := []) hg
      { outgo := ?_
        calls := fun c hm => (mem_replaced hcalls rfl hm).imp_right fun hnew => ?_
        waiting := fun h hm => (mem_append.mp hm).resolve_right fun hnew => ?_
        faultless := faultless_append (by simp [isFault]) }
    · rw [append_nil]
      exact outgo_enqueue hcalls rfl (sentFrames_append _ _) rfl
    · cases site with
      | reset => exact hcalm.elim
      | cancel => obtain rfl := some.inj hnew; rfl
      | _ => cases hnew
    · cases site <;> simp [Site.waits, Site.sync] at hnew
  | openReturn hcalls =>
    obtain rfl := hsame rfl
    exact hc.soft hg
      { outgo := outgo_call (k := none) hcalls rfl (by simp) rfl rfl
        calls := by simp +contextual [hcalls, or_imp] }
  | remove hcalls =>
    rename_i id
    obtain rfl := hsame rfl
    exact hc.soft hg
      { outgo := outgo_call (k := none) hcalls rfl (by simp) rfl rfl
        calls := by simp +contextual [hcalls, or_imp]
        unlisted := fun _ => .inr (hc.calls (.removing id) (by simp [hcalls])) }
  | readerEnqueue hr =>
    rename_i f site
    obtain rfl := hsame rfl
    have hcalm := hc.reader
    rw [hr] at hcalm
    refine hc.soft (k := []) hg
      { outgo := ?_, reader := .inr ?_, faultless := faultless_append (by simp [isFault]) }
    · rw [append_nil]
      exact outgo_readerEnqueue hr (by cases site <;> rfl) rfl (sentFrames_append _ _)
    · cases site with
      | reset => exact hcalm.elim
      | _ => trivial
  | readerRemove hr =>
    obtain rfl := hsame rfl
    have hcalm := hc.reader
    rw [hr] at hcalm
    exact hc.soft hg
      { outgo := .of_eq (outgo_reader (e := e) rfl rfl (by rw [hr]; rfl))
        unlisted := fun _ => .inr hcalm }
  | backlogDrop hr hs₀ =>
    obtain rfl := hsame rfl
    have hcalm := hc.reader
    rw [hr] at hcalm
    exact hc.soft hg
      { outgo := .of_eq (outgo_reader (e := e) rfl rfl (by rw [hr]; rfl))
        frames := fun f hf => ⟨fun _ => hg.never hcalm.1, fun ht => by
          obtain rfl := mem_singleton.mp hf
          cases ht⟩
        unlisted := fun _ => .inr (.inl hcalm.2) }
  | publish hr | lookup hr =>
    obtain rfl := hsame rfl
    exact hc.soft hg { outgo := .of_eq (outgo_reader (e := e) rfl rfl (by rw [hr]; rfl)) }
  | openRefused _ _ ht =>
    exact absurd ht (hh _ (by simp [handled])).notOpen
  | unknownData _ hlst ht =>
    obtain ⟨-, -, hyes, -⟩ := (hh _ (by simp [handled])).data ht
    rw [hlst] at hyes
    cases hyes
  | unknownDrop =>
    obtain rfl := hsame rfl
    exact hc.soft (k := []) hg
      { outgo := by simp [outgo, sent]
        faultless := faultless_append (by simp [isFault]) }

end End

end WeaverSSH.SessionMux
