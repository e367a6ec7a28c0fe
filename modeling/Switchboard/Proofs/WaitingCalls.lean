import Switchboard.Proofs.LinkFailure

/-!
What calls that wait can still do to the registry of their link. `ComesToWait` says how a
call has come to wait: it joins those that wait after its first look only, and by then the
one that dials has registered the handshake and the one that closes has begun the close. So
in a run that starts without calls nobody who waits does anything that is not `Quiet`: the
handshake is registered by `connect` and completed by a frame, or not at all.
-/
namespace Switchboard

/-- What is done to the registry of a link when the handshake is neither registered nor
completed. The end comes as the failure of the handshake while connecting, and as the
announcement of a close once the close has begun. -/
def Registry.Quiet (r : Registry) : Op → Prop
  | .greet => False
  | .markReady => False
  | .settle id _ => r.lifecycle = .connecting → id ≠ RequestId.handshake
  | .failAll f =>
    (r.lifecycle = .connecting ∧ ∃ m, f = .handshakeFailed m) ∨
      (r.lifecycle.isShuttingDown = true ∧ ∃ m, f = .closing m)
  | _ => True

theorem Link.routine_quiet : Routine Registry.Quiet where
  atGate r op hop := by
    cases op with
    | register => trivial
    | tryRegister => trivial
    | resume w => trivial
    | abandon w => trivial
    | _ => cases hop
  settle _ _ _ hid := hid
  beginClosing _ := trivial
  refuse _ m hc := Or.inl ⟨hc, m, rfl⟩
  finish _ m hshut := Or.inr ⟨hshut, m, rfl⟩

namespace Registry

variable {r s : Registry}

theorem Quiet.ne_greet {op : Op} (h : r.Quiet op) : op ≠ .greet := by
  rintro rfl
  exact h

theorem Quiet.ne_markReady {op : Op} (h : r.Quiet op) : op ≠ .markReady := by
  rintro rfl
  exact h

theorem Change.isShuttingDown {op : Op} {granted : Option Handle}
    (hc : Change r op s granted) (h : r.lifecycle.isShuttingDown = true) :
    s.lifecycle.isShuttingDown = true := by
  rcases hc.lifecycle with hsame | ⟨-, hr, -⟩ | ⟨-, hr, -⟩ | ⟨-, -, hs⟩
  · rw [hsame]
    exact h
  · simp [hr, Lifecycle.isShuttingDown] at h
  · exact absurd (h.symm.trans hr) (by decide)
  · rw [hs]
    rfl

theorem LeadsTo.isShuttingDown (h : r.LeadsTo s) (hr : r.lifecycle.isShuttingDown = true) :
    s.lifecycle.isShuttingDown = true :=
  h.preserves (fun s op hs => (change_of_act s op).isShuttingDown hs) hr

theorem grants_of_isShuttingDown (h : r.lifecycle.isShuttingDown = true) (op : Op) :
    r.grants op = none := by
  have hc := change_of_act r op
  generalize r.after op = s at hc
  cases hgranted : r.grants op with
  | none => rfl
  | some a =>
    rw [hgranted] at hc
    cases hc with
    | enters _ hready _ => simp [hready, Lifecycle.isShuttingDown] at h
    | greets hconnecting _ => simp [hconnecting, Lifecycle.isShuttingDown] at h

end Registry

namespace Call

/-- Whether the next look of the call is routine wherever the link is at. -/
def isPlain : Call → Bool
  | closing _ => false
  | dialling _ _ _ => false
  | _ => true

theorem allows_of_isPlain {c : Call} (h : c.isPlain = true)
    (P : Registry → Registry.Op → Prop) (r : Registry) : c.Allows P r := by
  cases c with
  | closing deadline? => cases h
  | dialling s limit deadline => cases h
  | _ => trivial

theorem Allows.mono {P Q : Registry → Registry.Op → Prop} (hPQ : ∀ r op, P r op → Q r op)
    {c : Call} {r : Registry} (h : c.Allows P r) : c.Allows Q r := by
  cases c with
  | closing deadline? => exact hPQ _ _ h
  | dialling s limit deadline => exact hPQ _ _ h
  | _ => trivial

theorem allows_closing {r : Registry} (h : r.lifecycle.isShuttingDown = true)
    (deadline? : Option Instant) : (closing deadline?).Allows Registry.Quiet r :=
  Or.inr ⟨h, _, rfl⟩

theorem Allows.later {c : Call} {r s : Registry} (h : c.Allows Registry.Quiet r)
    (hrs : r.LeadsTo s) : c.Allows Registry.Quiet s := by
  cases c with
  | closing deadline? =>
    rcases h with ⟨-, m, hm⟩ | ⟨hshut, -⟩
    · cases hm
    · exact allows_closing (hrs.isShuttingDown hshut) deadline?
  | dialling s limit deadline => exact h
  | _ => trivial

end Call

namespace Link

variable {l : Link} {now : Instant} {c d : Call}

/-! What a call waits on as -/

theorem waiting_awaitBy {h : Handle} {limit : Duration} {deadline? : Option Instant}
    (hd : l.awaitBy now h limit deadline? c = .waiting d) : d = c := by
  unfold awaitBy at hd
  split at hd
  · cases hd
  · split at hd
    · cases hd
    · exact (Progress.waiting.inj hd).symm

theorem outcome?_of_awaitBy {h : Handle} {limit : Duration} {deadline? : Option Instant}
    (hd : l.awaitBy now h limit deadline? c = .waiting d) : l.outcome? h = none := by
  unfold awaitBy at hd
  cases houtcome : l.outcome? h with
  | none => rfl
  | some o =>
    rw [houtcome] at hd
    cases hd

theorem waiting_awaitGreeting {h : Handle} {limit : Duration} {deadline : Instant}
    (hd : (l.awaitGreeting now h limit deadline).2 = .waiting d) :
    d = .greeted h limit deadline := by
  unfold awaitGreeting at hd
  split at hd
  · cases hd
  · cases hd
  · split at hd
    · cases hd
    · exact (Progress.waiting.inj hd).symm

/-- Whoever goes on with an errand and waits stands in line as before, or has sent its request
and waits for the answer. -/
theorem waiting_proceed {e : Errand} {a : Link × Registration}
    (hd : (proceed now e a).2 = .waiting d) :
    (∃ w, a.2 = .waiting w ∧ d = .inLine w e ∧ (proceed now e a).1 = a.1) ∨
      ∃ g p limit h l', a.2 = .granted g ∧ e = .execute p limit ∧
        a.1.transmit g p = (l', .ok h) ∧ (proceed now e a).1 = l' ∧ l'.outcome? h = none ∧
        d = .answered h limit (now.add? limit) := by
  obtain ⟨l, a⟩ := a
  cases a with
  | waiting w => exact Or.inl ⟨w, rfl, (Progress.waiting.inj hd).symm, rfl⟩
  | refused f => cases hd
  | granted g =>
    cases e with
    | register => cases hd
    | submit p =>
      simp only [proceed] at hd
      cases hanswer : (l.transmit g p).2 with
      | ok h => simp [hanswer, sent] at hd
      | error f => simp [hanswer, sent] at hd
    | execute p limit =>
      simp only [proceed] at hd ⊢
      cases hsent : l.transmit g p with
      | mk l' answer =>
        rw [hsent] at hd
        cases answer with
        | error f => cases hd
        | ok h =>
          exact Or.inr ⟨g, p, limit, h, l', rfl, rfl, hsent, rfl, outcome?_of_awaitBy hd,
            waiting_awaitBy hd⟩

/-- Whoever sets out to connect waits for the answer to the handshake. -/
theorem waiting_establish {s : Setup} {limit : Duration} {deadline : Instant}
    (hd : (l.establish now s limit deadline).2 = .waiting d) :
    ∃ h l', l.connect s = (l', .ok h) ∧ d = .greeted h limit deadline := by
  unfold establish at hd
  cases hconnect : l.connect s with
  | mk l' answer =>
    rw [hconnect] at hd
    cases answer with
    | error f => cases hd
    | ok h => exact ⟨h, l', rfl, waiting_awaitGreeting hd⟩

/-- A call that waits on is the same as before, unless it has come to its turn in line, or has
its socket. -/
theorem waiting_poll (hd : (c.poll now l).2 = .waiting d) :
    d = c ∨ (∃ w e, c = .inLine w e ∧ (proceed now e (l.via (·.resume w))).2 = .waiting d) ∨
      ∃ s limit deadline, c = .dialling s limit deadline ∧
        (l.establish now s limit deadline).2 = .waiting d := by
  cases c with
  | inLine w e => exact Or.inr (Or.inl ⟨w, e, rfl, hd⟩)
  | dialling s limit deadline => exact Or.inr (Or.inr ⟨s, limit, deadline, rfl, hd⟩)
  | greeted h limit deadline => exact Or.inl (waiting_awaitGreeting hd)
  | settledBy h limit deadline? => exact Or.inl (waiting_awaitBy hd)
  | answered h limit deadline? => exact Or.inl (waiting_awaitBy hd)
  | linking => cases hd
  | drained | closed | closing | settled =>
    simp only [Call.poll] at hd
    split at hd
    · cases hd
    · exact Or.inl (Progress.waiting.inj hd).symm

/-- Whoever closes a link waits for what is pending if it is the first, and for the end
otherwise. -/
theorem waiting_close (hd : (l.close now).2 = .waiting d) :
    (d = .closed ∨ d = .closing (now.add? l.closeTimeout)) ∧
      l.close now = d.poll now (l.via Registry.beginClosing).1 := by
  have hsame : ∀ {l' : Link} {c : Call}, (c = .closed ∨ ∃ t, c = .closing t) →
      (c.poll now l').2 = .waiting d → d = c := by
    rintro l' c hc hd
    rcases waiting_poll hd with rfl | ⟨w, e, rfl, -⟩ | ⟨s, limit, deadline, rfl, -⟩
    · rfl
    · simp at hc
    · simp at hc
  have htimeout : (l.via Registry.beginClosing).1.closeTimeout = l.closeTimeout := rfl
  unfold close at hd ⊢
  generalize l.via Registry.beginClosing = a at hd htimeout ⊢
  obtain ⟨l', first⟩ := a
  cases first with
  | false =>
    obtain rfl := hsame (Or.inl rfl) hd
    exact ⟨Or.inl rfl, rfl⟩
  | true =>
    dsimp only at hd htimeout ⊢
    split_ifs at hd with hhurry
    obtain rfl := hsame (Or.inr ⟨_, rfl⟩) hd
    rw [if_neg hhurry, htimeout]
    exact ⟨Or.inr rfl, rfl⟩

theorem isPlain_of_proceed {e : Errand} {a : Link × Registration}
    (hd : (proceed now e a).2 = .waiting d) : d.isPlain = true := by
  rcases waiting_proceed hd with ⟨w, -, rfl, -⟩ | ⟨g, p, limit, h, l', -, -, -, -, -, rfl⟩
  · rfl
  · rfl

theorem isPlain_of_poll (hd : (c.poll now l).2 = .waiting d) : d = c ∨ d.isPlain = true := by
  rcases waiting_poll hd with rfl | ⟨w, e, rfl, hd⟩ | ⟨s, limit, deadline, rfl, hd⟩
  · exact Or.inl rfl
  · exact Or.inr (isPlain_of_proceed hd)
  · obtain ⟨h, l', -, rfl⟩ := waiting_establish hd
    exact Or.inr rfl

theorem isShuttingDown_close (l : Link) (now : Instant) :
    (l.close now).1.lifecycle.isShuttingDown = true := by
  rcases l.close_cases now with ⟨p, hwaits⟩ | hends
  · rw [hwaits]
    exact l.registry.isShuttingDown_beginClosing
  · rw [hends, lifecycle_finishClose]
    rfl

end Link

namespace Scene

/-- Whether an action is one of a link, its loop and its peer: what else is done to the
registry is that requests are registered. -/
def Action.isOwn : Action → Bool
  | .registry op => op.isAtGate
  | _ => true

/-- Whether an action fails whatever is pending without a word to the loop. -/
def Action.failsAll : Action → Bool
  | .registry (.failAll _) => true
  | _ => false

theorem Action.failsAll_of_isOwn {a : Action} (h : a.isOwn = true) : a.failsAll = false := by
  cases a with
  | registry op =>
    cases op with
    | failAll f => cases h
    | _ => rfl
  | _ => rfl

/-- Whoever waits may have its next look quietly. -/
def Quiet (s : Scene) : Prop := ∀ c ∈ s.calls, c.Allows Registry.Quiet s.link.registry

theorem quiet_of_calls {s : Scene} (h : s.calls = []) : s.Quiet := by
  intro c hc
  rw [h] at hc
  exact absurd hc List.not_mem_nil

theorem mem_join {s : Scene} {a : Link × Progress} {c : Call} (h : c ∈ (s.join a).calls) :
    c ∈ s.calls ∨ a.2 = .waiting c := by
  obtain ⟨l, p⟩ := a
  cases p with
  | finished answer => exact Or.inl h
  | waiting d =>
    rcases List.mem_append.mp h with hold | hnew
    · exact Or.inl hold
    · rw [List.mem_singleton.mp hnew]
      exact Or.inr rfl

theorem mem_rejoin {s : Scene} {i : Nat} {a : Link × Progress} {c : Call}
    (h : c ∈ (s.rejoin i a).calls) : c ∈ s.calls ∨ a.2 = .waiting c := by
  obtain ⟨l, p⟩ := a
  cases p with
  | finished answer => exact Or.inl (List.mem_of_mem_eraseIdx h)
  | waiting d =>
    rcases List.mem_or_eq_of_mem_set h with hold | rfl
    · exact Or.inl hold
    · exact Or.inr rfl

/-- The call that has a look in an action. -/
def looks? (s : Scene) : Action → Option Call
  | .closed => some .closed
  | .drained => some .drained
  | .settled h => some (.settled h)
  | .waitFor h limit => some (.settledBy h limit (s.now.add? limit))
  | .poll i => s.calls[i]?
  | _ => none

theorem link_of_looks? {s : Scene} {a : Action} {c : Call} (h : s.looks? a = some c) :
    (s.perform a).link = (c.poll s.now s.link).1 := by
  cases a with
  | closed | drained | settled | waitFor =>
    obtain rfl := Option.some.inj h
    exact s.link_join _
  | poll i =>
    have hi : s.calls[i]? = some c := h
    rw [perform, hi]
    exact s.link_rejoin i _
  | _ => cases h

/-- How a call that waits after an action has come to wait. -/
inductive ComesToWait (s : Scene) : Action → Call → Prop
  | waits {a : Action} {c : Call} : c ∈ s.calls → ComesToWait s a c
  | starts {e : Errand} {c : Call} :
    (s.link.start s.now e).2 = .waiting c → ComesToWait s (.start e) c
  | closes {c : Call} : (s.link.close s.now).2 = .waiting c → ComesToWait s .close c
  | looks {a : Action} {c d : Call} : s.looks? a = some d →
    (d.poll s.now s.link).2 = .waiting c → ComesToWait s a c

/-- All the ways in which an action leaves a call waiting. -/
theorem comesToWait {s : Scene} {a : Action} {c : Call} (h : c ∈ (s.perform a).calls) :
    s.ComesToWait a c := by
  cases a with
  | start e => exact (mem_join h).elim .waits .starts
  | close => exact (mem_join h).elim .waits .closes
  | closed | drained | settled | waitFor => exact (mem_join h).elim .waits (.looks rfl)
  | poll i =>
    rw [perform] at h
    cases hi : s.calls[i]? with
    | none =>
      rw [hi] at h
      exact .waits h
    | some d =>
      rw [hi] at h
      exact (mem_rejoin h).elim .waits (.looks hi)
  | drop i =>
    rw [perform] at h
    cases hi : s.calls[i]? with
    | none =>
      rw [hi] at h
      exact .waits h
    | some d =>
      rw [hi] at h
      exact .waits (List.mem_of_mem_eraseIdx h)
  | loop e =>
    rw [perform] at h
    split at h
    · exact .waits h
    · exact .waits h
  | _ => exact .waits h

theorem isPlain_of_looks? {s : Scene} {a : Action} {c : Call} (h : s.looks? a = some c) :
    c ∈ s.calls ∨ c.isPlain = true := by
  cases a with
  | closed | drained | settled | waitFor =>
    obtain rfl := Option.some.inj h
    exact Or.inr rfl
  | poll i => exact Or.inl (List.mem_of_getElem? h)
  | _ => cases h

theorem Quiet.perform {s : Scene} (h : s.Quiet) (a : Action) : (s.perform a).Quiet := by
  intro c hc
  have hplain : c.isPlain = true → c.Allows Registry.Quiet (s.perform a).link.registry :=
    fun hplain => Call.allows_of_isPlain hplain _ _
  have hold : c ∈ s.calls → c.Allows Registry.Quiet (s.perform a).link.registry :=
    fun hold => (h c hold).later (s.leadsTo_perform a)
  cases comesToWait hc with
  | waits hc => exact hold hc
  | starts hd => exact hplain (Link.isPlain_of_proceed hd)
  | closes hd =>
    rcases (Link.waiting_close hd).1 with rfl | rfl
    · exact hplain rfl
    · refine Call.allows_closing ?_ _
      rw [Scene.perform, link_join]
      exact s.link.isShuttingDown_close s.now
  | looks hlook hd =>
    rcases Link.isPlain_of_poll hd with rfl | hd
    · exact (isPlain_of_looks? hlook).elim hold hplain
    · exact hplain hd

theorem Quiet.run {s : Scene} (h : s.Quiet) (acts : List Action) : (s.run acts).Quiet :=
  List.foldlRecOn acts Scene.perform h fun _ ht a _ => ht.perform a

/-- An action of a link is allowed whatever is quiet, apart from the handshake. -/
theorem Quiet.allows {s : Scene} (h : s.Quiet) {a : Action} (hown : a.isOwn = true)
    {P : Registry → Registry.Op → Prop} (hP : ∀ r op, Registry.Quiet r op → P r op)
    (hconnect : ∀ c, a = .connect c → P s.link.registry .greet)
    (hopens : ∀ f, s.delivered? a = some f → s.link.Opens f → P s.link.registry .markReady) :
    s.Allows P a where
  registry op ha := by
    subst ha
    exact hP _ _ (Link.routine_quiet.atGate _ op hown)
  connect := hconnect
  poll _ c _ hc := (h c (List.mem_of_getElem? hc)).mono hP
  opens := hopens

end Scene

end Switchboard
