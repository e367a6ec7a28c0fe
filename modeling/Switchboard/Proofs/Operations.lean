import Switchboard.Proofs.LoopAgreement

/-!
What happens to a link, told as operations of its registry. For everything that callers, the
peer and the loop do there is the list of operations that it carries out, in their order.
`Does` ties the list to what is left of the registry. Whoever stands in line comes back only
when its call has a look, and is given up only with its call.
-/
namespace Switchboard

open Registry (Op)

/-- The operations lead from one registry to the other, and none of them is one of a waiter
in line. -/
structure Registry.Does (r : Registry) (ops : List Op) (s : Registry) : Prop where
  eq_run : s = r.run ops
  waiter? : ∀ op ∈ ops, op.waiter? = none

namespace Registry.Does

variable {r s t : Registry} {ops more : List Op}

theorem refl (r : Registry) : r.Does [] r := ⟨rfl, nofun⟩

theorem of_eq (h : s = r) : r.Does [] s := ⟨h, nofun⟩

theorem trans (h : r.Does ops s) (h' : s.Does more t) : r.Does (ops ++ more) t where
  eq_run := by rw [h'.eq_run, h.eq_run, run_append]
  waiter? op hop := (List.mem_append.mp hop).elim (h.waiter? op) (h'.waiter? op)

theorem after (r : Registry) {op : Op} (hop : op.waiter? = none) :
    r.Does [op] (r.after op) where
  eq_run := rfl
  waiter? := List.forall_mem_singleton.mpr hop

end Registry.Does

namespace Link

open Registry (Does)

/-! What breaks a link -/

def failOps (l : Link) (f : Failure) : List Op :=
  (if l.lifecycle = .connecting then [] else [.beginClosing]) ++ [.failAll f]

def errorOps (l : Link) (f : Failure) : List Op :=
  if l.lifecycle.isClosed then [] else l.failOps (lossOf l.lifecycle f)

/-- The end of a loop in which something has failed. -/
def breakOps (l : Link) (f : Failure) : List Op :=
  l.errorOps f ++ (l.onTransportError f).errorOps loopGone

theorem does_settle (l : Link) (id : RequestId) (o : Outcome) :
    l.registry.Does [.settle id o] (l.via (·.settle id o)).1.registry :=
  .after _ rfl

theorem does_failAll (l : Link) (f : Failure) :
    l.registry.Does [.failAll f] (l.via (·.failAll f)).1.registry :=
  .after _ rfl

theorem does_beginClosing (l : Link) :
    l.registry.Does [.beginClosing] (l.via Registry.beginClosing).1.registry :=
  .after _ rfl

theorem does_fail (l : Link) (f : Failure) :
    l.registry.Does (l.failOps f) (l.fail f).registry := by
  have hdoes : l.registry.Does (l.failOps f)
      ((if l.lifecycle = .connecting then l else (l.via Registry.beginClosing).1).via
        (·.failAll f)).1.registry := by
    unfold failOps
    split
    · exact (Does.refl _).trans (l.does_failAll f)
    · exact l.does_beginClosing.trans (does_failAll _ f)
  exact ⟨(l.registry_fail f).trans hdoes.eq_run, hdoes.waiter?⟩

theorem does_onTransportError (l : Link) (f : Failure) :
    l.registry.Does (l.errorOps f) (l.onTransportError f).registry := by
  unfold errorOps onTransportError
  split
  · exact .refl _
  · exact l.does_fail _

theorem does_endLoop (l : Link) : l.registry.Does (l.errorOps loopGone) l.endLoop.registry :=
  l.does_onTransportError loopGone

theorem does_endLoop_of_error (l : Link) (f : Failure) :
    l.registry.Does (l.breakOps f) (l.onTransportError f).endLoop.registry :=
  (l.does_onTransportError f).trans (does_endLoop _)

/-! Frames from the peer -/

def handshakeOps (l : Link) (b : Body) : List Op :=
  if l.lifecycle ≠ .connecting then
    [.settle RequestId.handshake (.error (lateHandshake l.registry))]
  else
    match handshakeComplaint b with
    | none => [.markReady, .settle RequestId.handshake (.ok .ok)]
    | some m => l.failOps (.handshakeFailed m)

def responseOps (l : Link) (a : Response) : List Op :=
  if a.id.isHandshake then l.handshakeOps a.body
  else
    .settle a.id a.body.outcome ::
      match a.body with
      | .closingError m => (l.via (·.settle a.id a.body.outcome)).1.errorOps (.closing m)
      | _ => []

def frameOps (l : Link) (f : Frame) : List Op :=
  match l.codec.deserialize f with
  | .ok a => l.responseOps a
  | .error e => l.errorOps e

theorem does_onHandshake (l : Link) (b : Body) :
    l.registry.Does (l.handshakeOps b) (l.onHandshake b).registry := by
  unfold handshakeOps onHandshake
  split
  · exact l.does_settle _ _
  · cases handshakeComplaint b with
    | none =>
      have hmark : l.registry.Does [.markReady] (l.via Registry.markReady).1.registry :=
        .after _ rfl
      exact hmark.trans (does_settle _ _ _)
    | some m => exact l.does_fail _

theorem does_onResponse (l : Link) (a : Response) :
    l.registry.Does (l.responseOps a) (l.onResponse a).registry := by
  obtain ⟨id, b⟩ := a
  unfold responseOps onResponse
  split
  · exact l.does_onHandshake b
  · have hsettle := l.does_settle id b.outcome
    cases b with
    | closingError m => exact hsettle.trans (does_onTransportError _ _)
    | ok => exact hsettle
    | nil => exact hsettle
    | value v => exact hsettle
    | requestError k m => exact hsettle

theorem does_onFrame (l : Link) (f : Frame) :
    l.registry.Does (l.frameOps f) (l.onFrame f).registry := by
  unfold frameOps onFrame
  cases l.codec.deserialize f with
  | ok a => exact l.does_onResponse a
  | error e => exact l.does_onTransportError e

/-! What callers do -/

def connectOps (l : Link) (s : Setup) : List Op :=
  .greet ::
    match l.via Registry.greet with
    | (_, .error _) => []
    | (l, .ok _) =>
      match l.codec.serialize RequestId.handshake (.connect s) with
      | .error f => l.failOps (.handshakeFailed ("cannot encode setup: " ++ f.message))
      | .ok frame =>
        match l.enqueue frame with
        | some _ => []
        | none => l.errorOps loopGone

def transmitOps (l : Link) (h : Handle) (p : Payload) : List Op :=
  match l.codec.serialize h.id p with
  | .error f => [.settle h.id (.error f)]
  | .ok frame =>
    match (l.send frame).2 with
    | .ok () => []
    | .error f => [.settle h.id (.error f)]

def proceedOps (e : Errand) : Link × Registration → List Op
  | (l, .granted h) =>
    match e with
    | .register => []
    | .submit p => l.transmitOps h p
    | .execute p _ => l.transmitOps h p
  | _ => []

def startOps (l : Link) (e : Errand) : List Op :=
  .register :: proceedOps e (l.via Registry.register)

def trySubmitOps (l : Link) (p : Payload) : List Op :=
  .tryRegister ::
    match l.via Registry.tryRegister with
    | (l, .ok h) => l.transmitOps h p
    | (_, .error _) => []

/-- A handshake that is not answered in time breaks the link. -/
def greetingOps (l : Link) (now : Instant) (h : Handle) (limit : Duration)
    (deadline : Instant) : List Op :=
  match l.outcome? h with
  | some _ => []
  | none => if now.reached deadline then l.errorOps (connectTimeout limit) else []

def establishOps (l : Link) (now : Instant) (s : Setup) (limit : Duration)
    (deadline : Instant) : List Op :=
  l.connectOps s ++
    match l.connect s with
    | (_, .error _) => []
    | (l, .ok h) => l.greetingOps now h limit deadline

theorem does_connect (l : Link) (s : Setup) :
    l.registry.Does (l.connectOps s) (l.connect s).1.registry := by
  have hgreet : l.registry.Does [.greet] (l.via Registry.greet).1.registry :=
    .after _ rfl
  unfold connectOps connect
  generalize l.via Registry.greet = a at hgreet ⊢
  obtain ⟨l', answer⟩ := a
  cases answer with
  | error f => exact hgreet
  | ok h =>
    dsimp only
    cases l'.codec.serialize RequestId.handshake (.connect s) with
    | error f => exact hgreet.trans (l'.does_fail _)
    | ok frame =>
      dsimp only
      cases henqueue : l'.enqueue frame with
      | some l'' => exact hgreet.trans (.of_eq (registry_enqueue henqueue))
      | none => exact hgreet.trans (l'.does_onTransportError _)

theorem does_transmit (l : Link) (h : Handle) (p : Payload) :
    l.registry.Does (l.transmitOps h p) (l.transmit h p).1.registry := by
  unfold transmitOps transmit
  cases l.codec.serialize h.id p with
  | error f => exact l.does_settle _ _
  | ok frame =>
    have hsend : l.registry.Does [] (l.send frame).1.registry := .of_eq (l.registry_send frame)
    dsimp only
    generalize l.send frame = a at hsend ⊢
    obtain ⟨l', answer⟩ := a
    cases answer with
    | ok u => exact hsend
    | error f => exact hsend.trans (l'.does_settle _ _)

theorem does_proceed (now : Instant) (e : Errand) (a : Link × Registration) :
    a.1.registry.Does (proceedOps e a) (proceed now e a).1.registry := by
  obtain ⟨l, a⟩ := a
  cases a with
  | waiting w => exact .refl _
  | refused f => exact .refl _
  | granted h =>
    cases e with
    | register => exact .refl _
    | submit p => exact l.does_transmit h p
    | execute p limit =>
      rw [link_proceed_execute]
      exact l.does_transmit h p

theorem does_start (l : Link) (now : Instant) (e : Errand) :
    l.registry.Does (l.startOps e) (l.start now e).1.registry := by
  have hregister : l.registry.Does [.register] (l.via Registry.register).1.registry :=
    .after _ rfl
  exact hregister.trans (does_proceed now e _)

theorem does_trySubmit (l : Link) (p : Payload) :
    l.registry.Does (l.trySubmitOps p) (l.trySubmit p).1.registry := by
  have hregister : l.registry.Does [.tryRegister] (l.via Registry.tryRegister).1.registry :=
    .after _ rfl
  unfold trySubmitOps trySubmit
  generalize l.via Registry.tryRegister = a at hregister ⊢
  obtain ⟨l', answer⟩ := a
  cases answer with
  | ok h => exact hregister.trans (l'.does_transmit h p)
  | error f => exact hregister

theorem does_awaitGreeting (l : Link) (now : Instant) (h : Handle) (limit : Duration)
    (deadline : Instant) :
    l.registry.Does (l.greetingOps now h limit deadline)
      (l.awaitGreeting now h limit deadline).1.registry := by
  unfold greetingOps awaitGreeting
  cases l.outcome? h with
  | some o => cases o <;> exact .refl _
  | none =>
    dsimp only
    split
    · exact l.does_onTransportError _
    · exact .refl _

theorem does_establish (l : Link) (now : Instant) (s : Setup) (limit : Duration)
    (deadline : Instant) :
    l.registry.Does (l.establishOps now s limit deadline)
      (l.establish now s limit deadline).1.registry := by
  have hconnect := l.does_connect s
  unfold establishOps establish
  generalize l.connect s = a at hconnect ⊢
  obtain ⟨l', answer⟩ := a
  cases answer with
  | error f => exact hconnect.trans (.refl _)
  | ok h => exact hconnect.trans (l'.does_awaitGreeting now h limit deadline)

/-! The loop -/

def writeOps (l : Link) : List Op :=
  if l.stream.peerOpen then [] else l.breakOps (.io "broken pipe")

def takeUpOps (l : Link) : List Op :=
  match l.outbox with
  | [] => []
  | f :: rest =>
    match Frame.toBytes f with
    | .ok _ => writeOps { l with outbox := rest }
    | .error e => breakOps { l with outbox := rest } (.io e.message)

def receiveOps (l : Link) : List Op :=
  let read : Link := { l with deframer := l.inboundItem.2, stream.inbound := .empty }
  match l.inboundItem.1 with
  | .frame f => read.frameOps f
  | .fault f => read.breakOps (.io f.message)
  | .finished => read.breakOps (.closing "connection closed by peer")
  | .starved => []

def eventOps (l : Link) : Event → List Op
  | .receive => l.receiveOps
  | .send => l.takeUpOps
  | .continueWriting =>
    match l.loop with
    | .writing _ => l.writeOps
    | _ => []
  | .stop => l.errorOps loopGone
  | .release => l.errorOps loopGone

/-- The stream fails while the loop reads. -/
def failReadOps (l : Link) (message : String) : List Op :=
  match l.loop with
  | .running => l.breakOps (.io message)
  | _ => []

/-- The stream fails while the loop writes. -/
def failWriteOps (l : Link) (message : String) : List Op :=
  match l.loop, l.outbox with
  | .running, _ :: rest => breakOps { l with outbox := rest } (.io message)
  | .writing _, _ => l.breakOps (.io message)
  | _, _ => []

theorem does_writeBytes (l : Link) (b : ByteArray) :
    l.registry.Does l.writeOps (l.writeBytes b).registry := by
  unfold writeOps writeBytes
  split
  · exact .of_eq rfl
  · exact l.does_endLoop_of_error _

theorem does_takeUp (l : Link) : l.registry.Does l.takeUpOps l.takeUp.registry := by
  unfold takeUpOps takeUp
  cases l.outbox with
  | nil => exact .refl _
  | cons f rest =>
    dsimp only
    cases Frame.toBytes f with
    | ok b => exact does_writeBytes { l with outbox := rest } b
    | error e => exact does_endLoop_of_error { l with outbox := rest } _

theorem does_receive (l : Link) : l.registry.Does l.receiveOps l.receive.registry := by
  unfold receiveOps receive
  generalize l.inboundItem = a
  obtain ⟨item, d⟩ := a
  cases item with
  | frame f => exact does_onFrame { l with deframer := d, stream.inbound := .empty } f
  | fault f => exact does_endLoop_of_error { l with deframer := d, stream.inbound := .empty } _
  | finished => exact does_endLoop_of_error { l with deframer := d, stream.inbound := .empty } _
  | starved => exact .of_eq rfl

theorem does_handle (l : Link) (e : Event) :
    l.registry.Does (l.eventOps e) (l.handle e).registry := by
  cases e with
  | receive => exact l.does_receive
  | send => exact l.does_takeUp
  | continueWriting =>
    unfold eventOps handle
    cases l.loop with
    | writing rest => exact l.does_writeBytes rest
    | running => exact .refl _
    | ended => exact .refl _
  | stop => exact l.does_endLoop
  | release => exact l.does_endLoop

theorem does_failRead (l : Link) (message : String) :
    l.registry.Does (l.failReadOps message) (l.failRead message).registry := by
  unfold failReadOps failRead
  cases l.loop with
  | running => exact l.does_endLoop_of_error _
  | writing rest => exact .refl _
  | ended => exact .refl _

theorem does_failWrite (l : Link) (message : String) :
    l.registry.Does (l.failWriteOps message) (l.failWrite message).registry := by
  unfold failWriteOps failWrite
  cases l.loop with
  | running =>
    cases l.outbox with
    | nil => exact .refl _
    | cons f rest => exact does_endLoop_of_error { l with outbox := rest, loop := .running } _
  | writing rest => exact l.does_endLoop_of_error _
  | ended => exact .refl _

end Link

/-! Calls -/

namespace Call

/-- The place in line that the call holds. -/
def place? : Call → Option Waiter
  | inLine w _ => some w
  | _ => none

/-- The operations of a look. -/
def lookOps (now : Instant) (l : Link) : Call → List Op
  | inLine w e => .resume w :: Link.proceedOps e (l.via (·.resume w))
  | closing deadline? =>
    if l.registry.isDrained || now.passed deadline? then [.failAll Link.closedByClient] else []
  | dialling s limit deadline => l.establishOps now s limit deadline
  | greeted h limit deadline => l.greetingOps now h limit deadline
  | _ => []

/-- Whoever is given up leaves the line. -/
def dropOps : Call → List Op
  | inLine w _ => [.abandon w]
  | _ => []

theorem does_poll (now : Instant) (l : Link) {c : Call} (hc : c.place? = none) :
    l.registry.Does (c.lookOps now l) (c.poll now l).1.registry := by
  cases c with
  | inLine w e => cases hc
  | closing deadline? =>
    rw [lookOps, poll]
    split
    · exact l.does_failAll Link.closedByClient
    · exact .refl _
  | dialling s limit deadline => exact l.does_establish now s limit deadline
  | greeted h limit deadline => exact l.does_awaitGreeting now h limit deadline
  | drained | closed | settled | settledBy | answered | linking => exact .refl _

theorem does_proceed_of_inLine (now : Instant) (l : Link) (w : Waiter) (e : Errand) :
    (l.registry.after (.resume w)).Does (Link.proceedOps e (l.via (·.resume w)))
      ((inLine w e).poll now l).1.registry :=
  Link.does_proceed now e (l.via (·.resume w))

theorem registry_poll (now : Instant) (l : Link) (c : Call) :
    (c.poll now l).1.registry = l.registry.run (c.lookOps now l) := by
  cases hc : c.place? with
  | none => exact (does_poll now l hc).eq_run
  | some u =>
    cases c with
    | inLine w e => exact (does_proceed_of_inLine now l w e).eq_run
    | _ => cases hc

/-- The operation of a waiter in a look is that the waiter of the call comes back. -/
theorem resume_of_mem_lookOps {now : Instant} {l : Link} {c : Call} {op : Op} {w : Waiter}
    (hop : op ∈ c.lookOps now l) (hw : op.waiter? = some w) :
    op = .resume w ∧ c.place? = some w := by
  have hnone : op.waiter? ≠ none := by simp [hw]
  cases hc : c.place? with
  | none => exact absurd ((does_poll now l hc).waiter? op hop) hnone
  | some u =>
    cases c with
    | inLine u' e =>
      rcases List.mem_cons.mp hop with rfl | htail
      · exact ⟨by rw [Option.some.inj hw], hc.symm.trans hw⟩
      · exact absurd ((does_proceed_of_inLine now l u' e).waiter? op htail) hnone
    | _ => cases hc

theorem registry_drop (l : Link) (c : Call) :
    (c.drop l).registry = l.registry.run c.dropOps := by
  cases c with
  | inLine w e => rfl
  | _ => rfl

end Call

namespace Link

def closeOps (l : Link) (now : Instant) : List Op :=
  .beginClosing ::
    match l.via Registry.beginClosing with
    | (_, false) => []
    | (l, true) =>
      if l.closeTimeout.isZero then [.failAll closedByClient]
      else (Call.closing (now.add? l.closeTimeout)).lookOps now l

theorem does_close (l : Link) (now : Instant) :
    l.registry.Does (l.closeOps now) (l.close now).1.registry := by
  have hbegin := l.does_beginClosing
  unfold closeOps close
  generalize l.via Registry.beginClosing = a at hbegin ⊢
  obtain ⟨l', first⟩ := a
  cases first with
  | false => exact hbegin
  | true =>
    dsimp only
    split
    · exact hbegin.trans (l'.does_failAll closedByClient)
    · exact hbegin.trans (Call.does_poll now l' (c := .closing (now.add? l'.closeTimeout)) rfl)

end Link

namespace Scene

/-- The operations of an action. -/
def opsOf (s : Scene) : Action → List Op
  | .registry op => [op]
  | .start e => s.link.startOps e
  | .trySubmit p => s.link.trySubmitOps p
  | .connect c => s.link.connectOps c
  | .frame f => s.link.frameOps f
  | .fault f => s.link.errorOps f
  | .close => s.link.closeOps s.now
  | .poll i => (s.calls[i]?.map (·.lookOps s.now s.link)).getD []
  | .drop i => (s.calls[i]?.map Call.dropOps).getD []
  | .loop e => if e ∈ s.link.ready s.isHeld then s.link.eventOps e else []
  | _ => []

/-- The operations of whatever happens to a link. -/
def opsAmid (s : Scene) : Incident → List Op
  | .act a => s.opsOf a
  | .readError m => s.link.failReadOps m
  | .writeError m => s.link.failWriteOps m

/-- Whether an action is done to the registry behind the link, or to a call that waits. -/
def Action.isAside : Action → Bool
  | .registry _ => true
  | .poll _ => true
  | .drop _ => true
  | _ => false

variable (s : Scene)

theorem does_perform {a : Action} (ha : a.isAside = false) :
    s.link.registry.Does (s.opsOf a) (s.perform a).link.registry := by
  have hlook : ∀ c : Call, c.place? = none → c.lookOps s.now s.link = [] →
      s.link.registry.Does [] (s.join (c.poll s.now s.link)).link.registry := by
    intro c hplace hc
    rw [link_join, ← hc]
    exact Call.does_poll s.now s.link hplace
  cases a with
  | registry op => cases ha
  | poll i => cases ha
  | drop i => cases ha
  | start e =>
    rw [perform, link_join]
    exact s.link.does_start s.now e
  | trySubmit p => exact s.link.does_trySubmit p
  | connect c => exact s.link.does_connect c
  | send f => exact .of_eq (s.link.registry_send f)
  | frame f => exact s.link.does_onFrame f
  | fault f => exact s.link.does_onTransportError f
  | close =>
    rw [perform, link_join]
    exact s.link.does_close s.now
  | closed => exact hlook .closed rfl rfl
  | drained => exact hlook .drained rfl rfl
  | settled h => exact hlook (.settled h) rfl rfl
  | waitFor h limit => exact hlook (.settledBy h limit (s.now.add? limit)) rfl rfl
  | loop e =>
    rw [opsOf, perform]
    split
    · exact s.link.does_handle e
    · exact .refl _
  | advance d => exact .refl _
  | clone => exact .refl _
  | release => exact .refl _
  | peerWrite b => exact .of_eq rfl
  | peerRead => exact .of_eq rfl
  | peerClose => exact .of_eq rfl

theorem registry_perform (a : Action) :
    (s.perform a).link.registry = s.link.registry.run (s.opsOf a) := by
  cases haside : a.isAside with
  | false => exact (s.does_perform haside).eq_run
  | true =>
    cases a with
    | registry op => rfl
    | poll i =>
      rw [opsOf, perform]
      cases s.calls[i]? with
      | none => rfl
      | some c =>
        dsimp only [Option.map_some, Option.getD_some]
        rw [link_rejoin]
        exact Call.registry_poll s.now s.link c
    | drop i =>
      rw [opsOf, perform]
      cases s.calls[i]? with
      | none => rfl
      | some c => exact c.registry_drop s.link
    | _ => cases haside

/-- The operations lead from the registry before to the registry after. -/
theorem registry_onIncident (i : Incident) :
    (s.onIncident i).link.registry = s.link.registry.run (s.opsAmid i) := by
  cases i with
  | act a => exact s.registry_perform a
  | readError m => exact (s.link.does_failRead m).eq_run
  | writeError m => exact (s.link.does_failWrite m).eq_run

/-- A waiter in line is asked for by its own call alone, unless somebody turns to the
registry behind the link. -/
theorem mem_opsAmid {i : Incident} {op : Op} {w : Waiter} (hop : op ∈ s.opsAmid i)
    (hw : op.waiter? = some w) :
    i = .act (.registry op) ∨
      ∃ n c, s.calls[n]? = some c ∧ c.place? = some w ∧
        (i = .act (.poll n) ∧ op = .resume w ∨ i = .act (.drop n) ∧ op = .abandon w) := by
  have hnone : op.waiter? ≠ none := by simp [hw]
  cases i with
  | readError m => exact absurd ((s.link.does_failRead m).waiter? op hop) hnone
  | writeError m => exact absurd ((s.link.does_failWrite m).waiter? op hop) hnone
  | act a =>
    cases haside : a.isAside with
    | false => exact absurd ((s.does_perform haside).waiter? op hop) hnone
    | true =>
      cases a with
      | registry op' => exact Or.inl (by rw [List.mem_singleton.mp hop])
      | poll n =>
        rw [opsAmid, opsOf] at hop
        cases hn : s.calls[n]? with
        | none => simp [hn] at hop
        | some c =>
          rw [hn] at hop
          obtain ⟨hresume, hplace⟩ := Call.resume_of_mem_lookOps hop hw
          exact Or.inr ⟨n, c, hn, hplace, Or.inl ⟨rfl, hresume⟩⟩
      | drop n =>
        rw [opsAmid, opsOf] at hop
        cases hn : s.calls[n]? with
        | none => simp [hn] at hop
        | some c =>
          rw [hn] at hop
          cases c with
          | inLine u e =>
            obtain rfl := List.mem_singleton.mp hop
            exact Or.inr ⟨n, _, hn, hw, Or.inr ⟨rfl, by rw [Option.some.inj hw]⟩⟩
          | _ => cases hop
      | _ => cases haside

end Scene

end Switchboard
