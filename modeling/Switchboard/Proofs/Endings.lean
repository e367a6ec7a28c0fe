import Switchboard.Proofs.ClosingAnswers

/-!
What ends a link that is closing. The stream may break, a frame may be fatal, somebody may
have waited too long for the handshake, or the call that closes the link finds nothing
pending or its time over. `ending?` says for each action whether it ends the link, and with
which failure; every other action leaves the link closing. While it closes, a request that
is pending may still have its answer.
-/
namespace Switchboard

open Registry (Sound Staged LeadsTo)

namespace Registry

variable {r s : Registry}

/-- An operation that registers nobody takes requests off the table and adds none. -/
theorem Change.pending_sublist {op : Op} (hc : Change r op s none) :
    s.pending.Sublist r.pending := by
  cases hc with
  | waits _ _ => exact List.Sublist.refl _
  | stays _ => exact List.Sublist.refl _
  | notes _ => exact List.Sublist.refl _
  | strikes _ => exact List.erase_sublist
  | opens _ => exact List.Sublist.refl _
  | closes _ => exact List.Sublist.refl _
  | fails _ =>
    rw [pending_drain]
    exact List.nil_sublist _
  | failsLate _ => exact List.Sublist.refl _

theorem LeadsTo.pending_sublist (h : r.LeadsTo s) (hr : r.lifecycle.isShuttingDown = true) :
    s.pending.Sublist r.pending := by
  refine (h.preserves
    (I := fun s => s.lifecycle.isShuttingDown = true ∧ s.pending.Sublist r.pending) ?_
    ⟨hr, List.Sublist.refl _⟩).2
  rintro s op ⟨hs, hsub⟩
  have hc := change_of_act s op
  rw [grants_of_isShuttingDown hs] at hc
  exact ⟨hc.isShuttingDown hs, hc.pending_sublist.trans hsub⟩

theorem lifecycle_of_isAtGate (r : Registry) (op : Op) (hop : op.isAtGate = true) :
    (r.after op).lifecycle = r.lifecycle := by
  rcases (change_of_act r op).lifecycle with hsame | ⟨rfl, -⟩ | ⟨rfl, -⟩ | ⟨⟨f, rfl⟩, -⟩
  · exact hsame
  · cases hop
  · cases hop
  · cases hop

theorem isShuttingDown_of_closing (h : r.lifecycle = .closing) :
    r.lifecycle.isShuttingDown = true := by
  rw [h]
  rfl

theorem rejection_of_closing (h : r.lifecycle = .closing) :
    r.rejection = some (.closing "connection is closing") := by
  simp [rejection, h]

end Registry

namespace Link

variable {l l' : Link} {e : Failure}

namespace EndsWith

theorem of_pending {k : Link} (h : k.EndsWith l' e)
    (hk : k.registry.pending = l.registry.pending) : l.EndsWith l' e where
  lifecycle := h.lifecycle
  pending := h.pending
  closedWith := h.closedWith
  shutdown := h.shutdown
  outcome := hk ▸ h.outcome

theorem endLoop (h : l.EndsWith l' e) : l.EndsWith l'.endLoop e := by
  have hsame : l'.onTransportError loopGone = l' := by
    rw [onTransportError, h.lifecycle]
    rfl
  unfold Link.endLoop
  rw [hsame]
  exact ⟨h.lifecycle, h.pending, h.closedWith, h.shutdown, h.outcome⟩

end EndsWith

theorem endsWith_onTransportError (hl : Sound l.registry) (hopen : l.lifecycle ≠ .closed)
    (f : Failure) : l.EndsWith (l.onTransportError f) (lossOf l.lifecycle f) := by
  rw [onTransportError_of_open hopen]
  exact endsWith_fail hl hopen _

/-- The failure of requests that a close did not wait for. -/
def closedByClient : Failure := .closing "connection closed by client"

theorem endsWith_finishClose (hl : Sound l.registry) (hopen : l.lifecycle ≠ .closed) :
    l.EndsWith l.finishClose closedByClient where
  lifecycle := l.lifecycle_finishClose
  pending := Registry.pending_failAll hopen _
  closedWith := (Registry.over_failAll hopen _).closedWith
  shutdown := rfl
  outcome h hh := by
    have houtcome := Registry.outcome?_failAll hl hopen closedByClient h.ticket
    rw [if_pos (List.mem_map_of_mem hh)] at houtcome
    exact houtcome

/-! What breaks a link that is closing -/

/-- The failure with which a frame ends the link: it cannot be understood, or announces
under an ordinary identifier that the peer closes. -/
def breakageOfFrame? (l : Link) (f : Frame) : Option Failure :=
  match l.codec.deserialize f with
  | .error e => some (lossOf .closing e)
  | .ok ⟨id, .closingError m⟩ => if id.isHandshake then none else some (.closing m)
  | .ok _ => none

/-- The failure with which a write ends the link. -/
def breakageOfWrite? (l : Link) : Option Failure :=
  if l.stream.peerOpen then none else some (lossOf .closing (.io "broken pipe"))

/-- The failure with which an event of the loop ends the link. -/
def breakageOfEvent? (l : Link) : Event → Option Failure
  | .receive =>
    match l.inboundItem.1 with
    | .frame f => l.breakageOfFrame? f
    | .fault f => some (lossOf .closing (.io f.message))
    | .finished => some (.closing "connection closed by peer")
    | .starved => none
  | .send =>
    match l.outbox with
    | [] => none
    | f :: _ =>
      match Frame.toBytes f with
      | .ok _ => l.breakageOfWrite?
      | .error e => some (lossOf .closing (.io e.message))
  | .continueWriting =>
    match l.loop with
    | .writing _ => l.breakageOfWrite?
    | _ => none
  | .stop => some loopGone
  | .release => some loopGone

/-- What becomes of a link that is closing: it ends with the failure, if there is one, or
goes on closing. -/
def Fares (l : Link) (ending : Option Failure) (l' : Link) : Prop :=
  match ending with
  | some e => l.EndsWith l' e
  | none => l'.lifecycle = .closing

theorem Fares.of_pending {k : Link} {ending : Option Failure} (h : k.Fares ending l')
    (hk : k.registry.pending = l.registry.pending) : l.Fares ending l' := by
  cases ending with
  | some e => exact EndsWith.of_pending h hk
  | none => exact h

section Closing

variable (hl : Sound l.registry) (hc : l.lifecycle = .closing)

include hc

theorem ne_closed_of_closing : l.lifecycle ≠ .closed := by
  rw [hc]
  exact nofun

theorem ne_connecting_of_closing : l.lifecycle ≠ .connecting := by
  rw [hc]
  exact nofun

include hl

theorem fares_onTransportError (f : Failure) :
    l.Fares (some (lossOf .closing f)) (l.onTransportError f) := by
  have hends := endsWith_onTransportError hl (ne_closed_of_closing hc) f
  rwa [hc] at hends

theorem fares_endLoop_of_error (f : Failure) :
    l.Fares (some (lossOf .closing f)) (l.onTransportError f).endLoop :=
  EndsWith.endLoop (fares_onTransportError hl hc f)

theorem fares_endLoop : l.Fares (some loopGone) l.endLoop := by
  have hends := endsWith_onTransportError hl (ne_closed_of_closing hc) loopGone
  rw [hc] at hends
  exact ⟨hends.lifecycle, hends.pending, hends.closedWith, hends.shutdown, hends.outcome⟩

theorem fares_onFrame (hs : Staged l.registry) (f : Frame) :
    l.Fares (l.breakageOfFrame? f) (l.onFrame f) := by
  unfold breakageOfFrame? onFrame
  cases l.codec.deserialize f with
  | error e => exact fares_onTransportError hl hc e
  | ok a =>
    obtain ⟨id, b⟩ := a
    have hne := ne_connecting_of_closing hc
    by_cases hid : id = RequestId.handshake
    · have hlate : (l.onResponse ⟨id, b⟩).lifecycle = .closing := by
        rw [hid]
        exact (onResponse_late hne b).1.trans hc
      have hhandshake : id.isHandshake = true := (RequestId.isHandshake_iff id).mpr hid
      cases b with
      | closingError m =>
        simp only [hhandshake, if_true]
        exact hlate
      | _ => exact hlate
    · have hordinary : id.isHandshake = false := by simp [RequestId.isHandshake, hid]
      rcases l.onResponse_of_ordinary hid b with ⟨m, rfl, -⟩ | ⟨hb, heq⟩
      · obtain ⟨e, hends, -, he⟩ :=
          endsWith_onResponse hl hs (ne_closed_of_closing hc) m (Or.inl hid)
        simp only [hordinary, Bool.false_eq_true, if_false]
        rwa [he hne] at hends
      · have hsettled : (l.onResponse ⟨id, b⟩).lifecycle = .closing := by
          rw [heq, lifecycle, registry_via, Registry.lifecycle_settle]
          exact hc
        cases b with
        | closingError m => exact absurd rfl (hb m)
        | _ => exact hsettled

theorem fares_writeBytes (b : ByteArray) : l.Fares l.breakageOfWrite? (l.writeBytes b) := by
  unfold breakageOfWrite? writeBytes
  split
  · exact hc
  · exact fares_endLoop_of_error hl hc _

theorem fares_takeUp : l.Fares (l.breakageOfEvent? .send) l.takeUp := by
  unfold takeUp
  simp only [breakageOfEvent?]
  cases l.outbox with
  | nil => exact hc
  | cons f rest =>
    dsimp only
    cases Frame.toBytes f with
    | ok b => exact (fares_writeBytes (l := { l with outbox := rest }) hl hc b).of_pending rfl
    | error e =>
      exact (fares_endLoop_of_error (l := { l with outbox := rest }) hl hc _).of_pending rfl

theorem fares_receive (hs : Staged l.registry) :
    l.Fares (l.breakageOfEvent? .receive) l.receive := by
  unfold receive
  simp only [breakageOfEvent?]
  cases l.inboundItem with
  | mk item d =>
    cases item with
    | frame f =>
      exact (fares_onFrame (l := { l with deframer := d, stream.inbound := .empty })
        hl hc hs f).of_pending rfl
    | fault f =>
      exact (fares_endLoop_of_error (l := { l with deframer := d, stream.inbound := .empty })
        hl hc _).of_pending rfl
    | finished =>
      exact (fares_endLoop_of_error (l := { l with deframer := d, stream.inbound := .empty })
        hl hc (.closing "connection closed by peer")).of_pending rfl
    | starved => exact hc

theorem fares_handle (hs : Staged l.registry) (e : Event) :
    l.Fares (l.breakageOfEvent? e) (l.handle e) := by
  cases e with
  | receive => exact fares_receive hl hc hs
  | send => exact fares_takeUp hl hc
  | continueWriting =>
    simp only [breakageOfEvent?, handle]
    cases l.loop with
    | writing rest => exact fares_writeBytes hl hc rest
    | running => exact hc
    | ended => exact hc
  | stop => exact fares_endLoop hl hc
  | release => exact fares_endLoop hl hc

end Closing

/-! Who comes to a link that shuts down -/

theorem start_of_rejection {f : Failure} (h : l.registry.rejection = some f) (now : Instant)
    (e : Errand) : l.start now e = (l, .finished (.failed f)) := by
  simp [start, via, Registry.register, h, proceed]

theorem trySubmit_of_rejection {f : Failure} (h : l.registry.rejection = some f)
    (p : Payload) : l.trySubmit p = (l, .error f) := by
  simp [trySubmit, via, Registry.tryRegister, h]

theorem connect_of_ne (h : l.lifecycle ≠ .connecting) (s : Setup) :
    ∃ f, l.connect s = (l, .error f) := by
  rcases l.connect_results s with hrefused | ⟨g, hgreet, -⟩
  · exact hrefused
  · exact absurd (Registry.greet_of_ok hgreet).1 h

theorem establish_of_ne (h : l.lifecycle ≠ .connecting) (now : Instant) (s : Setup)
    (limit : Duration) (deadline : Instant) : (l.establish now s limit deadline).1 = l := by
  obtain ⟨f, hf⟩ := connect_of_ne h s
  simp [establish, hf]

theorem close_of_isShuttingDown (h : l.lifecycle.isShuttingDown = true) (now : Instant) :
    l.close now = Call.closed.poll now l := by
  have hshut : l.registry.lifecycle.isShuttingDown = true := h
  simp [close, via, Registry.beginClosing, hshut]

theorem proceed_of_not_granted {a : Link × Registration} (h : a.2.handle? = none)
    (now : Instant) (e : Errand) : (proceed now e a).1 = a.1 := by
  obtain ⟨l, a⟩ := a
  cases a with
  | granted g => cases h
  | waiting w => rfl
  | refused f => rfl

end Link

namespace Call

/-- Whether a look of the call brings a close to its end. -/
def finishes (now : Instant) (l : Link) : Call → Bool
  | closing deadline? => l.registry.isDrained || now.passed deadline?
  | _ => false

/-- The failure with which a look of the call breaks the link: nobody has answered the
handshake in time. -/
def breakage? (now : Instant) (l : Link) : Call → Option Failure
  | greeted h limit deadline =>
    if (l.outcome? h).isNone && now.reached deadline then
      some (Link.lossOf .closing (Link.connectTimeout limit))
    else none
  | _ => none

/-- The failure with which a look of the call ends a link that is closing. -/
def ending? (now : Instant) (l : Link) (c : Call) : Option Failure :=
  if c.finishes now l then some Link.closedByClient else c.breakage? now l

theorem fares_poll {l : Link} (hl : Sound l.registry) (hc : l.lifecycle = .closing)
    (now : Instant) (c : Call) : l.Fares (c.ending? now l) (c.poll now l).1 := by
  cases c with
  | inLine w e =>
    have hshut : l.registry.lifecycle.isShuttingDown = true :=
      Registry.isShuttingDown_of_closing hc
    have hnobody : (l.via (·.resume w)).2.handle? = none :=
      Registry.grants_of_isShuttingDown hshut (.resume w)
    have hlife : (l.via (·.resume w)).1.lifecycle = .closing :=
      (l.registry.lifecycle_of_isAtGate (.resume w) rfl).trans hc
    rw [poll, Link.proceed_of_not_granted hnobody]
    exact hlife
  | closing deadline? =>
    by_cases hdone : (closing deadline?).finishes now l = true
    · have hover : (l.registry.isDrained || now.passed deadline?) = true := hdone
      rw [ending?, if_pos hdone, poll, if_pos hover]
      exact Link.endsWith_finishClose hl (Link.ne_closed_of_closing hc)
    · have hover : ¬ (l.registry.isDrained || now.passed deadline?) = true := hdone
      rw [ending?, if_neg hdone, poll, if_neg hover]
      exact hc
  | dialling s limit deadline =>
    rw [poll, Link.establish_of_ne (Link.ne_connecting_of_closing hc)]
    exact hc
  | greeted h limit deadline =>
    simp only [ending?, finishes, breakage?, poll, Link.awaitGreeting]
    cases houtcome : l.outcome? h with
    | some o =>
      cases o with
      | ok reply => exact hc
      | error f => exact hc
    | none =>
      cases hreached : now.reached deadline with
      | true => exact Link.fares_onTransportError hl hc _
      | false => exact hc
  | drained | closed | settled | settledBy | answered | linking => exact hc

theorem lifecycle_drop (l : Link) (c : Call) : (c.drop l).lifecycle = l.lifecycle := by
  cases c with
  | inLine w e => exact l.registry.lifecycle_of_isAtGate (.abandon w) rfl
  | _ => rfl

end Call

namespace Scene

/-- Whether an action is the look with which a close comes to its end. -/
def finishes (s : Scene) : Action → Bool
  | .poll i => s.calls[i]?.any (Call.finishes s.now s.link)
  | _ => false

/-- The failure with which an action breaks the link while it is closing. -/
def breakage? (s : Scene) : Action → Option Failure
  | .frame f => s.link.breakageOfFrame? f
  | .fault f => some (Link.lossOf .closing f)
  | .poll i => s.calls[i]?.bind (Call.breakage? s.now s.link)
  | .loop e => if e ∈ s.link.ready s.isHeld then s.link.breakageOfEvent? e else none
  | _ => none

/-- The failure with which an action ends the link while it is closing. -/
def ending? (s : Scene) (a : Action) : Option Failure :=
  if s.finishes a then some Link.closedByClient else s.breakage? a

theorem ending?_poll (s : Scene) (i : Nat) :
    s.ending? (.poll i) = s.calls[i]?.bind (Call.ending? s.now s.link) := by
  cases hi : s.calls[i]? with
  | none => simp [ending?, finishes, breakage?, hi]
  | some c => simp [ending?, finishes, breakage?, hi, Call.ending?]

/-- What an action does to a link that is closing: it ends the link, with the failure that
`ending?` says, or the link goes on closing. -/
theorem fares_perform {s : Scene} (hl : Sound s.link.registry) (hs : Staged s.link.registry)
    (hc : s.link.lifecycle = .closing) {a : Action} (hown : a.isOwn = true) :
    s.link.Fares (s.ending? a) (s.perform a).link := by
  have hrejection := Registry.rejection_of_closing (r := s.link.registry) hc
  have hne := Link.ne_connecting_of_closing hc
  cases a with
  | registry op => exact (s.link.registry.lifecycle_of_isAtGate op hown).trans hc
  | start e =>
    rw [perform, link_join, Link.start_of_rejection hrejection]
    exact hc
  | trySubmit p =>
    rw [perform, Link.trySubmit_of_rejection hrejection]
    exact hc
  | connect c =>
    obtain ⟨f, hf⟩ := Link.connect_of_ne hne c
    rw [perform, hf]
    exact hc
  | send f =>
    have hsame : (s.link.send f).1.lifecycle = s.link.lifecycle := by
      rw [Link.lifecycle, s.link.registry_send]
      rfl
    exact hsame.trans hc
  | frame f => exact Link.fares_onFrame hl hc hs f
  | fault f => exact Link.fares_onTransportError hl hc f
  | close =>
    rw [perform, link_join,
      Link.close_of_isShuttingDown (Registry.isShuttingDown_of_closing hc)]
    exact hc
  | closed | drained | settled | waitFor =>
    rw [perform, link_join]
    exact hc
  | poll i =>
    rw [ending?_poll, perform]
    cases s.calls[i]? with
    | none => exact hc
    | some c =>
      dsimp only
      rw [link_rejoin]
      exact Call.fares_poll hl hc s.now c
  | drop i =>
    rw [perform]
    cases s.calls[i]? with
    | none => exact hc
    | some c => exact (c.lifecycle_drop s.link).trans hc
  | loop e =>
    simp only [ending?, finishes, breakage?, perform]
    by_cases he : e ∈ s.link.ready s.isHeld
    · simp only [he, if_true]
      exact Link.fares_handle hl hc hs e
    · simp only [he, if_false]
      exact hc
  | advance d => exact hc
  | clone => exact hc
  | release => exact hc
  | peerWrite b => exact hc
  | peerRead => exact hc
  | peerClose => exact hc

end Scene

end Switchboard
