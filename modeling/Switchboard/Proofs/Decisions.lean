import Switchboard.Proofs.Greeting
import Switchboard.Proofs.LoopAgreement

/-!
What decides about an attempt to connect: an answer to the handshake, the announcement of the
peer that it closes, a frame that cannot be understood, the end of the stream or an error of
it, a setup that cannot be encoded or written, and the clock. Other answers of the peer
decide nothing. While a link connects it heeds what is decided: it opens, or ends with the
message of the decision, or goes on connecting with the handshake as the one pending request.
-/
namespace Switchboard

open Registry (Sound Staged LeadsTo)

theorem Registry.greet_of_connecting {r : Registry} (hc : r.lifecycle = .connecting)
    (hfirst : r.greeted = false) :
    ∃ h, r.greet.2 = .ok h ∧ r.greet.1.lifecycle = .connecting ∧ h ∈ r.greet.1.pending := by
  have hgreet : r.greet = ({ r.file RequestId.handshake with greeted := true },
      .ok (r.nextHandle RequestId.handshake)) := by
    simp [greet, hc, hfirst, file, nextHandle]
  rw [hgreet]
  exact ⟨_, rfl, hc, List.mem_append_right _ (List.mem_singleton_self _)⟩

/-- What becomes of an attempt to connect. -/
inductive Decision where
  /-- The peer accepts the handshake. -/
  | accepted
  | refused (message : String)
  /-- Nothing else was decided within the limit. -/
  | expired (limit : Duration)
deriving DecidableEq

namespace Decision

/-- The stream breaks, or the peer breaks it off. -/
def brokenBy (f : Failure) : Decision := refused f.message

/-- What the call that connects ends with. -/
def answer : Decision → Answer
  | accepted => .connected
  | refused m => .failed (.handshakeFailed m)
  | expired limit => .failed (Link.connectTimeout limit)

/-- What the handshake ends with. Of a limit only the call that keeps it tells. -/
def outcome : Decision → Outcome
  | accepted => .ok .ok
  | refused m => .error (.handshakeFailed m)
  | expired limit => .error (.handshakeFailed (Link.connectTimeout limit).message)

/-- The first move of the link. -/
def course : Decision → List Move
  | accepted => [⟨.connecting, .ready⟩]
  | refused _ => Course.refused
  | expired _ => Course.refused

/-- Whether the clock has decided. -/
def isExpiry : Decision → Bool
  | expired _ => true
  | _ => false

/-- What the clock decides when somebody looks at it who waits until a deadline. -/
def byClock? (now : Instant) (limit : Duration) (deadline : Instant) : Option Decision :=
  if now.reached deadline then some (expired limit) else none

theorem of_byClock? {now : Instant} {limit : Duration} {deadline : Instant} {d : Decision}
    (h : byClock? now limit deadline = some d) :
    d = expired limit ∧ now.reached deadline = true := by
  obtain ⟨hreached, hd⟩ := Option.ite_none_right_eq_some.mp h
  exact ⟨(Option.some.inj hd).symm, hreached⟩

end Decision

/-- How a call goes on that connects: it ends with what is decided, or waits. -/
def Call.heeding (c : Call) : Option Decision → Progress
  | none => .waiting c
  | some d => .finished d.answer

/-- What an answer of the peer decides: it answers the handshake, or announces that the peer
closes. -/
def Response.decision? (a : Response) : Option Decision :=
  if a.id.isHandshake then
    match Link.handshakeComplaint a.body with
    | none => some .accepted
    | some m => some (.refused m)
  else
    match a.body with
    | .closingError m => some (.brokenBy (.closing m))
    | _ => none

namespace Link

/-! What is decided -/

def decisionOfFrame? (l : Link) (f : Frame) : Option Decision :=
  match l.codec.deserialize f with
  | .error e => some (.brokenBy e)
  | .ok a => a.decision?

/-- Writing fails if the peer is gone. -/
def decisionOfWrite? (l : Link) : Option Decision :=
  if l.stream.peerOpen then none else some (.brokenBy (.io "broken pipe"))

/-- What an event of the loop decides. -/
def decisionOfEvent? (l : Link) : Event → Option Decision
  | .receive =>
    match l.inboundItem.1 with
    | .frame f => l.decisionOfFrame? f
    | .fault f => some (.brokenBy (.io f.message))
    | .finished => some (.brokenBy (.closing "connection closed by peer"))
    | .starved => none
  | .send =>
    match l.outbox with
    | [] => none
    | f :: _ =>
      match Frame.toBytes f with
      | .ok _ => l.decisionOfWrite?
      | .error e => some (.brokenBy (.io e.message))
  | .continueWriting =>
    match l.loop with
    | .writing _ => l.decisionOfWrite?
    | _ => none
  | .stop => none
  | .release => none

/-- An error of the stream decides if the loop meets it: it reads when it is not in the middle
of a frame. -/
def decisionOfReadError? (l : Link) (message : String) : Option Decision :=
  match l.loop with
  | .running => some (.brokenBy (.io message))
  | _ => none

def decisionOfWriteError? (l : Link) (message : String) : Option Decision :=
  match l.loop, l.outbox with
  | .running, _ :: _ => some (.brokenBy (.io message))
  | .writing _, _ => some (.brokenBy (.io message))
  | _, _ => none

/-- What is decided before the call that connects waits. -/
def openingDecision? (l : Link) (now : Instant) (s : Setup) (limit : Duration)
    (deadline : Instant) : Option Decision :=
  match l.codec.serialize RequestId.handshake (.connect s) with
  | .error f => some (.refused ("cannot encode setup: " ++ f.message))
  | .ok _ => Decision.byClock? now limit deadline

/-! The clock decides nothing but when the call looks -/

theorem isExpiry_decision? {a : Response} {d : Decision} (h : a.decision? = some d) :
    d.isExpiry = false := by
  unfold Response.decision? at h
  split at h
  · split at h
    · cases h
      rfl
    · cases h
      rfl
  · split at h
    · cases h
      rfl
    · cases h

theorem isExpiry_decisionOfFrame? {l : Link} {f : Frame} {d : Decision}
    (h : l.decisionOfFrame? f = some d) : d.isExpiry = false := by
  unfold decisionOfFrame? at h
  split at h
  · cases h
    rfl
  · exact isExpiry_decision? h

theorem isExpiry_decisionOfWrite? {l : Link} {d : Decision}
    (h : l.decisionOfWrite? = some d) : d.isExpiry = false := by
  unfold decisionOfWrite? at h
  split at h
  · cases h
  · cases h
    rfl

theorem isExpiry_decisionOfEvent? {l : Link} {e : Event} {d : Decision}
    (h : l.decisionOfEvent? e = some d) : d.isExpiry = false := by
  cases e with
  | receive =>
    simp only [decisionOfEvent?] at h
    split at h
    · exact isExpiry_decisionOfFrame? h
    · cases h
      rfl
    · cases h
      rfl
    · cases h
  | send =>
    simp only [decisionOfEvent?] at h
    split at h
    · cases h
    · split at h
      · exact isExpiry_decisionOfWrite? h
      · cases h
        rfl
  | continueWriting =>
    simp only [decisionOfEvent?] at h
    split at h
    · exact isExpiry_decisionOfWrite? h
    · cases h
  | stop => cases h
  | release => cases h

/-! What the link does about it -/

variable {l k l' : Link} {d : Option Decision}

/-- What becomes of a link that connects when something is decided, or nothing. -/
def Heeds (l : Link) (d : Option Decision) (l' : Link) : Prop :=
  match d with
  | none => l'.lifecycle = .connecting ∧ l'.registry.pending = l.registry.pending ∧
      l'.shutdown = l.shutdown
  | some d =>
    match d.outcome with
    | .ok _ => l'.registry = l.opened
    | .error e => l.EndsWith l' e

theorem Heeds.of_eq (h : k.Heeds d l') (hregistry : k.registry = l.registry)
    (hshutdown : k.shutdown = l.shutdown) : l.Heeds d l' := by
  cases d with
  | none => exact ⟨h.1, h.2.1.trans (congrArg _ hregistry), h.2.2.trans hshutdown⟩
  | some d =>
    have hpending := congrArg Registry.pending hregistry
    cases d with
    | accepted =>
      have hopened : l'.registry = k.opened := h
      rwa [opened, hregistry] at hopened
    | refused m => exact EndsWith.of_pending h hpending
    | expired limit => exact EndsWith.of_pending h hpending

theorem Heeds.told {d : Decision} (h : l.Heeds (some d) l') (hl : Sound l.registry)
    {g : Handle} (hid : g.id = RequestId.handshake) (hg : g ∈ l.registry.pending) :
    l'.outcome? g = some d.outcome := by
  cases d with
  | accepted =>
    have hopened : l'.registry = l.opened := h
    rw [outcome?, hopened]
    exact outcome?_opened hl hid hg
  | refused m => exact EndsWith.outcome h g hg
  | expired limit => exact EndsWith.outcome h g hg

theorem Heeds.course {d : Decision} (h : l.Heeds (some d) l') (hcourse : l'.registry.OnCourse) :
    l'.registry.moves = d.course := by
  have hfails : ∀ m, l.EndsWith l' (.handshakeFailed m) →
      l'.registry.moves = Course.refused := by
    intro m hends
    rw [Registry.OnCourse, hends.closedWith] at hcourse
    exact hcourse.failure_iff.1.mp ⟨m, rfl⟩
  cases d with
  | accepted =>
    have hopened : l'.registry = l.opened := h
    have hready : l'.registry.lifecycle = .ready := by rw [hopened, lifecycle_opened]
    rw [Registry.OnCourse, hready] at hcourse
    exact hcourse.of_ready.1
  | refused m => exact hfails m h
  | expired limit => exact hfails _ h

theorem awaitGreeting_of_outcome {d : Decision} (hd : d.isExpiry = false) {h : Handle}
    (ho : l.outcome? h = some d.outcome) (now : Instant) (limit : Duration)
    (deadline : Instant) : l.awaitGreeting now h limit deadline = (l, .finished d.answer) := by
  unfold awaitGreeting
  rw [ho]
  cases d with
  | accepted => rfl
  | refused m => rfl
  | expired limit => cases hd

section Connecting

variable (hl : Sound l.registry) (hc : l.lifecycle = .connecting)

include hc

theorem ne_closed_of_connecting : l.lifecycle ≠ .closed := by
  rw [hc]
  exact Lifecycle.noConfusion

include hl

theorem heeds_onTransportError (f : Failure) :
    l.Heeds (some (.brokenBy f)) (l.onTransportError f) := by
  have hends := endsWith_onTransportError hl (ne_closed_of_connecting hc) f
  rwa [hc] at hends

theorem heeds_endLoop_of_error (f : Failure) :
    l.Heeds (some (.brokenBy f)) (l.onTransportError f).endLoop :=
  EndsWith.endLoop (heeds_onTransportError hl hc f)

theorem heeds_onResponse (hs : Staged l.registry) (a : Response) :
    l.Heeds a.decision? (l.onResponse a) := by
  obtain ⟨id, b⟩ := a
  have hopen := ne_closed_of_connecting hc
  by_cases hid : id = RequestId.handshake
  · subst hid
    have hhandshake : RequestId.handshake.isHandshake = true := rfl
    rw [onResponse_handshake, onHandshake, if_neg (not_not_intro hc)]
    simp only [Response.decision?, hhandshake, if_true]
    cases handshakeComplaint b with
    | none =>
      have hready : l.registry.markReady.1 = l.registry.moveTo .ready := by
        simp [Registry.markReady, show l.registry.lifecycle = .connecting from hc]
      change (l.registry.markReady.1.settle RequestId.handshake (.ok .ok)).1 = l.opened
      rw [hready]
      rfl
    | some m => exact endsWith_fail hl hopen _
  · have hordinary : id.isHandshake = false := by simp [RequestId.isHandshake, hid]
    simp only [Response.decision?, hordinary, Bool.false_eq_true, if_false]
    -- while the link connects, nothing but the handshake is pending
    have hnobody : l.registry.isPending id = false := by
      rw [Bool.eq_false_iff]
      intro hpending
      obtain ⟨g, hg, rfl⟩ := Registry.isPending_iff.mp hpending
      exact hid (hs.connecting hc g hg)
    have hsettle : ∀ o, (l.via (·.settle id o)).1 =
        { l with registry := { l.registry with unmatched := l.registry.unmatched ++ [id] } } := by
      intro o
      simp [via, Registry.settle_of_not_isPending hnobody]
    rcases l.onResponse_of_ordinary hid b with ⟨m, rfl, heq⟩ | ⟨hb, heq⟩
    · rw [heq, hsettle]
      have hsound : Sound { l.registry with unmatched := l.registry.unmatched ++ [id] } :=
        hl.of_eq rfl rfl rfl rfl rfl rfl
      exact EndsWith.of_pending (heeds_onTransportError (l := { l with registry := _ }) hsound hc
        (.closing m)) rfl
    · rw [heq, hsettle]
      cases b with
      | closingError m => exact absurd rfl (hb m)
      | _ => exact ⟨hc, rfl, rfl⟩

theorem heeds_onFrame (hs : Staged l.registry) (f : Frame) :
    l.Heeds (l.decisionOfFrame? f) (l.onFrame f) := by
  unfold decisionOfFrame? onFrame
  cases l.codec.deserialize f with
  | error e => exact heeds_onTransportError hl hc e
  | ok a => exact heeds_onResponse hl hc hs a

theorem heeds_writeBytes (b : ByteArray) : l.Heeds l.decisionOfWrite? (l.writeBytes b) := by
  unfold decisionOfWrite? writeBytes
  split
  · exact ⟨hc, rfl, rfl⟩
  · exact heeds_endLoop_of_error hl hc _

theorem heeds_takeUp : l.Heeds (l.decisionOfEvent? .send) l.takeUp := by
  unfold takeUp
  simp only [decisionOfEvent?]
  cases l.outbox with
  | nil => exact ⟨hc, rfl, rfl⟩
  | cons f rest =>
    dsimp only
    cases Frame.toBytes f with
    | ok b => exact (heeds_writeBytes (l := { l with outbox := rest }) hl hc b).of_eq rfl rfl
    | error e =>
      exact (heeds_endLoop_of_error (l := { l with outbox := rest }) hl hc _).of_eq rfl rfl

theorem heeds_receive (hs : Staged l.registry) :
    l.Heeds (l.decisionOfEvent? .receive) l.receive := by
  unfold receive
  simp only [decisionOfEvent?]
  cases l.inboundItem with
  | mk item d =>
    have hbroken := heeds_endLoop_of_error
      (l := { l with deframer := d, stream.inbound := .empty }) hl hc
    cases item with
    | frame f =>
      exact (heeds_onFrame (l := { l with deframer := d, stream.inbound := .empty })
        hl hc hs f).of_eq rfl rfl
    | fault f => exact (hbroken _).of_eq rfl rfl
    | finished => exact (hbroken _).of_eq rfl rfl
    | starved => exact ⟨hc, rfl, rfl⟩

/-- The loop heeds what is decided. As long as somebody holds the link, and has not asked it
to end, it does not end of its own accord. -/
theorem heeds_handle (hs : Staged l.registry) (hshutdown : l.shutdown = false) {e : Event}
    (he : e ∈ l.ready true) : l.Heeds (l.decisionOfEvent? e) (l.handle e) := by
  cases e with
  | receive => exact heeds_receive hl hc hs
  | send => exact heeds_takeUp hl hc
  | continueWriting =>
    simp only [decisionOfEvent?, handle]
    cases l.loop with
    | writing rest => exact heeds_writeBytes hl hc rest
    | running => exact ⟨hc, rfl, rfl⟩
    | ended => exact ⟨hc, rfl, rfl⟩
  | stop =>
    unfold ready at he
    cases hloop : l.loop <;> simp [hloop, hshutdown] at he
  | release =>
    unfold ready at he
    cases hloop : l.loop <;> simp [hloop] at he

theorem heeds_failRead (m : String) : l.Heeds (l.decisionOfReadError? m) (l.failRead m) := by
  unfold decisionOfReadError? failRead
  cases l.loop with
  | running => exact heeds_endLoop_of_error hl hc _
  | writing rest => exact ⟨hc, rfl, rfl⟩
  | ended => exact ⟨hc, rfl, rfl⟩

theorem heeds_failWrite (m : String) : l.Heeds (l.decisionOfWriteError? m) (l.failWrite m) := by
  unfold decisionOfWriteError? failWrite
  cases l.loop with
  | running =>
    cases l.outbox with
    | nil => exact ⟨hc, rfl, rfl⟩
    | cons f rest =>
      exact (heeds_endLoop_of_error (l := { l with loop := .running, outbox := rest })
        hl hc _).of_eq rfl rfl
  | writing rest => exact heeds_endLoop_of_error hl hc _
  | ended => exact ⟨hc, rfl, rfl⟩

/-! The call that connects -/

theorem heeds_awaitGreeting {h : Handle} (hh : h ∈ l.registry.pending) (now : Instant)
    (limit : Duration) (deadline : Instant) :
    let d := Decision.byClock? now limit deadline
    let a := l.awaitGreeting now h limit deadline
    l.Heeds d a.1 ∧ a.2 = (Call.greeted h limit deadline).heeding d := by
  have hnone : l.outcome? h = none := hl.outcome?_eq_none hh
  unfold awaitGreeting Decision.byClock?
  rw [hnone]
  dsimp only
  split
  · exact ⟨heeds_onTransportError hl hc (connectTimeout limit), rfl⟩
  · exact ⟨⟨hc, rfl, rfl⟩, rfl⟩

/-- The first look of the call registers the handshake and sends the setup. -/
theorem heeds_establish (hfirst : l.registry.greeted = false) (hloop : l.loop.isEnded = false)
    (now : Instant) (s : Setup) (limit : Duration) (deadline : Instant) :
    ∃ h ∈ l.registry.greet.1.pending,
      let d := l.openingDecision? now s limit deadline
      let a := l.establish now s limit deadline
      Heeds { l with registry := l.registry.greet.1 } d a.1 ∧
        a.2 = (Call.greeted h limit deadline).heeding d := by
  have hsound : Sound l.registry.greet.1 := (Registry.change_of_greet l.registry).sound hl
  obtain ⟨h, hgreet, hconnecting, hmem⟩ := Registry.greet_of_connecting hc hfirst
  refine ⟨h, hmem, ?_⟩
  unfold establish connect via openingDecision?
  generalize l.registry.greet = g at hsound hgreet hconnecting hmem ⊢
  obtain ⟨r, answer⟩ := g
  obtain rfl : answer = .ok h := hgreet
  dsimp only at hsound hconnecting hmem ⊢
  cases l.codec.serialize RequestId.handshake (.connect s) with
  | error f =>
    have hends := endsWith_fail (l := { l with registry := r }) hsound
      (ne_closed_of_connecting hconnecting)
      (.handshakeFailed ("cannot encode setup: " ++ f.message))
    have hlook := awaitGreeting_of_outcome
      (d := .refused ("cannot encode setup: " ++ f.message)) rfl (hends.outcome h hmem) now limit
      deadline
    dsimp only
    rw [hlook]
    exact ⟨hends, rfl⟩
  | ok f =>
    simp only [enqueue, hloop, Bool.false_eq_true, if_false]
    obtain ⟨hheeds, hgoes⟩ := heeds_awaitGreeting
      (l := { l with registry := r, outbox := l.outbox ++ [f] }) hsound hconnecting hmem now limit
      deadline
    exact ⟨hheeds.of_eq rfl rfl, hgoes⟩

end Connecting

end Link

end Switchboard
