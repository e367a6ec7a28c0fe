import Switchboard.Proofs.Closers
import Switchboard.Proofs.Courses
import Switchboard.Proofs.Spared

/-!
The loop of a link and its lifecycle. A loop that has ended, however it came to its end, has
closed the link and released the stream, and whoever closes the link asks the loop to end.
So at rest, as long as the stream takes what is written, the loop is there just while the
link is not closed, and it does not outlive those who hold the link. Beyond the actions of a
scene the stream may fail with an error of its own while the loop reads or writes.
-/
namespace Switchboard

open Registry (Sound Staged LeadsTo)

theorem Ledger.isOpen_of_outcome? {l : Ledger} {t : Ticket} (hissued : t.serial < l.outcomes.size)
    (hnone : l.outcome? t = none) : l.IsOpen t := by
  rw [outcome?, Array.getElem?_eq_getElem hissued] at hnone
  rw [IsOpen, Array.getElem?_eq_getElem hissued]
  exact congrArg some hnone

namespace Stream

/-- Whether the peer has come to the end of the stream: it has read all that was written,
and the link has closed its end. -/
def peerAtEnd (s : Stream) : Bool := !s.linkOpen && s.outbound.isEmpty

theorem writable_of_unbounded {s : Stream} (h : s.capacity = none) (b : ByteArray) :
    s.writable b = true := by
  cases hempty : b.isEmpty with
  | true => simp [writable, hempty]
  | false =>
    have hsize : 0 < b.size := by
      rw [Nat.pos_iff_ne_zero]
      simpa [ByteArray.isEmpty] using hempty
    simp [writable, room, h, hsize]

/-- A stream that can take something takes what is written when everything has been read. -/
theorem writable_of_read {s : Stream} (h : s.outbound.isEmpty = true)
    (hroom : s.capacity ≠ some 0) (b : ByteArray) : s.writable b = true := by
  have hsize : s.outbound.size = 0 := of_decide_eq_true h
  cases hempty : b.isEmpty with
  | true => simp [writable, hempty]
  | false =>
    have hb : 0 < b.size := by
      rw [Nat.pos_iff_ne_zero]
      simpa [ByteArray.isEmpty] using hempty
    have hsome : 0 < s.room s.outbound.size b.size := by
      unfold room
      cases hcapacity : s.capacity with
      | none => exact hb
      | some c =>
        have hc : c ≠ 0 := by
          rintro rfl
          exact hroom hcapacity
        dsimp only
        omega
    simp [writable, hsome]

end Stream

namespace Link

/-- The stream fails while the loop waits for bytes to read. -/
def failRead (l : Link) (message : String) : Link :=
  match l.loop with
  | .running => (l.onTransportError (.io message)).endLoop
  | _ => l

/-- The stream fails while the loop writes a frame, the next of the queue or one that it has
begun. -/
def failWrite (l : Link) (message : String) : Link :=
  match l.loop, l.outbox with
  | .running, _ :: rest => (onTransportError { l with outbox := rest } (.io message)).endLoop
  | .writing _, _ => (l.onTransportError (.io message)).endLoop
  | _, _ => l

/-- A link in which writing fails is broken, perhaps with the next frame gone from its queue,
or is not writing. -/
theorem failWrite_cases (l : Link) (message : String) :
    (∃ rest, l.failWrite message =
      (onTransportError { l with outbox := rest } (.io message)).endLoop) ∨
      l.failWrite message = l := by
  unfold failWrite
  split
  case h_1 f rest _ _ => exact Or.inl ⟨rest, rfl⟩
  case h_2 => exact Or.inl ⟨l.outbox, rfl⟩
  case h_3 => exact Or.inr rfl

/-- Whoever has closed the link has asked its loop to end, and a loop that has ended has
closed the link and released the stream. -/
structure Agrees (l : Link) : Prop where
  asks : l.lifecycle = .closed → l.shutdown = true
  ends : l.loop.isEnded = true → l.lifecycle = .closed ∧ l.stream.linkOpen = false

namespace Agrees

variable {l l' : Link}

theorem of_spares (h : l.Agrees) (hspares : l.Spares l') : l'.Agrees where
  asks hnow := by
    by_cases hbefore : l.lifecycle = .closed
    · exact hspares.shutdown (h.asks hbefore)
    · exact hspares.asks hbefore hnow
  ends hended := by
    rw [hspares.loop] at hended
    rw [hspares.stream]
    exact ⟨hspares.closed (h.ends hended).1, (h.ends hended).2⟩

theorem onTransportError (h : l.Agrees) (f : Failure) : (l.onTransportError f).Agrees :=
  h.of_spares (l.spares_onTransportError f)

theorem onFrame (h : l.Agrees) (f : Frame) : (l.onFrame f).Agrees :=
  h.of_spares (l.spares_onFrame f)

/-- Every exit of the loop closes the link and releases the stream. -/
theorem endLoop (h : l.Agrees) : l.endLoop.Agrees where
  asks _ := (h.onTransportError loopGone).asks (l.lifecycle_onTransportError loopGone)
  ends _ := ⟨l.lifecycle_endLoop, rfl⟩

theorem endLoop_of_error (h : l.Agrees) (f : Failure) : (l.onTransportError f).endLoop.Agrees :=
  (h.onTransportError f).endLoop

theorem of_going (h : l.Agrees) (hsame : l'.registry = l.registry)
    (hshutdown : l'.shutdown = l.shutdown) (hgoing : l'.loop.isEnded = false) : l'.Agrees where
  asks hclosed := by
    rw [hshutdown]
    exact h.asks (by rwa [lifecycle, hsame] at hclosed)
  ends hended := Bool.noConfusion (hgoing.symm.trans hended)

theorem writeBytes (h : l.Agrees) (b : ByteArray) : (l.writeBytes b).Agrees := by
  unfold Link.writeBytes
  split
  · refine h.of_going rfl rfl ?_
    dsimp only
    split <;> rfl
  · exact h.endLoop_of_error _

theorem takeUp (h : l.Agrees) : l.takeUp.Agrees := by
  unfold Link.takeUp
  cases l.outbox with
  | nil => exact h
  | cons f rest =>
    have hrest : Agrees { l with outbox := rest } := ⟨h.asks, h.ends⟩
    dsimp only
    cases Frame.toBytes f with
    | ok b => exact hrest.writeBytes b
    | error e => exact hrest.endLoop_of_error _

theorem receive (h : l.Agrees) : l.receive.Agrees := by
  unfold Link.receive
  generalize l.inboundItem = a
  obtain ⟨item, d⟩ := a
  have hread : Agrees { l with deframer := d, stream.inbound := .empty } := ⟨h.asks, h.ends⟩
  cases item with
  | frame f => exact hread.onFrame f
  | fault f => exact hread.endLoop_of_error _
  | finished => exact hread.endLoop_of_error _
  | starved => exact hread

theorem handle (h : l.Agrees) (e : Event) : (l.handle e).Agrees := by
  cases e with
  | receive => exact h.receive
  | send => exact h.takeUp
  | continueWriting =>
    unfold Link.handle
    cases l.loop with
    | writing rest => exact h.writeBytes rest
    | running => exact h
    | ended => exact h
  | stop => exact h.endLoop
  | release => exact h.endLoop

theorem failRead (h : l.Agrees) (message : String) : (l.failRead message).Agrees := by
  unfold Link.failRead
  split
  · exact h.endLoop_of_error _
  · exact h

theorem failWrite (h : l.Agrees) (message : String) : (l.failWrite message).Agrees := by
  rcases l.failWrite_cases message with ⟨rest, heq⟩ | heq
  · rw [heq]
    exact endLoop_of_error (l := { l with outbox := rest }) ⟨h.asks, h.ends⟩ _
  · rwa [heq]

/-- A loop that can do nothing while the stream takes what is written is held and has not
been asked to end, or has ended. -/
theorem held_of_ready (h : l.Agrees) {held : Bool} (hrest : l.ready held = [])
    (htakes : ∀ b, l.stream.writable b = true) (hgoing : l.loop.isEnded = false) :
    l.lifecycle ≠ .closed ∧ held = true := by
  unfold ready at hrest
  cases hloop : l.loop with
  | ended =>
    rw [hloop] at hgoing
    cases hgoing
  | writing rest => simp [hloop, htakes] at hrest
  | running =>
    simp only [hloop, List.append_eq_nil_iff] at hrest
    obtain ⟨⟨⟨-, hsend⟩, hstop⟩, hrelease⟩ := hrest
    constructor
    · intro hclosed
      simp [h.asks hclosed] at hstop
    · have hidle : l.outbox.isEmpty = true := by
        by_contra hne
        simp [hne] at hsend
      simpa [hidle] using hrelease

end Agrees

theorem leadsTo_endLoop_of_error (l : Link) (f : Failure) :
    l.registry.LeadsTo (l.onTransportError f).endLoop.registry :=
  (routine_true.endLoop_of_error l f).leadsTo

theorem leadsTo_failRead (l : Link) (message : String) :
    l.registry.LeadsTo (l.failRead message).registry := by
  unfold failRead
  split
  · exact l.leadsTo_endLoop_of_error _
  · exact LeadsTo.refl _

theorem leadsTo_failWrite (l : Link) (message : String) :
    l.registry.LeadsTo (l.failWrite message).registry := by
  rcases l.failWrite_cases message with ⟨rest, heq⟩ | heq
  · rw [heq]
    exact leadsTo_endLoop_of_error { l with outbox := rest } _
  · rw [heq]
    exact LeadsTo.refl _

end Link

namespace Scene

/-- What can happen to a link: an action, or an error of the stream. -/
inductive Incident where
  | act (a : Action)
  | readError (message : String)
  | writeError (message : String)

def Incident.isOwn : Incident → Bool
  | act a => a.isOwn
  | _ => true

def Incident.failsAll : Incident → Bool
  | act a => a.failsAll
  | _ => false

theorem Incident.failsAll_of_isOwn {i : Incident} (h : i.isOwn = true) : i.failsAll = false := by
  cases i with
  | act a => exact Action.failsAll_of_isOwn h
  | _ => rfl

def onIncident (s : Scene) : Incident → Scene
  | .act a => s.perform a
  | .readError m => { s with link := s.link.failRead m }
  | .writeError m => { s with link := s.link.failWrite m }

/-- What is left of a scene to which all this has happened. -/
def runIncidents (s : Scene) (incidents : List Incident) : Scene := incidents.foldl onIncident s

variable {s : Scene}

theorem leadsTo_onIncident (s : Scene) (i : Incident) :
    s.link.registry.LeadsTo (s.onIncident i).link.registry := by
  cases i with
  | act a => exact s.leadsTo_perform a
  | readError m => exact s.link.leadsTo_failRead m
  | writeError m => exact s.link.leadsTo_failWrite m

theorem leadsTo_runIncidents (s : Scene) (incidents : List Incident) :
    s.link.registry.LeadsTo (s.runIncidents incidents).link.registry :=
  List.foldlRecOn (motive := fun t => s.link.registry.LeadsTo t.link.registry) incidents onIncident
    (.refl _) fun t ht i _ => ht.trans (t.leadsTo_onIncident i)

/-- Whatever an incident does to the registry, operations of the registry do. -/
theorem leadsBy_incident {P : Registry → Registry.Op → Prop} (hP : Link.Routine P) (s : Scene)
    {i : Incident} (ha : ∀ a, i = .act a → s.Allows P a) :
    Registry.LeadsBy P s.link.registry (s.onIncident i).link.registry := by
  cases i with
  | act a => exact leadsBy_perform hP s a (ha a rfl)
  | readError m =>
    simp only [onIncident, Link.failRead]
    split
    · exact hP.endLoop_of_error _ _
    · exact .refl
  | writeError m =>
    rw [onIncident]
    rcases s.link.failWrite_cases m with ⟨rest, heq⟩ | heq
    · rw [heq]
      exact hP.endLoop_of_error { s.link with outbox := rest } _
    · rw [heq]
      exact .refl

theorem agrees_perform (h : s.link.Agrees) {a : Action} (ha : a.failsAll = false) :
    (s.perform a).link.Agrees := by
  cases hbytes : a.movesBytes with
  | false => exact h.of_spares (s.spares_perform ha hbytes)
  | true =>
    cases a with
    | loop e =>
      rw [perform]
      split
      · exact h.handle e
      · exact h
    | peerWrite b =>
      refine ⟨h.asks, fun hended => ⟨(h.ends hended).1, ?_⟩⟩
      have hclosed := (h.ends hended).2
      simp [perform, Stream.peerWrite, hclosed]
    | peerRead => exact ⟨h.asks, h.ends⟩
    | peerClose => exact ⟨h.asks, h.ends⟩
    | _ => cases hbytes

theorem agrees_onIncident (h : s.link.Agrees) {i : Incident} (hi : i.failsAll = false) :
    (s.onIncident i).link.Agrees := by
  cases i with
  | act a => exact agrees_perform h hi
  | readError m => exact h.failRead m
  | writeError m => exact h.failWrite m

theorem agrees_runIncidents (h : s.link.Agrees) {incidents : List Incident}
    (hown : ∀ i ∈ incidents, i.isOwn = true) : (s.runIncidents incidents).link.Agrees :=
  List.foldlRecOn (motive := fun t => t.link.Agrees) incidents onIncident h
    fun _ ht i hi => agrees_onIncident ht (Incident.failsAll_of_isOwn (hown i hi))

/-- Whatever happens to a new link and its stream: when its loop has ended, the link is
closed, nothing is pending and every handle that was given out has its outcome. At rest,
with a stream that takes what is written, the loop is there just while the link is not
closed; the peer of a closed link comes to the end of the stream; and a link that nobody
holds is closed. -/
theorem loop_agrees_with_lifecycle {ceiling : Nat} {policy : Policy}
    (hmake : Registry.make ceiling policy = .ok s.link.registry) (hnew : s.link.loop = .running)
    {incidents : List Incident} (hown : ∀ i ∈ incidents, i.isOwn = true) :
    let t := s.runIncidents incidents
    (t.link.loop.isEnded = true →
      t.link.lifecycle = .closed ∧ t.link.registry.pending = [] ∧
        ∀ h : Handle, h.ticket.serial < t.link.registry.ledger.outcomes.size →
          t.link.outcome? h ≠ none) ∧
    (t.link.ready t.isHeld = [] → (∀ b, t.link.stream.writable b = true) →
      (t.link.loop.isEnded = false ↔ t.link.lifecycle ≠ .closed) ∧
      (t.link.lifecycle = .closed → (t.perform .peerRead).link.stream.peerAtEnd = true) ∧
      (t.isHeld = false → t.link.lifecycle = .closed)) := by
  intro t
  have hleads := s.leadsTo_runIncidents incidents
  have hsound : Sound t.link.registry := hleads.sound (Registry.sound_of_make hmake)
  have hstaged : Staged t.link.registry := hleads.staged (Registry.staged_of_make hmake)
  have hagrees : t.link.Agrees := by
    refine agrees_runIncidents ⟨fun hclosed => ?_, fun hended => ?_⟩ hown
    · obtain ⟨g, -, hr⟩ := Registry.eq_of_make hmake
      rw [Link.lifecycle, hr] at hclosed
      cases hclosed
    · rw [hnew] at hended
      cases hended
  refine ⟨fun hended => ?_, fun hrest htakes => ?_⟩
  · have hclosed := (hagrees.ends hended).1
    have hnothing := hstaged.closed hclosed
    refine ⟨hclosed, hnothing, fun h hissued hnone => ?_⟩
    have hmem := (hsound.isOpen_iff h.ticket).mp (Ledger.isOpen_of_outcome? hissued hnone)
    rw [hnothing] at hmem
    exact absurd hmem List.not_mem_nil
  · have hgoing := hagrees.held_of_ready hrest htakes
    have hclosed_of_ended : ¬ t.link.loop.isEnded = false →
        t.link.lifecycle = .closed ∧ t.link.stream.linkOpen = false :=
      fun h => hagrees.ends (by simpa using h)
    refine ⟨⟨fun h => (hgoing h).1, fun hopen => ?_⟩, fun hclosed => ?_, fun hnobody => ?_⟩
    · by_contra h
      exact hopen (hclosed_of_ended h).1
    · have hended := (hclosed_of_ended fun h => (hgoing h).1 hclosed).2
      have hread : (t.perform .peerRead).link.stream.peerAtEnd =
          (!t.link.stream.linkOpen && ByteArray.empty.isEmpty) := rfl
      rw [hread, hended]
      rfl
    · refine (hclosed_of_ended fun h => ?_).1
      exact Bool.noConfusion (hnobody.symm.trans (hgoing h).2)

/-- The peer has accepted the handshake, and a request is pending. -/
def inService : List Incident :=
  [.act (.connect {}), .act (.loop .send), .act (.frame acceptance), .act (.start .register)]

/-- At rest the loop of a link in service is there; when reading fails it is gone, and so is
everything that was pending. -/
theorem agreement_when_reading_fails :
    let t := fresh.runIncidents inService
    let gone := fresh.runIncidents (inService ++ [.readError "connection reset by peer"])
    t.link.lifecycle = .ready ∧ t.link.loop.isEnded = false ∧
      gone.link.lifecycle = .closed ∧ gone.link.registry.pending = [] ∧
      gone.link.outcome? ⟨⟨1⟩, ⟨1⟩⟩ ≠ none ∧
      (gone.perform .peerRead).link.stream.peerAtEnd = true := by
  have hmake : Registry.make 2 .block = .ok fresh.link.registry := rfl
  have hown : ∀ i ∈ inService, i.isOwn = true := by decide
  have hownGone : ∀ i ∈ inService ++ [.readError "connection reset by peer"], i.isOwn = true := by
    decide
  have hagree := loop_agrees_with_lifecycle hmake rfl hown
  have hagreeGone := loop_agrees_with_lifecycle hmake rfl hownGone
  revert hagree hagreeGone
  generalize ht : fresh.runIncidents inService = t
  generalize hgone :
    fresh.runIncidents (inService ++ [.readError "connection reset by peer"]) = gone
  rintro ⟨-, hatRest⟩ ⟨hend, hgoneAtRest⟩
  obtain ⟨hready, hrest, hroom, hended, hissued, hidle, hgoneRoom⟩ :
      t.link.lifecycle = .ready ∧ t.link.ready t.isHeld = [] ∧
        t.link.stream.capacity = none ∧ gone.link.loop.isEnded = true ∧
        1 < gone.link.registry.ledger.outcomes.size ∧ gone.link.ready gone.isHeld = [] ∧
        gone.link.stream.capacity = none := by
    rw [← ht, ← hgone]
    decide +kernel
  have hopen : t.link.lifecycle ≠ .closed := by
    rw [hready]
    exact nofun
  obtain ⟨hclosed, hnothing, hsettled⟩ := hend hended
  exact ⟨hready, (hatRest hrest (Stream.writable_of_unbounded hroom)).1.mpr hopen, hclosed,
    hnothing, hsettled ⟨⟨1⟩, ⟨1⟩⟩ hissued,
    (hgoneAtRest hidle (Stream.writable_of_unbounded hgoneRoom)).2.1 hclosed⟩

end Scene

end Switchboard
