import Switchboard.Proofs.OutboundOrder
import Switchboard.Proofs.PartialReads

/-!
What a write that does not go on holds up. The loop writes a frame to its end before it does
anything else, so while the stream is full and the peer does not read, nothing that arrives
is routed, and a link that is closed meanwhile keeps its loop and its stream. This is the
only exception: at rest, with no write held up, every complete frame that the peer has
managed to send has been routed, or the link is closed, its loop has ended and the stream has
been released. `Hears` carries this: what has been routed and what the loop will yet find in
its buffer and in the stream are together what the peer has sent.
-/
namespace Switchboard

namespace Stream

/-- The part that the stream takes of bytes that the peer writes. -/
def accepts (s : Stream) (b : ByteArray) : ByteArray :=
  if s.linkOpen then b.extract 0 (s.room s.inbound.size b.size) else .empty

theorem inbound_peerWrite_eq (s : Stream) (b : ByteArray) :
    (s.peerWrite b).1.inbound = s.inbound ++ s.accepts b := by
  unfold peerWrite accepts
  split
  · rfl
  · rw [ByteArray.append_empty]

end Stream

namespace Link

variable {l l' : Link} {sent : ByteArray} {routed : List Frame}

/-- Whether the loop is in the middle of a frame, and the stream takes none of the rest. -/
def isStalled (l : Link) : Bool :=
  match l.loop with
  | .writing rest => !l.stream.writable rest
  | _ => false

theorem isStalled_iff :
    l.isStalled = true ↔ ∃ rest, l.loop = .writing rest ∧ l.stream.writable rest = false := by
  unfold isStalled
  cases l.loop <;> simp

/-- A write is held up by a peer that is there and has left the stream full. -/
theorem full_of_isStalled (h : l.isStalled = true) :
    l.stream.peerOpen = true ∧
      ∃ c, l.stream.capacity = some c ∧ c ≤ l.stream.outbound.size := by
  obtain ⟨rest, -, hstuck⟩ := isStalled_iff.mp h
  simp only [Stream.writable, Bool.or_eq_false_iff, Bool.not_eq_false', decide_eq_false_iff_not]
    at hstuck
  obtain ⟨⟨hpeer, hrest⟩, hroom⟩ := hstuck
  have hsize : 0 < rest.size := by
    rw [Nat.pos_iff_ne_zero]
    simpa [ByteArray.isEmpty] using hrest
  refine ⟨hpeer, ?_⟩
  unfold Stream.room at hroom
  cases hcapacity : l.stream.capacity with
  | none =>
    rw [hcapacity] at hroom
    exact absurd hsize hroom
  | some c =>
    rw [hcapacity] at hroom
    dsimp only at hroom
    exact ⟨c, rfl, by omega⟩

/-- The frames that have been routed are the first that the peer has sent. As long as the loop
goes on, the others are those that it will find in its buffer and in the stream, whatever
more is sent. -/
structure Hears (l : Link) (sent : ByteArray) (routed : List Frame) : Prop where
  first : routed <+: (({} : Deframer).feed sent).decoded
  others : l.loop.isEnded = false → ∀ more,
    (({} : Deframer).feed (sent ++ more)).decoded =
      routed ++ (l.deframer.feed (l.stream.inbound ++ more)).decoded

/-- The loop has just come to its end, or it is as far as it was, and its reader has been left
alone. -/
def LeavesReader (l l' : Link) : Prop :=
  (∃ k : Link, l' = k.endLoop) ∨
    l'.loop.isEnded = l.loop.isEnded ∧ l'.deframer = l.deframer ∧
      l'.stream.inbound = l.stream.inbound ∧ l'.stream.linkOpen = l.stream.linkOpen

theorem leavesReader_endLoop (l k : Link) : l.LeavesReader k.endLoop := Or.inl ⟨k, rfl⟩

theorem leavesReader_of_eq (hloop : l'.loop = l.loop) (hdeframer : l'.deframer = l.deframer)
    (hinbound : l'.stream.inbound = l.stream.inbound)
    (hopen : l'.stream.linkOpen = l.stream.linkOpen) : l.LeavesReader l' :=
  Or.inr ⟨congrArg Loop.isEnded hloop, hdeframer, hinbound, hopen⟩

theorem leavesReader_writeBytes (hgoing : l.loop.isEnded = false) (b : ByteArray) :
    l.LeavesReader (l.writeBytes b) := by
  unfold writeBytes
  split
  · refine Or.inr ⟨?_, rfl, rfl, rfl⟩
    rw [hgoing]
    dsimp only
    split <;> rfl
  · exact leavesReader_endLoop _ _

/-- A loop that has ended has closed the link and released the stream. -/
def Ends (l : Link) : Prop :=
  l.loop.isEnded = true → l.lifecycle = .closed ∧ l.stream.linkOpen = false

theorem Ends.of_leavesReader (h : l.Ends) (hl : l.LeavesReader l')
    (hleads : l.registry.LeadsTo l'.registry) : l'.Ends := by
  intro hended
  rcases hl with ⟨k, rfl⟩ | ⟨hsame, -, -, hopen⟩
  · exact ⟨k.lifecycle_endLoop, rfl⟩
  · obtain ⟨hclosed, hreleased⟩ := h (hsame.symm.trans hended)
    exact ⟨hleads.closed hclosed, hopen.trans hreleased⟩

theorem leavesReader_handle {held : Bool} {e : Event} (he : e ∈ l.ready held)
    (hne : e ≠ .receive) : l.LeavesReader (l.handle e) := by
  have hgoing := going_of_ready he
  cases e with
  | receive => exact absurd rfl hne
  | send =>
    simp only [handle, takeUp]
    cases l.outbox with
    | nil => exact leavesReader_of_eq rfl rfl rfl rfl
    | cons f rest =>
      dsimp only
      cases f.toBytes with
      | ok b => exact leavesReader_writeBytes (l := { l with outbox := rest }) hgoing b
      | error fault => exact leavesReader_endLoop _ _
  | continueWriting =>
    simp only [handle]
    split
    · exact leavesReader_writeBytes hgoing _
    · exact leavesReader_of_eq rfl rfl rfl rfl
  | stop => exact leavesReader_endLoop _ _
  | release => exact leavesReader_endLoop _ _

namespace Hears

theorem start (hdeframer : l.deframer = {}) (hinbound : l.stream.inbound = .empty) :
    l.Hears .empty [] := by
  refine ⟨List.nil_prefix, fun _ more => ?_⟩
  rw [hdeframer, hinbound, List.nil_append]

theorem of_leavesReader (h : l.Hears sent routed) (hl : l.LeavesReader l') :
    l'.Hears sent routed := by
  refine ⟨h.first, fun hgoing more => ?_⟩
  rcases hl with ⟨k, rfl⟩ | ⟨hsame, hdeframer, hinbound, -⟩
  · cases hgoing
  · rw [hdeframer, hinbound]
    exact h.others (hsame.symm.trans hgoing) more

theorem feed {more : ByteArray} (h : l.Hears sent routed) (hgoing : l.loop.isEnded = false)
    (hdeframer : l'.deframer = l.deframer)
    (hinbound : l'.stream.inbound = l.stream.inbound ++ more) :
    l'.Hears (sent ++ more) routed := by
  constructor
  · exact ⟨_, (h.others hgoing more).symm⟩
  · intro _ rest
    rw [ByteArray.append_assoc, h.others hgoing, hdeframer, hinbound, ByteArray.append_assoc]

/-- A frame that comes off the stream is the next of those to come. -/
theorem receive (h : l.Hears sent routed) (hgoing : l.loop.isEnded = false) :
    l.receive.Hears sent
      (routed ++ match l.inboundItem.1 with
        | .frame f => [f]
        | _ => []) := by
  have hended : ∀ l', (endLoop l').Hears sent routed :=
    fun l' => h.of_leavesReader (leavesReader_endLoop l l')
  cases hitem : l.inboundItem with
  | mk item d =>
    have hnext : (l.deframer.feed l.stream.inbound).next l.stream.ended = (item, d) := hitem
    cases item with
    | fault f => simpa only [Link.receive, hitem, List.append_nil] using hended _
    | finished => simpa only [Link.receive, hitem, List.append_nil] using hended _
    | starved =>
      simp only [Link.receive, hitem, List.append_nil]
      refine ⟨h.first, fun _ more => ?_⟩
      rw [h.others hgoing, Deframer.feed_append]
      congr 1
      refine Deframer.decoded_congr ?_
      simpa [ByteArray.empty_append] using Deframer.next_feed_of_starved hnext more false
    | frame f =>
      have hothers : ∀ more, (({} : Deframer).feed (sent ++ more)).decoded =
          (routed ++ [f]) ++ (d.feed more).decoded := by
        intro more
        have hframe := Deframer.next_feed_of_frame hnext more false
        rw [h.others hgoing, Deframer.feed_append, Deframer.decoded_of_frame hframe]
        simp
      have hspares := spares_onFrame { l with deframer := d, stream.inbound := .empty } f
      simp only [Link.receive, hitem]
      constructor
      · have hnow := hothers .empty
        rw [ByteArray.append_empty] at hnow
        exact ⟨_, hnow.symm⟩
      · intro _ more
        rw [hspares.deframer, hspares.stream, hothers]
        simp [ByteArray.empty_append]

end Hears

end Link

namespace Scene

/-- What can happen to a link and its stream. The peer may read at most `n` bytes. The stream
may come to hold more or less, so each direction may have a capacity of its own. -/
inductive Occurrence where
  | incident (i : Incident)
  | sip (n : Nat)
  | resize (capacity : Option Nat)

def Occurrence.failsAll : Occurrence → Bool
  | incident i => i.failsAll
  | _ => false

def onOccurrence (s : Scene) : Occurrence → Scene
  | .incident i => s.onIncident i
  | .sip n =>
    let b := s.link.stream.outbound
    { s with link.stream.outbound := b.extract n b.size }
  | .resize capacity => { s with link.stream.capacity := capacity }

/-- What is left of a scene when all this has occurred. -/
def runOccurrences (s : Scene) (occurrences : List Occurrence) : Scene :=
  occurrences.foldl onOccurrence s

/-- The bytes that the peer manages to send. -/
def sends (s : Scene) : Occurrence → ByteArray
  | .incident (.act (.peerWrite b)) => s.link.stream.accepts b
  | _ => .empty

/-- The frame that the loop takes off the stream and routes. -/
def routes? (s : Scene) : Occurrence → Option Frame
  | .incident (.act (.loop .receive)) => s.delivered? (.loop .receive)
  | _ => none

def sentIn : Scene → List Occurrence → ByteArray
  | _, [] => .empty
  | s, o :: os => s.sends o ++ sentIn (s.onOccurrence o) os

def routedIn : Scene → List Occurrence → List Frame
  | _, [] => []
  | s, o :: os => (s.routes? o).toList ++ routedIn (s.onOccurrence o) os

/-- The complete frames that the peer has managed to send. What follows a frame that is too
long is none. -/
def arrived (s : Scene) (occurrences : List Occurrence) : List Frame :=
  (({} : Deframer).feed (s.sentIn occurrences)).decoded

variable {s : Scene} {sent : ByteArray} {routed : List Frame}

theorem link_onOccurrence_of_routes {o : Occurrence} {f : Frame} (h : s.routes? o = some f) :
    ∃ d, (s.onOccurrence o).link =
      Link.onFrame { s.link with deframer := d, stream.inbound := .empty } f := by
  unfold routes? at h
  split at h
  · cases hitem : s.link.inboundItem with
    | mk item d =>
      simp only [delivered?, hitem] at h
      cases item with
      | frame g =>
        simp only [Option.ite_none_right_eq_some, Option.some.injEq] at h
        obtain ⟨he, rfl⟩ := h
        refine ⟨d, ?_⟩
        simp only [onOccurrence, onIncident, perform, he, if_true, Link.handle, Link.receive, hitem]
      | _ => cases h
  · cases h

theorem agrees_onOccurrence (h : s.link.Agrees) {o : Occurrence} (ho : o.failsAll = false) :
    (s.onOccurrence o).link.Agrees := by
  cases o with
  | incident i => exact agrees_onIncident h ho
  | sip n => exact ⟨h.asks, h.ends⟩
  | resize capacity => exact ⟨h.asks, h.ends⟩

/-- Whatever does not come from the peer and is not reading leaves the reader alone. -/
theorem leavesReader_onOccurrence {o : Occurrence}
    (hwrite : ∀ b, o ≠ .incident (.act (.peerWrite b)))
    (hread : o ≠ .incident (.act (.loop .receive))) :
    s.link.LeavesReader (s.onOccurrence o).link := by
  cases o with
  | sip n => exact Link.leavesReader_of_eq rfl rfl rfl rfl
  | resize capacity => exact Link.leavesReader_of_eq rfl rfl rfl rfl
  | incident i =>
    cases i with
    | readError m =>
      simp only [onOccurrence, onIncident, Link.failRead]
      split
      · exact Link.leavesReader_endLoop _ _
      · exact Link.leavesReader_of_eq rfl rfl rfl rfl
    | writeError m =>
      simp only [onOccurrence, onIncident, Link.failWrite]
      split
      · exact Link.leavesReader_endLoop _ _
      · exact Link.leavesReader_endLoop _ _
      · exact Link.leavesReader_of_eq rfl rfl rfl rfl
    | act a =>
      cases hbytes : a.movesBytes with
      | false =>
        cases hfails : a.failsAll with
        | false =>
          have hspares := s.spares_perform hfails hbytes
          exact Link.leavesReader_of_eq hspares.loop hspares.deframer
            (congrArg Stream.inbound hspares.stream) (congrArg Stream.linkOpen hspares.stream)
        | true =>
          cases a with
          | registry op => exact Link.leavesReader_of_eq rfl rfl rfl rfl
          | _ => cases hfails
      | true =>
        cases a with
        | loop e =>
          simp only [onOccurrence, onIncident, perform]
          split_ifs with he
          · refine Link.leavesReader_handle he ?_
            rintro rfl
            exact hread rfl
          · exact Link.leavesReader_of_eq rfl rfl rfl rfl
        | peerWrite b => exact absurd rfl (hwrite b)
        | peerRead => exact Link.leavesReader_of_eq rfl rfl rfl rfl
        | peerClose => exact Link.leavesReader_of_eq rfl rfl rfl rfl
        | _ => cases hbytes

theorem leadsTo_onOccurrence (s : Scene) (o : Occurrence) :
    s.link.registry.LeadsTo (s.onOccurrence o).link.registry := by
  cases o with
  | incident i => exact s.leadsTo_onIncident i
  | sip n => exact Registry.LeadsTo.refl _
  | resize capacity => exact Registry.LeadsTo.refl _

theorem leadsTo_runOccurrences (s : Scene) (occurrences : List Occurrence) :
    s.link.registry.LeadsTo (s.runOccurrences occurrences).link.registry :=
  List.foldlRecOn (motive := fun t => s.link.registry.LeadsTo t.link.registry) occurrences
    onOccurrence (.refl _) fun t ht o _ => ht.trans (t.leadsTo_onOccurrence o)

theorem ends_onOccurrence (h : s.link.Ends) (o : Occurrence) : (s.onOccurrence o).link.Ends := by
  by_cases hwrite : ∃ b, o = .incident (.act (.peerWrite b))
  · obtain ⟨b, rfl⟩ := hwrite
    intro hended
    obtain ⟨hclosed, hreleased⟩ := h hended
    exact ⟨hclosed, (s.link.stream.linkOpen_peerWrite b).trans hreleased⟩
  · by_cases hread : o = .incident (.act (.loop .receive))
    · subst hread
      simp only [onOccurrence, onIncident, perform]
      split_ifs with he
      · have hgoing := Link.going_of_ready he
        simp only [Link.handle, Link.receive]
        split
        · intro hended
          rw [(Link.spares_onFrame _ _).loop] at hended
          exact Bool.noConfusion (hgoing.symm.trans hended)
        · exact fun _ => ⟨Link.lifecycle_endLoop _, rfl⟩
        · exact fun _ => ⟨Link.lifecycle_endLoop _, rfl⟩
        · exact h
      · exact h
    · exact h.of_leavesReader (leavesReader_onOccurrence (fun b hb => hwrite ⟨b, hb⟩) hread)
        (s.leadsTo_onOccurrence o)

theorem hears_onOccurrence (hends : s.link.Ends) (h : s.link.Hears sent routed) (o : Occurrence) :
    (s.onOccurrence o).link.Hears (sent ++ s.sends o) (routed ++ (s.routes? o).toList) := by
  by_cases hwrite : ∃ b, o = .incident (.act (.peerWrite b))
  · obtain ⟨b, rfl⟩ := hwrite
    have hinbound : (s.onOccurrence (.incident (.act (.peerWrite b)))).link.stream.inbound =
        s.link.stream.inbound ++ s.link.stream.accepts b := s.link.stream.inbound_peerWrite_eq b
    simp only [routes?, Option.toList_none, List.append_nil, sends]
    cases hended : s.link.loop.isEnded with
    | false => exact h.feed hended rfl hinbound
    | true =>
      -- nothing is taken by a stream that has been released
      have hnothing : s.link.stream.accepts b = .empty := by
        simp [Stream.accepts, (hends hended).2]
      rw [hnothing, ByteArray.append_empty]
      exact ⟨h.first, fun hgoing => Bool.noConfusion (hgoing.symm.trans hended)⟩
  · have hnosend : s.sends o = .empty := by
      unfold sends
      split
      case h_1 b => exact absurd ⟨b, rfl⟩ hwrite
      case h_2 => rfl
    rw [hnosend, ByteArray.append_empty]
    by_cases hread : o = .incident (.act (.loop .receive))
    · subst hread
      simp only [routes?, delivered?, onOccurrence, onIncident, perform]
      by_cases he : Link.Event.receive ∈ s.link.ready s.isHeld
      · have hreceive := h.receive (Link.going_of_ready he)
        simp only [he, if_true]
        cases hitem : s.link.inboundItem.1 <;> simpa [hitem, Link.handle] using hreceive
      · simp only [he, if_false]
        cases s.link.inboundItem.1 <;> simpa using h
    · have hnone : s.routes? o = none := by
        unfold routes?
        split
        · exact absurd rfl hread
        · rfl
      rw [hnone, Option.toList_none, List.append_nil]
      exact h.of_leavesReader (leavesReader_onOccurrence (fun b hb => hwrite ⟨b, hb⟩) hread)

theorem hears_runOccurrences (hends : s.link.Ends) (h : s.link.Hears sent routed)
    (occurrences : List Occurrence) :
    (s.runOccurrences occurrences).link.Ends ∧
      (s.runOccurrences occurrences).link.Hears (sent ++ s.sentIn occurrences)
        (routed ++ s.routedIn occurrences) := by
  induction occurrences generalizing s sent routed with
  | nil =>
    rw [sentIn, routedIn, ByteArray.append_empty, List.append_nil]
    exact ⟨hends, h⟩
  | cons o os ih =>
    rw [sentIn, routedIn, ← ByteArray.append_assoc, ← List.append_assoc]
    exact ih (ends_onOccurrence hends o) (hears_onOccurrence hends h o)

theorem agrees_runOccurrences (h : s.link.Agrees) {occurrences : List Occurrence}
    (hall : ∀ o ∈ occurrences, o.failsAll = false) : (s.runOccurrences occurrences).link.Agrees :=
  List.foldlRecOn (motive := fun t => t.link.Agrees) occurrences onOccurrence h
    fun _ ht o ho => agrees_onOccurrence ht (hall o ho)

/-- At rest with no write held up, a loop that goes on has read everything, and has not been
asked to end. -/
theorem routed_of_ready (h : s.link.Hears sent routed) {held : Bool}
    (hrest : s.link.ready held = []) (hgoes : s.link.isStalled = false)
    (hgoing : s.link.loop.isEnded = false) :
    s.link.shutdown = false ∧ routed = (({} : Deframer).feed sent).decoded := by
  cases hloop : s.link.loop with
  | ended =>
    rw [hloop] at hgoing
    cases hgoing
  | writing rest =>
    have hmoves : s.link.stream.writable rest = true := by
      simpa [Link.isStalled, hloop] using hgoes
    simp [Link.ready, hloop, hmoves] at hrest
  | running =>
    simp only [Link.ready, hloop, List.append_eq_nil_iff] at hrest
    obtain ⟨⟨⟨hidle, -⟩, hstop⟩, -⟩ := hrest
    have hcannot : s.link.canReceive = false := by
      by_contra hcan
      simp [hcan] at hidle
    refine ⟨by simpa using hstop, ?_⟩
    simp only [Link.canReceive, Bool.or_eq_false_iff, Bool.not_eq_false'] at hcannot
    have hempty := eq_empty_of_isEmpty hcannot.1
    cases hitem : s.link.inboundItem with
    | mk item d =>
      rw [hitem] at hcannot
      cases item with
      | starved =>
        have hnext : s.link.deframer.next s.link.stream.ended = (.starved, d) := by
          simpa [Link.inboundItem, hempty] using hitem
        have hnone : ∀ f d', s.link.deframer.next false ≠ (.frame f, d') := by
          intro f d' hframe
          have h' := Deframer.next_feed_of_frame hframe .empty s.link.stream.ended
          rw [Deframer.feed_empty, hnext] at h'
          cases h'
        have hall := h.others hgoing .empty
        rw [ByteArray.append_empty, hempty, ByteArray.append_empty, Deframer.feed_empty,
          Deframer.decoded_of_no_frame hnone, List.append_nil] at hall
        exact hall.symm
      | frame f => simp at hcannot
      | fault f => simp at hcannot
      | finished => simp at hcannot

theorem hears_of_link {plan : Plan} {policy : Policy} {capacity : Option Nat} {l : Link}
    (hlink : plan.link policy { capacity := capacity } = .ok l) :
    l.loop.isEnded = false ∧ l.Hears .empty [] := by
  obtain ⟨r, -, rfl⟩ := Plan.eq_of_link hlink
  exact ⟨rfl, .start rfl rfl⟩

/-- Whatever occurs to a new link and its stream: the frames that have been routed are the
first of those that have arrived, and each has been dealt with by the link. At rest, with no
write held up, all of them have been routed, or the loop has ended, and then the link is closed
and the stream released; the loop of a link that is closed has ended, unless the registry was
told to fail all that is pending without a word to the loop. A write is held up only
as long as the peer leaves the stream full, and then the loop goes on when the peer has
read. -/
theorem routed_unless_stalled {plan : Plan} {policy : Policy} {capacity : Option Nat}
    (hlink : plan.link policy { capacity := capacity } = .ok s.link)
    (occurrences : List Occurrence) :
    let t := s.runOccurrences occurrences
    s.routedIn occurrences <+: s.arrived occurrences ∧
      (∀ before o f, before ++ [o] <+: occurrences → (s.runOccurrences before).routes? o = some f →
        ∃ d, (s.runOccurrences (before ++ [o])).link =
          Link.onFrame
            { (s.runOccurrences before).link with deframer := d, stream.inbound := .empty } f) ∧
      (t.link.ready t.isHeld = [] → t.link.isStalled = false →
        (s.routedIn occurrences = s.arrived occurrences ∨ t.link.loop.isEnded = true) ∧
        (t.link.loop.isEnded = true →
          t.link.lifecycle = .closed ∧ t.link.stream.linkOpen = false) ∧
        ((∀ o ∈ occurrences, o.failsAll = false) → t.link.lifecycle = .closed →
          t.link.loop.isEnded = true)) ∧
      (t.link.isStalled = true →
        t.link.stream.peerOpen = true ∧
        (∃ c, t.link.stream.capacity = some c ∧ c ≤ t.link.stream.outbound.size) ∧
        (t.link.stream.capacity ≠ some 0 →
          (t.perform .peerRead).link.ready t.isHeld = [.continueWriting])) := by
  intro t
  obtain ⟨hnew, hstart⟩ := hears_of_link hlink
  obtain ⟨-, -, hagrees, -, -⟩ := starts_of_link hlink
  obtain ⟨hends, hhears⟩ := hears_runOccurrences hagrees.ends hstart occurrences
  rw [ByteArray.empty_append, List.nil_append] at hhears
  refine ⟨hhears.first, fun before o f _ hroutes => ?_,
    fun hrest hgoes => ⟨?_, hends, fun hown hclosed => ?_⟩, fun hstalled => ?_⟩
  · obtain ⟨d, hlink⟩ := link_onOccurrence_of_routes hroutes
    exact ⟨d, by rw [← hlink, runOccurrences, List.foldl_append]; rfl⟩
  · cases hended : t.link.loop.isEnded with
    | true => exact Or.inr rfl
    | false => exact Or.inl (routed_of_ready hhears hrest hgoes hended).2
  · by_contra hgoing
    have hshut := (routed_of_ready hhears hrest hgoes (by simpa using hgoing)).1
    rw [(agrees_runOccurrences hagrees hown).asks hclosed] at hshut
    cases hshut
  · obtain ⟨hpeer, hfull⟩ := Link.full_of_isStalled hstalled
    refine ⟨hpeer, hfull, fun hroom => ?_⟩
    obtain ⟨rest, hloop, -⟩ := Link.isStalled_iff.mp hstalled
    have hloop' : (t.perform .peerRead).link.loop = .writing rest := hloop
    rw [Link.ready, hloop']
    have hwritable : (t.link.stream.peerRead.2).writable rest = true :=
      Stream.writable_of_read (s := t.link.stream.peerRead.2) rfl hroom rest
    change (if (t.link.stream.peerRead.2).writable rest then [_] else []) = _
    rw [if_pos hwritable]

/-- A new link over a stream that holds less than the setup. -/
def narrow : Scene where
  link :=
    { registry := { gate := { ceiling := 2, policy := .block, free := 2 } }
      stream := { capacity := some 64 } }

/-- The setup fills the stream; the peer does not read it, but accepts. -/
def acceptedUnread : List Occurrence :=
  [.incident (.act (.connect {})), .incident (.act (.loop .send)),
    .incident (.act (.peerWrite acceptance.packet))]

/-- Meanwhile the link is closed, and the time for that runs out. -/
def closedUnread : List Occurrence :=
  acceptedUnread ++ [.incident (.act .close),
    .incident (.act (.advance (Duration.ofSeconds 5))), .incident (.act (.poll 0))]

/-- The peer reads a part, the loop writes the rest, and then it does this. -/
def onceRead (e : Link.Event) : List Occurrence :=
  [.sip 60, .incident (.act (.loop .continueWriting)), .incident (.act (.loop e))]

/-- Once the peer reads, what has arrived is routed, or the loop of the closed link ends. -/
theorem routed_once_setup_is_read :
    let t := narrow.runOccurrences acceptedUnread
    let u := narrow.runOccurrences (acceptedUnread ++ onceRead .receive)
    let v := narrow.runOccurrences (closedUnread ++ onceRead .stop)
    (t.link.isStalled = true ∧
      (t.perform .peerRead).link.ready t.isHeld = [.continueWriting]) ∧
    (u.link.loop.isEnded = false ∧ narrow.routedIn (acceptedUnread ++ onceRead .receive) =
      narrow.arrived (acceptedUnread ++ onceRead .receive)) ∧
    v.link.lifecycle = .closed ∧ v.link.stream.linkOpen = false := by
  have hlink : Plan.link { options := { limit := 2 } } .block { capacity := some 64 } =
      .ok narrow.link := rfl
  have hown : ∀ o ∈ closedUnread ++ onceRead .stop, o.failsAll = false := by decide
  obtain ⟨-, -, -, hread⟩ := routed_unless_stalled hlink acceptedUnread
  obtain ⟨-, -, hserved, -⟩ := routed_unless_stalled hlink (acceptedUnread ++ onceRead .receive)
  obtain ⟨-, -, hended, -⟩ := routed_unless_stalled hlink (closedUnread ++ onceRead .stop)
  revert hread hserved hended
  generalize ht : narrow.runOccurrences acceptedUnread = t
  generalize hu : narrow.runOccurrences (acceptedUnread ++ onceRead .receive) = u
  generalize hv : narrow.runOccurrences (closedUnread ++ onceRead .stop) = v
  intro hread hserved hended
  have hstalled : t.link.isStalled = true ∧ t.link.stream.capacity ≠ some 0 := by
    rw [← ht]
    decide +kernel
  obtain ⟨hrest, hgoes, hgoing⟩ : u.link.ready u.isHeld = [] ∧ u.link.isStalled = false ∧
      u.link.loop.isEnded = false := by
    rw [← hu]
    decide +kernel
  obtain ⟨hrest', hgoes', hclosed⟩ : v.link.ready v.isHeld = [] ∧ v.link.isStalled = false ∧
      v.link.lifecycle = .closed := by
    rw [← hv]
    decide +kernel
  obtain ⟨-, hreleased, hends⟩ := hended hrest' hgoes'
  refine ⟨⟨hstalled.1, (hread hstalled.1).2.2 hstalled.2⟩, ⟨hgoing, ?_⟩, hclosed,
    (hreleased (hends hown hclosed)).2⟩
  exact (hserved hrest hgoes).1.resolve_right (by simp [hgoing])

/-- A write that is held up keeps the loop from what has arrived and, when the link is closed,
from its end. A link that is closed behind its back keeps its loop, too. -/
theorem held_up_by_unread_setup :
    let s := narrow.runOccurrences acceptedUnread
    let t := narrow.runOccurrences closedUnread
    let u := narrow.runOccurrences [.incident (.act (.registry (.failAll (.closing "gone"))))]
    s.link.ready s.isHeld = [] ∧ narrow.routedIn acceptedUnread = [] ∧
      narrow.arrived acceptedUnread = [acceptance] ∧
      t.link.ready t.isHeld = [] ∧ t.link.lifecycle = .closed ∧
      t.link.loop.isEnded = false ∧ t.link.stream.linkOpen = true ∧
      u.link.ready u.isHeld = [] ∧ u.link.lifecycle = .closed ∧
      u.link.loop.isEnded = false := by
  decide +kernel

end Scene

end Switchboard
