import Switchboard.Proofs.ClientDeeds
import Switchboard.Proofs.WaitingCalls

/-!
What is put into the queue of a link, and when. Only the loop takes frames out of the queue,
so what any other action puts in stands at its end. `connect` may put in the setup; whatever
else puts in a frame does so on a link that is ready.
-/
namespace Switchboard

open Registry (LeadsTo Change)

namespace Registry

variable {r s : Registry}

theorem grants_of_not_ready (hready : r.lifecycle ≠ .ready) (op : Op)
    (hop : op.isAtGate = true) : r.grants op = none := by
  have hc := change_of_act r op
  generalize r.after op = s at hc
  cases hgranted : r.grants op with
  | none => rfl
  | some h =>
    rw [hgranted] at hc
    cases hc with
    | enters _ hr _ => exact absurd hr hready
    | greets _ _ => cases hop

end Registry

namespace Link

/-! What leaves the queue alone -/

theorem outbox_fail (l : Link) (f : Failure) : (l.fail f).outbox = l.outbox := by
  unfold fail
  dsimp only
  split
  · split
    · rfl
    · rfl
  · split
    · rfl
    · rfl

theorem outbox_onTransportError (l : Link) (f : Failure) :
    (l.onTransportError f).outbox = l.outbox := by
  unfold onTransportError
  split
  · rfl
  · exact l.outbox_fail _

theorem outbox_onHandshake (l : Link) (b : Body) : (l.onHandshake b).outbox = l.outbox := by
  unfold onHandshake
  split
  · rfl
  · cases handshakeComplaint b with
    | none => rfl
    | some m => exact l.outbox_fail _

theorem outbox_onFrame (l : Link) (f : Frame) : (l.onFrame f).outbox = l.outbox := by
  unfold onFrame
  cases l.codec.deserialize f with
  | error e => exact l.outbox_onTransportError e
  | ok a =>
    obtain ⟨id, b⟩ := a
    by_cases hid : id = RequestId.handshake
    · subst hid
      exact l.outbox_onHandshake b
    · dsimp only
      rcases l.onResponse_of_ordinary hid b with ⟨m, -, heq⟩ | ⟨-, heq⟩
      · rw [heq]
        exact outbox_onTransportError _ _
      · rw [heq]
        rfl

theorem outbox_awaitGreeting (l : Link) (now : Instant) (h : Handle) (limit : Duration)
    (deadline : Instant) : (l.awaitGreeting now h limit deadline).1.outbox = l.outbox := by
  unfold awaitGreeting
  split
  · rfl
  · rfl
  · split
    · exact l.outbox_onTransportError _
    · rfl

theorem outbox_drop (l : Link) (c : Call) : (c.drop l).outbox = l.outbox := by
  cases c with
  | inLine w e => rfl
  | _ => rfl

theorem outbox_close (l : Link) (now : Instant) : (l.close now).1.outbox = l.outbox := by
  rcases l.close_cases now with ⟨p, hwaits⟩ | hends
  · rw [hwaits]
    rfl
  · rw [hends]
    rfl

/-! What puts frames at its end -/

/-- Frames have been put at the end of the queue; none, unless the link was ready. -/
structure Feeds (l l' : Link) : Prop where
  grows : l.outbox <+: l'.outbox
  idle : l.lifecycle ≠ .ready → l'.outbox = l.outbox

theorem Feeds.of_eq {l l' : Link} (h : l'.outbox = l.outbox) : Feeds l l' where
  grows := h ▸ List.prefix_rfl
  idle _ := h

theorem feeds_send (l : Link) (f : Frame) : Feeds l (l.send f).1 := by
  unfold send
  cases hrej : l.registry.rejection with
  | some e => exact Feeds.of_eq rfl
  | none =>
    have hready : l.lifecycle = .ready := (Registry.rejection_eq_none_iff _).mp hrej
    cases hended : l.loop.isEnded with
    | true =>
      simp only [enqueue, hended, if_true]
      exact Feeds.of_eq rfl
    | false =>
      simp only [enqueue, hended, Bool.false_eq_true, if_false]
      exact ⟨List.prefix_append _ _, fun hne => absurd hready hne⟩

theorem feeds_transmit (l : Link) (h : Handle) (p : Payload) :
    Feeds l (l.transmit h p).1 := by
  unfold transmit
  cases l.codec.serialize h.id p with
  | error f => exact Feeds.of_eq rfl
  | ok f =>
    have hsend := l.feeds_send f
    dsimp only
    generalize l.send f = a at hsend ⊢
    obtain ⟨l', answer⟩ := a
    cases answer with
    | ok u => exact hsend
    | error e => exact ⟨hsend.grows, hsend.idle⟩

theorem feeds_proceed {l : Link} (now : Instant) (e : Errand) {a : Link × Registration}
    (hqueue : a.1.outbox = l.outbox) (hslot : l.lifecycle ≠ .ready → a.2.handle? = none) :
    Feeds l (proceed now e a).1 := by
  rcases link_proceed_cases now e a with hsame | ⟨h, p, hgranted, hsent⟩
  · rw [hsame]
    exact Feeds.of_eq hqueue
  · have hready : l.lifecycle = .ready := by
      by_contra hne
      rw [hgranted] at hslot
      exact absurd (hslot hne) nofun
    have hgrows := (a.1.feeds_transmit h p).grows
    rw [hqueue] at hgrows
    rw [hsent]
    exact ⟨hgrows, fun hne => absurd hready hne⟩

theorem feeds_start (l : Link) (now : Instant) (e : Errand) : Feeds l (l.start now e).1 :=
  feeds_proceed now e rfl fun hne => Registry.grants_of_not_ready hne .register rfl

theorem feeds_trySubmit (l : Link) (p : Payload) : Feeds l (l.trySubmit p).1 := by
  rcases l.link_trySubmit_cases p with hsame | ⟨h, hgranted, hsent⟩
  · rw [hsame]
    exact Feeds.of_eq rfl
  · have hready : l.lifecycle = .ready := by
      by_contra hne
      have hnobody := Registry.grants_of_not_ready hne .tryRegister rfl
      rw [Registry.grants, Registry.act, hgranted] at hnobody
      cases hnobody
    rw [hsent]
    exact ⟨((l.via Registry.tryRegister).1.feeds_transmit h p).grows,
      fun hne => absurd hready hne⟩

theorem feeds_poll {l : Link} (now : Instant) {c : Call}
    (hc : c.Allows Registry.Quiet l.registry) : Feeds l (c.poll now l).1 := by
  cases c with
  | inLine w e =>
    exact feeds_proceed now e rfl fun hne => Registry.grants_of_not_ready hne (.resume w) rfl
  | closing deadline? =>
    rw [Call.poll]
    split
    · exact Feeds.of_eq rfl
    · exact Feeds.of_eq rfl
  | dialling s limit deadline => cases hc
  | greeted h limit deadline => exact Feeds.of_eq (l.outbox_awaitGreeting now h limit deadline)
  | drained | closed | settled | settledBy | answered | linking => exact Feeds.of_eq rfl

/-- All that `connect` can do: the handshake has been registered before, or cannot be any
more; or it is registered now, and then the setup is put into the queue or the link closed. -/
theorem connect_cases (l : Link) (c : Setup) :
    (∃ f, (l.connect c).2 = .error f ∧ (l.connect c).1 = l) ∨
      ∃ h, l.registry.greet.2 = .ok h ∧ (l.connect c).2 = .ok h ∧
        ((l.connect c).1.lifecycle = .closed ∧ (l.connect c).1.outbox = l.outbox ∨
          ∃ g, l.codec.serialize RequestId.handshake (.connect c) = .ok g ∧
            (l.connect c).1 =
              { l with registry := l.registry.greet.1, outbox := l.outbox ++ [g] }) := by
  rcases l.connect_results c with ⟨f, hsame⟩ | ⟨h, hh, ⟨m, hfails⟩ | hbreaks | ⟨g, hg, hqueued⟩⟩
  · rw [hsame]
    exact Or.inl ⟨f, rfl, rfl⟩
  · rw [hfails]
    exact Or.inr ⟨h, hh, rfl, Or.inl ⟨lifecycle_fail _ _, outbox_fail _ _⟩⟩
  · rw [hbreaks]
    exact Or.inr ⟨h, hh, rfl,
      Or.inl ⟨lifecycle_onTransportError _ _, outbox_onTransportError _ _⟩⟩
  · rw [hqueued]
    exact Or.inr ⟨h, hh, rfl, Or.inr ⟨g, hg, rfl⟩⟩

end Link

namespace Scene

/-- The frames that an action puts into the queue. -/
def queues (s : Scene) : Action → List Frame
  | .loop _ => []
  | a => (s.perform a).link.outbox.drop s.link.outbox.length

/-- The frames that are put into the queue in a run, the oldest first. -/
def queuedIn : Scene → List Action → List Frame
  | _, [] => []
  | s, a :: acts => s.queues a ++ queuedIn (s.perform a) acts

theorem queuedIn_append (s : Scene) (acts more : List Action) :
    s.queuedIn (acts ++ more) = s.queuedIn acts ++ (s.run acts).queuedIn more := by
  induction acts generalizing s with
  | nil => rfl
  | cons a acts ih =>
    rw [List.cons_append, queuedIn, queuedIn, ih, List.append_assoc, run_cons]

/-- An action other than `connect` feeds the queue if the link is ready, or not at all. -/
theorem feeds_perform {s : Scene} (hquiet : s.Quiet) {a : Action} (hloop : ∀ e, a ≠ .loop e)
    (hconnect : ∀ c, a ≠ .connect c) : s.link.Feeds (s.perform a).link := by
  cases a with
  | start e =>
    rw [perform, link_join]
    exact s.link.feeds_start s.now e
  | trySubmit p => exact s.link.feeds_trySubmit p
  | connect c => exact absurd rfl (hconnect c)
  | send f => exact s.link.feeds_send f
  | frame f => exact Link.Feeds.of_eq (s.link.outbox_onFrame f)
  | fault f => exact Link.Feeds.of_eq (s.link.outbox_onTransportError f)
  | close =>
    rw [perform, link_join]
    exact Link.Feeds.of_eq (s.link.outbox_close s.now)
  | closed | drained | settled | waitFor =>
    rw [perform, link_join]
    exact Link.Feeds.of_eq rfl
  | poll i =>
    rw [perform]
    cases hi : s.calls[i]? with
    | none => exact Link.Feeds.of_eq rfl
    | some c =>
      dsimp only
      rw [link_rejoin]
      exact Link.feeds_poll s.now (hquiet c (List.mem_of_getElem? hi))
  | drop i =>
    rw [perform]
    cases s.calls[i]? with
    | none => exact Link.Feeds.of_eq rfl
    | some c => exact Link.Feeds.of_eq (s.link.outbox_drop c)
  | loop e => exact absurd rfl (hloop e)
  | _ => exact Link.Feeds.of_eq rfl

/-- `connect` puts the setup into the queue if it registers the handshake and the link stays
open, and nothing otherwise. -/
theorem queues_connect (s : Scene) (c : Setup) :
    (∃ f, (s.link.connect c).2 = .error f ∧ (s.perform (.connect c)).link = s.link ∧
        s.queues (.connect c) = []) ∨
      ∃ h, s.link.registry.greet.2 = .ok h ∧ (s.link.connect c).2 = .ok h ∧
        ((s.perform (.connect c)).link.lifecycle = .closed ∧ s.queues (.connect c) = [] ∨
          (s.perform (.connect c)).link.registry = s.link.registry.greet.1 ∧
          ∃ g, s.link.codec.serialize RequestId.handshake (.connect c) = .ok g ∧
            s.queues (.connect c) = [g]) := by
  rcases s.link.connect_cases c with ⟨f, hf, hsame⟩ | ⟨h, hgreet, hh, hdone⟩
  · refine Or.inl ⟨f, hf, hsame, ?_⟩
    simp [queues, perform, hsame]
  · refine Or.inr ⟨h, hgreet, hh, ?_⟩
    rcases hdone with ⟨hclosed, hqueue⟩ | ⟨g, hg, hlink⟩
    · refine Or.inl ⟨hclosed, ?_⟩
      simp [queues, perform, hqueue]
    · refine Or.inr ⟨?_, g, hg, ?_⟩
      · simp [perform, hlink]
      · simp [queues, perform, hlink]

/-- What an action puts into the queue stands at its end, and nothing else changes there,
unless the loop has its turn. -/
theorem outbox_perform {s : Scene} (hquiet : s.Quiet) {a : Action} (hloop : ∀ e, a ≠ .loop e) :
    (s.perform a).link.outbox = s.link.outbox ++ s.queues a := by
  have hgrows : s.link.outbox <+: (s.perform a).link.outbox := by
    by_cases hconnect : ∃ c, a = .connect c
    · obtain ⟨c, rfl⟩ := hconnect
      rw [perform]
      rcases s.link.connect_cases c with ⟨-, -, hsame⟩ | ⟨-, -, -, ⟨-, hqueue⟩ | ⟨g, -, hlink⟩⟩
      · exact (Link.Feeds.of_eq (congrArg Link.outbox hsame)).grows
      · exact (Link.Feeds.of_eq hqueue).grows
      · rw [hlink]
        exact List.prefix_append _ _
    · exact (feeds_perform hquiet hloop (not_exists.mp hconnect)).grows
  have hqueues : s.queues a = (s.perform a).link.outbox.drop s.link.outbox.length := by
    unfold queues
    split
    · exact absurd rfl (hloop _)
    · rfl
  rw [hqueues]
  exact (List.prefix_iff_eq_append.mp hgrows).symm

/-- Only `connect` puts anything into the queue of a link that is not ready. -/
theorem queues_eq_nil {s : Scene} (hquiet : s.Quiet) (hready : s.link.lifecycle ≠ .ready)
    {a : Action} (hconnect : ∀ c, a ≠ .connect c) : s.queues a = [] := by
  by_cases hloop : ∃ e, a = .loop e
  · obtain ⟨e, rfl⟩ := hloop
    rfl
  · have hsame := (feeds_perform hquiet (not_exists.mp hloop) hconnect).idle hready
    unfold queues
    split
    · rfl
    · rw [hsame, List.drop_length]

end Scene

end Switchboard
