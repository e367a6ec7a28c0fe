import Switchboard.Proofs.CalmActions
import Switchboard.Proofs.LoopAgreement

/-!
The frames that a link accepts: the setup, when `connect` registers the handshake, and each
frame that is sent with success, alone or for a payload that somebody submits. What a link
accepts is put at the end of its queue at once, and nothing else is. So the queue of a run
has the frames in the order in which they were accepted.
-/
namespace Switchboard

namespace Link

variable {l : Link}

/-- The setup is put into the queue when the handshake is registered. -/
theorem connect_of_ok {c : Setup} {h : Handle} {g : Frame} (hgreet : l.registry.greet.2 = .ok h)
    (hg : l.codec.serialize RequestId.handshake (.connect c) = .ok g)
    (hgoing : l.loop.isEnded = false) :
    l.connect c =
      ({ l with registry := l.registry.greet.1, outbox := l.outbox ++ [g] }, .ok h) := by
  unfold connect via
  generalize l.registry.greet = a at hgreet ⊢
  obtain ⟨r, answer⟩ := a
  subst hgreet
  simp [hg, enqueue, hgoing]

theorem send_of_not_ready (hready : l.lifecycle ≠ .ready) (f : Frame) :
    ∃ e, l.registry.rejection = some e ∧ l.send f = (l, .error e) := by
  cases hrej : l.registry.rejection with
  | none => exact absurd ((Registry.rejection_eq_none_iff _).mp hrej) hready
  | some e =>
    refine ⟨e, rfl, ?_⟩
    simp [send, hrej]

theorem send_cases (l : Link) (f : Frame) :
    ((l.send f).2 = .ok () ∧ (l.send f).1.outbox = l.outbox ++ [f]) ∨
      ∃ e, (l.send f).2 = .error e ∧ (l.send f).1.outbox = l.outbox := by
  unfold send
  cases l.registry.rejection with
  | some e => exact Or.inr ⟨e, rfl, rfl⟩
  | none =>
    cases hended : l.loop.isEnded with
    | true =>
      have hnone : l.enqueue f = none := if_pos hended
      rw [hnone]
      exact Or.inr ⟨loopGone, rfl, rfl⟩
    | false =>
      have hsome : l.enqueue f = some { l with outbox := l.outbox ++ [f] } := by
        simp [enqueue, hended]
      rw [hsome]
      exact Or.inl ⟨rfl, rfl⟩

theorem postedBy_of_not_granted (e : Errand) {a : Link × Registration}
    (h : a.2.handle? = none) : postedBy e a = [] := by
  obtain ⟨l, a⟩ := a
  cases a with
  | granted g => cases h
  | waiting w => rfl
  | refused f => rfl

theorem postedBy_of_payload?_none {e : Errand} (he : e.payload? = none)
    (a : Link × Registration) : postedBy e a = [] := by
  obtain ⟨l, a⟩ := a
  cases a with
  | granted g => simp [postedBy, he]
  | waiting w => rfl
  | refused f => rfl

theorem outbox_proceed_of_payload?_none (now : Instant) {e : Errand} (he : e.payload? = none)
    (a : Link × Registration) : (proceed now e a).1.outbox = a.1.outbox := by
  obtain ⟨l, a⟩ := a
  cases e with
  | register => cases a <;> rfl
  | submit p => cases he
  | execute p limit => cases he

/-- A call that does not submit anything puts nothing into the queue. -/
theorem outbox_poll {now : Instant} {c : Call} (hc : c.Allows Registry.Quiet l.registry)
    (hline : ∀ w e, c = .inLine w e → e.payload? = none) :
    (c.poll now l).1.outbox = l.outbox := by
  cases c with
  | inLine w e => exact outbox_proceed_of_payload?_none now (hline w e rfl) _
  | closing deadline? =>
    rw [Call.poll]
    split
    · rfl
    · rfl
  | dialling s limit deadline => cases hc
  | greeted h limit deadline => exact l.outbox_awaitGreeting now h limit deadline
  | _ => rfl

end Link

namespace Scene

variable {s : Scene}

/-- The frames that the link accepts by an action: the setup with the handshake, a frame that
is sent with success, and that of a payload whose submission succeeds. -/
def accepts (s : Scene) : Action → List Frame
  | .connect c =>
    match (s.link.connect c).2, s.link.codec.serialize RequestId.handshake (.connect c) with
    | .ok _, .ok f => [f]
    | _, _ => []
  | .send f =>
    match (s.link.send f).2 with
    | .ok _ => [f]
    | .error _ => []
  | a => (s.posted a).filterMap fun q => (s.link.codec.serialize q.1.id q.2).toOption

theorem accepts_of_ne {a : Action} (hconnect : ∀ c, a ≠ .connect c) (hsend : ∀ f, a ≠ .send f) :
    s.accepts a =
      (s.posted a).filterMap fun q => (s.link.codec.serialize q.1.id q.2).toOption := by
  cases a with
  | connect c => exact absurd rfl (hconnect c)
  | send f => exact absurd rfl (hsend f)
  | _ => rfl

/-- The frames that the link accepts in a run, in the order of the calls. -/
def acceptedIn : Scene → List Action → List Frame
  | _, [] => []
  | s, a :: acts => s.accepts a ++ acceptedIn (s.perform a) acts

theorem posted_eq_nil (hready : s.link.lifecycle ≠ .ready) (a : Action) : s.posted a = [] := by
  have hnone : ∀ op : Registry.Op, op.isAtGate = true → s.link.registry.grants op = none :=
    Registry.grants_of_not_ready hready
  cases a with
  | start e => exact Link.postedBy_of_not_granted e (hnone .register rfl)
  | trySubmit p =>
    have hrefused : s.link.registry.tryRegister.2.toOption = none := hnone .tryRegister rfl
    rw [posted]
    cases hgate : s.link.via Registry.tryRegister with
    | mk l answer =>
      cases answer with
      | error f => rfl
      | ok h =>
        have hgranted : s.link.registry.tryRegister.2 = .ok h := congrArg Prod.snd hgate
        rw [hgranted] at hrefused
        cases hrefused
  | poll i =>
    rw [posted]
    split
    case h_1 w e _ => exact Link.postedBy_of_not_granted e (hnone (.resume w) rfl)
    case h_2 => rfl
  | _ => rfl

theorem posted_of_submitted?_none {a : Action} (ha : s.submitted? a = none) :
    s.posted a = [] := by
  cases a with
  | start e => exact Link.postedBy_of_payload?_none ha _
  | trySubmit p => cases ha
  | poll i =>
    rw [posted]
    cases hi : s.calls[i]? with
    | none => rfl
    | some c =>
      cases c with
      | inLine w e =>
        simp only [submitted?, hi] at ha
        exact Link.postedBy_of_payload?_none ha _
      | _ => rfl
  | _ => rfl

/-- Whoever neither connects nor sends nor submits leaves the queue as it is. -/
theorem outbox_of_submitted?_none (hquiet : s.Quiet) {a : Action} (ha : s.submitted? a = none)
    (hloop : ∀ e, a ≠ .loop e) (hconnect : ∀ c, a ≠ .connect c) (hsend : ∀ f, a ≠ .send f) :
    (s.perform a).link.outbox = s.link.outbox := by
  cases a with
  | start e =>
    rw [perform, link_join]
    exact Link.outbox_proceed_of_payload?_none s.now ha _
  | trySubmit p => cases ha
  | connect c => exact absurd rfl (hconnect c)
  | send f => exact absurd rfl (hsend f)
  | frame f => exact s.link.outbox_onFrame f
  | fault f => exact s.link.outbox_onTransportError f
  | close =>
    rw [perform, link_join]
    exact s.link.outbox_close s.now
  | closed | drained | settled | waitFor =>
    rw [perform, link_join]
    rfl
  | poll i =>
    rw [perform]
    cases hi : s.calls[i]? with
    | none => rfl
    | some c =>
      dsimp only
      rw [link_rejoin]
      refine Link.outbox_poll (hquiet c (List.mem_of_getElem? hi)) ?_
      rintro w e rfl
      simpa only [submitted?, hi] using ha
  | drop i =>
    rw [perform]
    cases s.calls[i]? with
    | none => rfl
    | some c => exact s.link.outbox_drop c
  | loop e => exact absurd rfl (hloop e)
  | _ => rfl

theorem queues_connect_eq_accepts (hagrees : s.link.Agrees) (c : Setup) :
    s.queues (.connect c) = s.accepts (.connect c) := by
  rcases s.queues_connect c with ⟨f, hf, -, hnone⟩ | ⟨h, hgreet, hh, hdone⟩
  · simp only [hnone, accepts, hf]
  · rcases hdone with ⟨hclosed, hnone⟩ | ⟨-, g, hg, hone⟩
    · cases hg : s.link.codec.serialize RequestId.handshake (.connect c) with
      | error f => simp only [hnone, accepts, hh, hg]
      | ok g =>
        -- a link that connects has its loop, so that the setup would be in the queue
        have hconnecting := (Registry.greet_of_ok hgreet).1
        have hgoing : s.link.loop.isEnded = false := by
          rw [← Bool.not_eq_true]
          intro hended
          exact absurd (hconnecting.symm.trans (hagrees.ends hended).1) (by decide)
        rw [perform, Link.connect_of_ok hgreet hg hgoing] at hclosed
        exact absurd ((Registry.lifecycle_greet hgreet).symm.trans hclosed) (by decide)
    · simp only [hone, accepts, hh, hg]

/-- What is put into the queue is what is accepted. -/
theorem queues_eq_accepts (hl : Registry.Sound s.link.registry) (hquiet : s.Quiet)
    (hagrees : s.link.Agrees) (a : Action) : s.queues a = s.accepts a := by
  by_cases hconnect : ∃ c, a = .connect c
  · obtain ⟨c, rfl⟩ := hconnect
    exact queues_connect_eq_accepts hagrees c
  by_cases hsend : ∃ f, a = .send f
  · obtain ⟨f, rfl⟩ := hsend
    rcases s.link.send_cases f with ⟨hok, hqueue⟩ | ⟨e, he, hqueue⟩
    · rw [queues_of_append (a := .send f) nofun hqueue]
      simp only [accepts, hok]
    · rw [queues_of_append (a := .send f) nofun (hqueue.trans (List.append_nil _).symm)]
      simp only [accepts, he]
  rw [accepts_of_ne (not_exists.mp hconnect) (not_exists.mp hsend)]
  cases ha : s.submitted? a with
  | none =>
    rw [posted_of_submitted?_none ha]
    by_cases hloop : ∃ e, a = .loop e
    · obtain ⟨e, rfl⟩ := hloop
      rfl
    · have hsame := outbox_of_submitted?_none hquiet ha (not_exists.mp hloop)
        (not_exists.mp hconnect) (not_exists.mp hsend)
      exact queues_of_append (not_exists.mp hloop) (hsame.trans (List.append_nil _).symm)
  | some p =>
    by_cases hready : s.link.lifecycle = .ready
    · obtain ⟨-, ⟨hnone, hqueue, -⟩ | ⟨h, g, hone, hg, hqueue, -⟩⟩ :=
        submission hl hquiet hready ha
      · rw [hnone, hqueue]
        rfl
      · rw [hone, hqueue]
        simp [hg, Except.toOption]
    · rw [posted_eq_nil hready, queues_eq_nil hquiet hready (not_exists.mp hconnect)]
      rfl

theorem queuedIn_eq_acceptedIn (hl : Registry.Sound s.link.registry) (hquiet : s.Quiet)
    (hagrees : s.link.Agrees) {acts : List Action} (hown : ∀ a ∈ acts, a.isOwn = true) :
    s.queuedIn acts = s.acceptedIn acts := by
  induction acts generalizing s with
  | nil => rfl
  | cons a acts ih =>
    obtain ⟨hfirst, hrest⟩ := List.forall_mem_cons.mp hown
    have htail := ih ((s.leadsTo_perform a).sound hl) (hquiet.perform a)
      (agrees_perform hagrees (Action.failsAll_of_isOwn hfirst)) hrest
    rw [queuedIn, acceptedIn, queues_eq_accepts hl hquiet hagrees, htail]

theorem acceptedIn_append (s : Scene) (acts more : List Action) :
    s.acceptedIn (acts ++ more) = s.acceptedIn acts ++ (s.run acts).acceptedIn more := by
  induction acts generalizing s with
  | nil => rfl
  | cons a acts ih =>
    rw [List.cons_append, acceptedIn, acceptedIn, ih, List.append_assoc, run_cons]

theorem accepts_eq_nil (hready : s.link.lifecycle ≠ .ready) {a : Action}
    (hconnect : ∀ c, a ≠ .connect c) : s.accepts a = [] := by
  by_cases hsend : ∃ f, a = .send f
  · obtain ⟨f, rfl⟩ := hsend
    obtain ⟨e, -, he⟩ := Link.send_of_not_ready hready f
    simp only [accepts, he]
  · rw [accepts_of_ne hconnect (not_exists.mp hsend), posted_eq_nil hready]
    rfl

end Scene

end Switchboard
