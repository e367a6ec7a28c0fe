import Switchboard.Proofs.ClientDeeds
import Switchboard.Proofs.Endings
import Switchboard.Proofs.WaitingCalls

/-!
What everybody but the loop and the peer leaves alone. Callers and frames change the
registry of a link and its queue; the loop, its reader and the stream stay as they are. The
loop is asked to end at most: whoever closes the link asks it, and nobody else does.
-/
namespace Switchboard

namespace Link

open Registry (LeadsTo)

/-- The loop and the stream have been left alone; the loop has been asked to end just if the
link has been closed meanwhile. -/
structure Spares (l l' : Link) : Prop where
  loop : l'.loop = l.loop
  stream : l'.stream = l.stream
  deframer : l'.deframer = l.deframer
  codec : l'.codec = l.codec
  closeTimeout : l'.closeTimeout = l.closeTimeout
  shutdown : l.shutdown = true → l'.shutdown = true
  asks : l.lifecycle ≠ .closed → l'.lifecycle = .closed → l'.shutdown = true
  closed : l.lifecycle = .closed → l'.lifecycle = .closed
  asked : l'.shutdown = true → l.shutdown = true ∨ l'.lifecycle = .closed

namespace Spares

theorem refl (l : Link) : l.Spares l :=
  ⟨rfl, rfl, rfl, rfl, rfl, id, fun hopen hclosed => absurd hclosed hopen, id, Or.inl⟩

variable {l l' l'' : Link}

theorem trans (h : l.Spares l') (h' : l'.Spares l'') : l.Spares l'' where
  loop := h'.loop.trans h.loop
  stream := h'.stream.trans h.stream
  deframer := h'.deframer.trans h.deframer
  codec := h'.codec.trans h.codec
  closeTimeout := h'.closeTimeout.trans h.closeTimeout
  shutdown hshut := h'.shutdown (h.shutdown hshut)
  asks hopen hclosed := by
    by_cases hmid : l'.lifecycle = .closed
    · exact h'.shutdown (h.asks hopen hmid)
    · exact h'.asks hmid hclosed
  closed hclosed := h'.closed (h.closed hclosed)
  asked hshut := by
    rcases h'.asked hshut with hmid | hclosed
    · exact (h.asked hmid).imp_right h'.closed
    · exact Or.inr hclosed

theorem via {α : Type} (l : Link) (f : Registry → Registry × α)
    (hf : (f l.registry).1.lifecycle = .closed ↔ l.lifecycle = .closed) :
    l.Spares (l.via f).1 :=
  ⟨rfl, rfl, rfl, rfl, rfl, id, fun hopen hclosed => absurd (hf.mp hclosed) hopen, hf.mpr,
    Or.inl⟩

theorem via_of_eq {α : Type} (l : Link) (f : Registry → Registry × α)
    (hf : (f l.registry).1.lifecycle = l.registry.lifecycle) : l.Spares (l.via f).1 := by
  refine via l f ?_
  rw [hf]
  rfl

/-- The beginning of a close leaves it to others to bring it to its end. -/
theorem beginClosing (l : Link) : l.Spares (l.via Registry.beginClosing).1 := by
  refine via l _ ⟨fun hclosed => ?_, fun hclosed => ?_⟩
  · by_contra hopen
    exact l.registry.lifecycle_beginClosing_ne hopen hclosed
  · exact (LeadsTo.after l.registry .beginClosing).closed hclosed

end Spares

theorem spares_settle (l : Link) (id : RequestId) (o : Outcome) :
    l.Spares (l.via (·.settle id o)).1 :=
  .via_of_eq l _ (l.registry.lifecycle_settle id o)

theorem spares_fail (l : Link) (f : Failure) : l.Spares (l.fail f) where
  loop := by
    unfold fail
    dsimp only
    split <;> split <;> rfl
  stream := by
    unfold fail
    dsimp only
    split <;> split <;> rfl
  deframer := by
    unfold fail
    dsimp only
    split <;> split <;> rfl
  codec := by
    unfold fail
    dsimp only
    split <;> split <;> rfl
  closeTimeout := by
    unfold fail
    dsimp only
    split <;> split <;> rfl
  shutdown hshut := by
    unfold fail
    dsimp only
    split <;> split <;> first | rfl | exact hshut
  asks hopen _ := shutdown_fail hopen f
  closed _ := l.lifecycle_fail f
  asked _ := Or.inr (l.lifecycle_fail f)

theorem spares_onTransportError (l : Link) (f : Failure) : l.Spares (l.onTransportError f) := by
  unfold onTransportError
  split
  · exact .refl l
  · exact l.spares_fail _

theorem spares_finishClose (l : Link) : l.Spares l.finishClose :=
  ⟨rfl, rfl, rfl, rfl, rfl, fun _ => rfl, fun _ _ => rfl, fun _ => l.lifecycle_finishClose,
    fun _ => Or.inr l.lifecycle_finishClose⟩

/-! Frames -/

theorem spares_onHandshake (l : Link) (b : Body) : l.Spares (l.onHandshake b) := by
  unfold onHandshake
  split
  · exact l.spares_settle _ _
  · cases handshakeComplaint b with
    | none =>
      have hready : l.Spares (l.via Registry.markReady).1 := by
        refine .via l _ ?_
        unfold Registry.markReady
        split_ifs with hc
        · rw [lifecycle, hc]
          exact ⟨Lifecycle.noConfusion, Lifecycle.noConfusion⟩
        · rfl
      exact hready.trans (spares_settle _ _ _)
    | some m => exact l.spares_fail _

theorem spares_onFrame (l : Link) (f : Frame) : l.Spares (l.onFrame f) := by
  unfold onFrame
  cases l.codec.deserialize f with
  | error e => exact l.spares_onTransportError e
  | ok a =>
    obtain ⟨id, b⟩ := a
    by_cases hid : id = RequestId.handshake
    · subst hid
      exact l.spares_onHandshake b
    · dsimp only
      rcases l.onResponse_of_ordinary hid b with ⟨m, -, heq⟩ | ⟨-, heq⟩
      · rw [heq]
        exact (l.spares_settle _ _).trans (spares_onTransportError _ _)
      · rw [heq]
        exact l.spares_settle _ _

/-! Callers -/

theorem spares_enqueue {l l' : Link} {f : Frame} (h : l.enqueue f = some l') : l.Spares l' := by
  unfold enqueue at h
  split at h
  · cases h
  · cases h
    exact ⟨rfl, rfl, rfl, rfl, rfl, id, fun hopen hclosed => absurd hclosed hopen, id, Or.inl⟩

theorem spares_send (l : Link) (f : Frame) : l.Spares (l.send f).1 := by
  unfold send
  cases l.registry.rejection with
  | some e => exact .refl l
  | none =>
    cases h : l.enqueue f with
    | some l' => exact spares_enqueue h
    | none => exact .refl l

theorem spares_connect (l : Link) (s : Setup) : l.Spares (l.connect s).1 := by
  have hgreet : l.Spares (l.via Registry.greet).1 := by
    refine .via_of_eq l _ ?_
    unfold Registry.greet
    split
    · rfl
    · split <;> rfl
  rcases l.connect_results s with ⟨f, hsame⟩ | ⟨h, -, ⟨m, hfails⟩ | hbreaks | ⟨g, -, hqueued⟩⟩
  · rw [hsame]
    exact .refl l
  · rw [hfails]
    exact hgreet.trans (spares_fail _ _)
  · rw [hbreaks]
    exact hgreet.trans (spares_onTransportError _ _)
  · rw [hqueued]
    exact hgreet.trans ⟨rfl, rfl, rfl, rfl, rfl, id, fun hopen hclosed => absurd hclosed hopen,
      id, Or.inl⟩

theorem spares_transmit (l : Link) (h : Handle) (p : Payload) :
    l.Spares (l.transmit h p).1 := by
  unfold transmit
  cases l.codec.serialize h.id p with
  | error f => exact l.spares_settle _ _
  | ok frame =>
    have hsend := l.spares_send frame
    dsimp only
    generalize l.send frame = a at hsend ⊢
    obtain ⟨l', answer⟩ := a
    cases answer with
    | ok u => exact hsend
    | error f => exact hsend.trans (l'.spares_settle _ _)

theorem spares_proceed (now : Instant) (e : Errand) (a : Link × Registration) :
    a.1.Spares (proceed now e a).1 := by
  rcases link_proceed_cases now e a with hsame | ⟨h, p, -, hsent⟩
  · rw [hsame]
    exact .refl a.1
  · rw [hsent]
    exact a.1.spares_transmit h p

theorem spares_proceed_via (l : Link) (now : Instant) (e : Errand)
    (f : Registry → Registry × Registration) (op : Registry.Op) (hop : op.isAtGate = true)
    (hf : ∀ r, (f r).1 = r.after op) : l.Spares (proceed now e (l.via f)).1 := by
  have hvia : l.Spares (l.via f).1 := by
    refine .via_of_eq l f ?_
    rw [hf]
    exact l.registry.lifecycle_of_isAtGate op hop
  exact hvia.trans (spares_proceed now e _)

theorem spares_start (l : Link) (now : Instant) (e : Errand) : l.Spares (l.start now e).1 :=
  l.spares_proceed_via now e Registry.register .register rfl fun _ => rfl

theorem spares_trySubmit (l : Link) (p : Payload) : l.Spares (l.trySubmit p).1 := by
  have hregister : l.Spares (l.via Registry.tryRegister).1 :=
    .via_of_eq l _ (l.registry.lifecycle_of_isAtGate .tryRegister rfl)
  rcases l.link_trySubmit_cases p with hsame | ⟨h, -, hsent⟩
  · rw [hsame]
    exact hregister
  · rw [hsent]
    exact hregister.trans (spares_transmit _ h p)

theorem spares_awaitGreeting (l : Link) (now : Instant) (h : Handle) (limit : Duration)
    (deadline : Instant) : l.Spares (l.awaitGreeting now h limit deadline).1 := by
  unfold awaitGreeting
  split
  · exact .refl l
  · exact .refl l
  · split
    · exact l.spares_onTransportError _
    · exact .refl l

theorem spares_establish (l : Link) (now : Instant) (s : Setup) (limit : Duration)
    (deadline : Instant) : l.Spares (l.establish now s limit deadline).1 := by
  have hconnect := l.spares_connect s
  unfold establish
  generalize l.connect s = a at hconnect ⊢
  obtain ⟨l', answer⟩ := a
  cases answer with
  | error f => exact hconnect
  | ok h => exact hconnect.trans (l'.spares_awaitGreeting now h limit deadline)

theorem spares_poll (l : Link) (now : Instant) (c : Call) : l.Spares (c.poll now l).1 := by
  cases c with
  | inLine w e => exact l.spares_proceed_via now e (·.resume w) (.resume w) rfl fun _ => rfl
  | closing deadline? =>
    rw [Call.poll]
    split
    · exact l.spares_finishClose
    · exact .refl l
  | dialling s limit deadline => exact l.spares_establish now s limit deadline
  | greeted h limit deadline => exact l.spares_awaitGreeting now h limit deadline
  | drained | closed | settled | settledBy | answered | linking => exact .refl l

theorem spares_drop (l : Link) (c : Call) : l.Spares (c.drop l) := by
  cases c with
  | inLine w e =>
    exact .via_of_eq l (fun r => (r.abandon w, ()))
      (l.registry.lifecycle_of_isAtGate (.abandon w) rfl)
  | _ => exact .refl l

theorem spares_close (l : Link) (now : Instant) : l.Spares (l.close now).1 := by
  rcases l.close_cases now with ⟨p, hwaits⟩ | hends
  · rw [hwaits]
    exact .beginClosing l
  · rw [hends]
    exact (Spares.beginClosing l).trans (spares_finishClose _)

end Link

namespace Scene

/-- Whether an action is one of the loop or of the peer. -/
def Action.movesBytes : Action → Bool
  | .loop _ => true
  | .peerWrite _ => true
  | .peerRead => true
  | .peerClose => true
  | _ => false

theorem spares_perform (s : Scene) {a : Action} (ha : a.failsAll = false)
    (hbytes : a.movesBytes = false) : s.link.Spares (s.perform a).link := by
  cases a with
  | registry op =>
    refine .via s.link (·.act op) ((Registry.change_of_act s.link.registry op).closed_iff ?_)
    rintro f rfl
    cases ha
  | start e =>
    rw [perform, link_join]
    exact s.link.spares_start s.now e
  | trySubmit p => exact s.link.spares_trySubmit p
  | connect c => exact s.link.spares_connect c
  | send f => exact s.link.spares_send f
  | frame f => exact s.link.spares_onFrame f
  | fault f => exact s.link.spares_onTransportError f
  | close =>
    rw [perform, link_join]
    exact s.link.spares_close s.now
  | closed | drained | settled | waitFor =>
    rw [perform, link_join]
    exact s.link.spares_poll s.now _
  | poll i =>
    rw [perform]
    cases s.calls[i]? with
    | none => exact .refl _
    | some c =>
      dsimp only
      rw [link_rejoin]
      exact s.link.spares_poll s.now c
  | drop i =>
    rw [perform]
    cases s.calls[i]? with
    | none => exact .refl _
    | some c => exact s.link.spares_drop c
  | loop | peerWrite | peerRead | peerClose => cases hbytes
  | advance | clone | release => exact .refl _

end Scene

end Switchboard
