import Switchboard.Proofs.Exchange
import Switchboard.Proofs.LinkFailure

/-!
What the calls of a client do to its link. `Deed` is the list: a call leaves the table and
the queue alone, or puts a request into both, or closes the link. In particular a request
whose payload cannot be sent, or whose caller gives up in line, leaves nothing behind.
-/
namespace Switchboard

namespace Registry

variable {r s : Registry} {op : Op}

theorem Change.of_not_granted (hc : Change r op s none) (hop : op.isAtGate = true) :
    s.pending = r.pending ∧ s.unmatched = r.unmatched := by
  cases hc with
  | waits _ _ => exact ⟨rfl, rfl⟩
  | stays _ => exact ⟨rfl, rfl⟩
  | notes _ => cases hop
  | strikes _ => cases hop
  | opens _ => cases hop
  | closes _ => cases hop
  | fails _ => cases hop
  | failsLate _ => cases hop

theorem Change.of_granted {h : Handle} (hc : Change r op s (some h))
    (hop : op.isAtGate = true) :
    s.pending = r.pending ++ [h] ∧ s.unmatched = r.unmatched ∧ s.lifecycle = .ready := by
  cases hc with
  | enters _ hready _ => exact ⟨rfl, rfl, hready⟩
  | greets _ _ => cases hop

theorem notMem_of_last {h : Handle} {hs : List Handle} (hr : Sound r)
    (hp : r.pending = hs ++ [h]) : h ∉ hs := by
  have hnodup : (hs ++ [h]).Nodup := hp ▸ List.Nodup.of_map _ hr.tickets
  intro hold
  exact (List.nodup_append.mp hnodup).2.2 h hold h (List.mem_singleton_self h) rfl

theorem mem_last {h : Handle} {hs : List Handle} (hp : r.pending = hs ++ [h]) :
    h ∈ r.pending := by
  rw [hp]
  exact List.mem_append_right _ (List.mem_singleton_self h)

/-- The last request of the table leaves it as if it had never been there. -/
theorem settle_last {h : Handle} {hs : List Handle} (hr : Sound r)
    (hp : r.pending = hs ++ [h]) (o : Outcome) :
    (r.settle h.id o).1.pending = hs ∧ (r.settle h.id o).1.unmatched = r.unmatched := by
  rw [settle_of_mem hr (mem_last hp)]
  constructor
  · change r.pending.erase h = hs
    rw [hp, List.erase_append_right _ (notMem_of_last hr hp), List.erase_cons_head,
      List.append_nil]
  · rfl

end Registry

namespace Link

open Registry (Sound Change)

/-- All that a call of a client can do to its link, and the requests it puts into the
queue. -/
inductive Deed (l : Link) : Link → List (Handle × Payload) → Prop
  | rests {r : Registry} :
      r.pending = l.registry.pending → r.unmatched = l.registry.unmatched →
      Deed l { l with registry := r } []
  | posts {r : Registry} {h : Handle} {p : Payload} {f : Frame} :
      r.pending = l.registry.pending ++ [h] → r.unmatched = l.registry.unmatched →
      l.codec.serialize h.id p = .ok f →
      Deed l { l with registry := r, outbox := l.outbox ++ [f] } [(h, p)]
  | closes {l' : Link} {new : List (Handle × Payload)} :
      l'.lifecycle = .closed → Deed l l' new

theorem Deed.mem {l l' : Link} {new : List (Handle × Payload)} (hd : Deed l l' new)
    (hopen : l'.lifecycle ≠ .closed) {h : Handle} (hh : h ∈ l.registry.pending) :
    h ∈ l'.registry.pending := by
  cases hd with
  | closes hclosed => exact absurd hclosed hopen
  | rests hp _ => exact hp ▸ hh
  | posts hp _ _ => exact hp ▸ List.mem_append_left _ hh

theorem Deed.refl (l : Link) : Deed l l [] := Deed.rests rfl rfl

/-- A request that has just been registered is sent, or is gone again. -/
theorem deed_of_transmit {l : Link} {r : Registry} {h : Handle} (hr : Sound r)
    (hp : r.pending = l.registry.pending ++ [h]) (hu : r.unmatched = l.registry.unmatched)
    (hready : r.lifecycle = .ready) (p : Payload) :
    Deed l (transmit { l with registry := r } h p).1 (posted { l with registry := r } h p) := by
  obtain ⟨hgone, hsame⟩ := Registry.settle_last hr hp
    (.error (match l.codec.serialize h.id p with | .ok _ => loopGone | .error f => f))
  unfold posted transmit
  cases hf : l.codec.serialize h.id p with
  | error f =>
    rw [hf] at hgone hsame
    exact Deed.rests hgone (hsame.trans hu)
  | ok f =>
    rw [hf] at hgone hsame
    have hnone : r.rejection = none := Registry.rejection_ready hready
    cases hended : l.loop.isEnded with
    | true =>
      simp only [send, hnone, enqueue, hended, if_true]
      exact Deed.rests hgone (hsame.trans hu)
    | false =>
      simp only [send, hnone, enqueue, hended, Bool.false_eq_true, if_false]
      exact Deed.posts hp hu hf

theorem deed_of_proceed {l : Link} {op : Registry.Op} {r : Registry} {a : Registration}
    (hop : op.isAtGate = true) (hc : Change l.registry op r a.handle?)
    (hl : Sound l.registry) (now : Instant) {e : Errand} (he : e.payload?.isSome = true) :
    Deed l (proceed now e ({ l with registry := r }, a)).1
      (postedBy e ({ l with registry := r }, a)) := by
  cases a with
  | waiting w =>
    obtain ⟨hp, hu⟩ := hc.of_not_granted hop
    exact Deed.rests hp hu
  | refused f =>
    obtain ⟨hp, hu⟩ := hc.of_not_granted hop
    exact Deed.rests hp hu
  | granted h =>
    obtain ⟨hp, hu, hready⟩ := hc.of_granted hop
    have hsend := deed_of_transmit (hc.sound hl) hp hu hready
    cases e with
    | register => cases he
    | submit p => exact hsend p
    | execute p limit =>
      rw [link_proceed_execute]
      exact hsend p

theorem deed_of_trySubmit {l : Link} (hl : Sound l.registry) (p : Payload) :
    Deed l (l.trySubmit p).1
      (match l.via Registry.tryRegister with
        | (l, .ok h) => l.posted h p
        | (_, .error _) => []) := by
  have hc := Registry.change_of_tryRegister l.registry
  unfold trySubmit via
  generalize l.registry.tryRegister = a at hc
  obtain ⟨r, answer⟩ := a
  cases answer with
  | ok h =>
    obtain ⟨hp, hu, hready⟩ := hc.of_granted rfl
    exact deed_of_transmit (hc.sound hl) hp hu hready p
  | error f =>
    obtain ⟨hp, hu⟩ := hc.of_not_granted rfl
    exact Deed.rests hp hu

theorem deed_of_onTransportError (l : Link) (f : Failure) : Deed l (l.onTransportError f) [] :=
  Deed.closes (l.lifecycle_onTransportError f)

theorem deed_of_awaitGreeting (l : Link) (now : Instant) (h : Handle) (limit : Duration)
    (deadline : Instant) : Deed l (l.awaitGreeting now h limit deadline).1 [] := by
  unfold awaitGreeting
  split
  · exact Deed.refl l
  · exact Deed.refl l
  · split
    · exact l.deed_of_onTransportError _
    · exact Deed.refl l

theorem deed_of_closing (l : Link) (now : Instant) (deadline? : Option Instant) :
    Deed l ((Call.closing deadline?).poll now l).1 [] := by
  rw [Call.poll]
  split
  · exact Deed.closes l.lifecycle_finishClose
  · exact Deed.refl l

theorem deed_of_beginClosing (l : Link) : Deed l (l.via Registry.beginClosing).1 [] :=
  Deed.rests (Registry.pending_beginClosing _) (Registry.unmatched_beginClosing _)

theorem deed_of_close (l : Link) (now : Instant) : Deed l (l.close now).1 [] := by
  rcases l.close_cases now with ⟨p, hwaits⟩ | hends
  · rw [hwaits]
    exact l.deed_of_beginClosing
  · rw [hends]
    exact Deed.closes (lifecycle_finishClose _)

/-- The handshake is queued, or was not registered, or the link is closed. -/
theorem deed_of_connect (l : Link) (s : Setup) :
    Deed l (l.connect s).1
      (match (l.connect s).2 with
        | .ok h => [(h, .connect s)]
        | .error _ => []) := by
  rcases l.connect_results s with ⟨f, hsame⟩ | ⟨h, hh, ⟨m, hfails⟩ | hbreaks | ⟨g, hg, hqueued⟩⟩
  · rw [hsame]
    exact Deed.refl l
  · rw [hfails]
    exact Deed.closes (lifecycle_fail _ _)
  · rw [hbreaks]
    exact Deed.closes (lifecycle_onTransportError _ _)
  · obtain ⟨-, -, rfl, hafter⟩ := Registry.greet_of_ok hh
    have hp := congrArg Registry.pending hafter
    have hu := congrArg Registry.unmatched hafter
    rw [hqueued]
    exact Deed.posts hp hu hg

theorem deed_of_establish (l : Link) (now : Instant) (s : Setup) (limit : Duration)
    (deadline : Instant) :
    Deed l (l.establish now s limit deadline).1
      (match (l.connect s).2 with
        | .ok h => [(h, .connect s)]
        | .error _ => []) := by
  have hconnect := l.deed_of_connect s
  unfold establish
  generalize l.connect s = a at hconnect
  obtain ⟨l', answer⟩ := a
  cases answer with
  | error f => exact hconnect
  | ok h =>
    dsimp only
    unfold awaitGreeting
    split
    · exact hconnect
    · exact hconnect
    · split
      · exact Deed.closes (lifecycle_onTransportError _ _)
      · exact hconnect

theorem deed_of_drop (l : Link) (c : Call) : Deed l (c.drop l) [] := by
  cases c with
  | inLine w e => exact Deed.rests rfl rfl
  | _ => exact Deed.refl l

end Link

/-- Whether a call is one of a client: in line it waits with a payload to send, and it does
not set out to connect. -/
def Call.isClients : Call → Bool
  | .inLine _ e => e.payload?.isSome
  | .dialling _ _ _ => false
  | _ => true

/-- Whether what becomes of a call is one of a client. -/
def Progress.isClients : Progress → Bool
  | .waiting c => c.isClients
  | .finished _ => true

namespace Link

open Registry (Sound)

theorem deed_of_poll {l : Link} (hl : Sound l.registry) (now : Instant) {c : Call}
    (hc : c.isClients = true) :
    Deed l (c.poll now l).1
      (match c with
        | .inLine w e => postedBy e (l.via (·.resume w))
        | _ => []) := by
  cases c with
  | inLine w e =>
    exact deed_of_proceed rfl (Registry.change_of_act l.registry (.resume w)) hl now hc
  | closing deadline? => exact l.deed_of_closing now deadline?
  | greeted h limit deadline => exact l.deed_of_awaitGreeting now h limit deadline
  | dialling s limit deadline => cases hc
  | drained | closed | settled | settledBy | answered | linking => exact Deed.refl l

theorem isClients_awaitBy (l : Link) (now : Instant) (h : Handle) (limit : Duration)
    (deadline? : Option Instant) {c : Call} (hc : c.isClients = true) :
    (l.awaitBy now h limit deadline? c).isClients = true := by
  unfold awaitBy
  split
  · rfl
  · split
    · rfl
    · exact hc

theorem isClients_proceed (now : Instant) {e : Errand} (he : e.payload?.isSome = true)
    (a : Link × Registration) : (proceed now e a).2.isClients = true := by
  obtain ⟨l, a⟩ := a
  cases a with
  | waiting w => exact he
  | refused f => rfl
  | granted h =>
    cases e with
    | register => rfl
    | submit p =>
      simp only [proceed]
      generalize l.transmit h p = sending
      obtain ⟨l', answer⟩ := sending
      cases answer <;> rfl
    | execute p limit =>
      simp only [proceed]
      generalize l.transmit h p = sending
      obtain ⟨l', answer⟩ := sending
      cases answer with
      | error f => rfl
      | ok h' => exact isClients_awaitBy l' now h' limit _ rfl

theorem isClients_awaitGreeting (l : Link) (now : Instant) (h : Handle) (limit : Duration)
    (deadline : Instant) : (l.awaitGreeting now h limit deadline).2.isClients = true := by
  unfold awaitGreeting
  split
  · rfl
  · rfl
  · split
    · rfl
    · rfl

theorem isClients_poll (l : Link) (now : Instant) {c : Call} (hc : c.isClients = true) :
    (c.poll now l).2.isClients = true := by
  cases c with
  | inLine w e => exact isClients_proceed now hc _
  | settledBy h limit deadline? => exact isClients_awaitBy l now h limit deadline? rfl
  | answered h limit deadline? => exact isClients_awaitBy l now h limit deadline? rfl
  | dialling s limit deadline => cases hc
  | linking => rfl
  | drained =>
    rw [Call.poll]
    dsimp only
    split <;> rfl
  | closed =>
    rw [Call.poll]
    dsimp only
    split <;> rfl
  | closing deadline? =>
    rw [Call.poll]
    split <;> rfl
  | settled h =>
    rw [Call.poll]
    dsimp only
    split <;> rfl
  | greeted h limit deadline => exact l.isClients_awaitGreeting now h limit deadline

theorem isClients_establish (l : Link) (now : Instant) (s : Setup) (limit : Duration)
    (deadline : Instant) : (l.establish now s limit deadline).2.isClients = true := by
  unfold establish
  generalize l.connect s = a
  obtain ⟨l', answer⟩ := a
  cases answer with
  | error f => rfl
  | ok h => exact l'.isClients_awaitGreeting now h limit deadline

theorem isClients_close (l : Link) (now : Instant) : (l.close now).2.isClients = true := by
  unfold close
  generalize l.via Registry.beginClosing = a
  obtain ⟨l', first⟩ := a
  cases first with
  | false => exact l'.isClients_poll now rfl
  | true =>
    dsimp only
    split
    · rfl
    · exact l'.isClients_poll now rfl

end Link

namespace Scene

open Registry (Sound)

/-- Whether all the calls of a scene are those of a client. -/
def CallsAreClients (s : Scene) : Prop := ∀ c ∈ s.calls, c.isClients = true

theorem callsAreClients_join {s : Scene} (hs : s.CallsAreClients) {a : Link × Progress}
    (ha : a.2.isClients = true) : (s.join a).CallsAreClients := by
  obtain ⟨l, p⟩ := a
  cases p with
  | finished answer => exact hs
  | waiting c =>
    intro d hd
    rcases List.mem_append.mp hd with hold | hnew
    · exact hs d hold
    · rw [List.mem_singleton.mp hnew]
      exact ha

theorem callsAreClients_rejoin {s : Scene} (hs : s.CallsAreClients) (i : Nat)
    {a : Link × Progress} (ha : a.2.isClients = true) : (s.rejoin i a).CallsAreClients := by
  obtain ⟨l, p⟩ := a
  cases p with
  | finished answer =>
    intro d hd
    exact hs d (List.mem_of_mem_eraseIdx hd)
  | waiting c =>
    intro d hd
    rcases List.mem_or_eq_of_mem_set hd with hold | rfl
    · exact hs d hold
    · exact ha

theorem callsAreClients_perform {s : Scene} (hs : s.CallsAreClients) {a : Action}
    (ha : a.isClients = true) : (s.perform a).CallsAreClients := by
  cases a with
  | start e => exact callsAreClients_join hs (Link.isClients_proceed s.now ha _)
  | close => exact callsAreClients_join hs (s.link.isClients_close s.now)
  | closed => exact callsAreClients_join hs (s.link.isClients_poll s.now rfl)
  | settled h => exact callsAreClients_join hs (s.link.isClients_poll s.now rfl)
  | waitFor h limit => exact callsAreClients_join hs (s.link.isClients_poll s.now rfl)
  | poll i =>
    rw [perform]
    cases hc : s.calls[i]? with
    | none => exact hs
    | some c =>
      have hclient := hs c (List.mem_of_getElem? hc)
      exact callsAreClients_rejoin hs i (s.link.isClients_poll s.now hclient)
  | drop i =>
    rw [perform]
    cases hc : s.calls[i]? with
    | none => exact hs
    | some c =>
      intro d hd
      exact hs d (List.mem_of_mem_eraseIdx hd)
  | loop e =>
    rw [perform]
    split
    · exact hs
    · exact hs
  | trySubmit | advance | clone | release => exact hs
  | registry | connect | send | frame | fault => cases ha
  | drained | peerWrite | peerRead | peerClose => cases ha

theorem deed_of_perform {s : Scene} (hl : Sound s.link.registry) (hs : s.CallsAreClients)
    {a : Action} (ha : a.isClients = true) (hloop : ∀ e, a ≠ .loop e) :
    s.link.Deed (s.perform a).link (s.posted a) := by
  cases a with
  | start e =>
    rw [perform, link_join]
    exact Link.deed_of_proceed rfl (Registry.change_of_act s.link.registry .register) hl
      s.now ha
  | trySubmit p => exact Link.deed_of_trySubmit hl p
  | close =>
    rw [perform, link_join]
    exact s.link.deed_of_close s.now
  | closed | settled | waitFor =>
    rw [perform, link_join]
    exact Link.Deed.refl _
  | poll i =>
    rw [perform, posted]
    cases hc : s.calls[i]? with
    | none => exact Link.Deed.refl _
    | some c =>
      have hclient := hs c (List.mem_of_getElem? hc)
      dsimp only
      rw [link_rejoin]
      cases c <;> exact Link.deed_of_poll hl s.now hclient
  | drop i =>
    rw [perform]
    cases s.calls[i]? with
    | none => exact Link.Deed.refl _
    | some c => exact s.link.deed_of_drop c
  | loop e => exact absurd rfl (hloop e)
  | advance | clone | release => exact Link.Deed.refl _
  | registry | connect | send | frame | fault => cases ha
  | drained | peerWrite | peerRead | peerClose => cases ha

end Scene

end Switchboard
