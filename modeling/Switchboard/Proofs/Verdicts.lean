import Switchboard.Proofs.Endings
import Switchboard.Proofs.LoopAgreement
import Switchboard.Proofs.RefusedPayloads

/-!
What a link tells its requests in one step. It tells them nothing; or it tells one of them
the answer of the peer, which is a failure of this request alone; or it closes, and tells all
of them that the connection is gone. The three cases are those of `Tells`, which holds for
every action, for every event of the loop and for every error of the stream.
-/
namespace Switchboard

open Registry (Sound Staged LeadsTo Change)

namespace Registry

/-- Nobody in the table is told anything. -/
structure Hushes (r s : Registry) : Prop where
  pending : ∀ h ∈ r.pending, h ∈ s.pending
  outcome? : ∀ t : Ticket, t.serial < r.ledger.outcomes.size →
    s.ledger.outcome? t = r.ledger.outcome? t
  size_le : r.ledger.outcomes.size ≤ s.ledger.outcomes.size
  closed : s.lifecycle = .closed → r.lifecycle = .closed

/-- One request is told its outcome. If it is not the handshake, the lifecycle stays what it
is, and a failure is one of the request alone. -/
structure Answers (r s : Registry) (h : Handle) (o : Outcome) : Prop where
  mem : h ∈ r.pending
  others : ∀ t, t ≠ h.ticket → s.ledger.outcome? t = r.ledger.outcome? t
  outcome? : s.ledger.outcome? h.ticket = some o
  lifecycle : h.id ≠ RequestId.handshake → s.lifecycle = r.lifecycle
  mild : h.id ≠ RequestId.handshake → ∀ e, o = .error e → e.isConnectionError = false
  closed : s.lifecycle = .closed → r.lifecycle = .closed

variable {r s t : Registry}

namespace Hushes

theorem refl (r : Registry) : r.Hushes r :=
  ⟨fun _ h => h, fun _ _ => rfl, Nat.le_refl _, id⟩

theorem trans (h : r.Hushes s) (h' : s.Hushes t) : r.Hushes t where
  pending g hg := h'.pending g (h.pending g hg)
  outcome? u hu := (h'.outcome? u (Nat.lt_of_lt_of_le hu h.size_le)).trans (h.outcome? u hu)
  size_le := Nat.le_trans h.size_le h'.size_le
  closed hc := h.closed (h'.closed hc)

end Hushes

/-- An operation that is meant for nobody in the table, and is not the end of the registry,
tells nobody anything. -/
theorem Change.hushes {op : Op} {granted : Option Handle} (hc : Change r op s granted)
    (hnobody : ∀ h ∈ r.pending, op.outcomeFor h.id = none) (hlasts : ∀ f, op ≠ .failAll f) :
    r.Hushes s := by
  refine ⟨fun h hh => hc.mem_of_not_meant hh (hnobody h hh), ?_, hc.size_le, ?_⟩
  · intro t _
    cases hc with
    | enters _ _ _ => exact Ledger.outcome?_issue t
    | greets _ _ => exact Ledger.outcome?_issue t
    | @strikes h o hh => exact absurd (hnobody h hh) (by simp [Op.outcomeFor])
    | fails _ => exact absurd rfl (hlasts _)
    | waits _ _ => rfl
    | stays _ => rfl
    | notes _ => rfl
    | opens _ => rfl
    | closes _ => rfl
    | failsLate _ => rfl
  · intro hclosed
    rcases hc.lifecycle with hsame | ⟨-, -, hready⟩ | ⟨-, -, hclosing⟩ | ⟨⟨f, hf⟩, -, -⟩
    · exact hsame.symm.trans hclosed
    · exact absurd (hclosed.symm.trans hready) Lifecycle.noConfusion
    · exact absurd (hclosed.symm.trans hclosing) Lifecycle.noConfusion
    · exact absurd hf (hlasts f)

theorem hushes_after (r : Registry) (op : Op)
    (hnobody : ∀ h ∈ r.pending, op.outcomeFor h.id = none) (hlasts : ∀ f, op ≠ .failAll f) :
    r.Hushes (r.after op) :=
  (change_of_act r op).hushes hnobody hlasts

theorem hushes_of_isAtGate (r : Registry) (op : Op) (hop : op.isAtGate = true) :
    r.Hushes (r.after op) := by
  refine r.hushes_after _ (fun h _ => Op.outcomeFor_of_isAtGate hop h.id) ?_
  rintro f rfl
  cases hop

theorem hushes_of_isTimed (r : Registry) (op : Op) (hop : op.isTimed = true) :
    r.Hushes (r.after op) := by
  refine r.hushes_after _ (fun h _ => Op.outcomeFor_of_isTimed hop h.id) ?_
  rintro f rfl
  cases hop

theorem hushes_or_answers (hr : Sound r) (id : RequestId) {o : Outcome}
    (hmild : id ≠ RequestId.handshake → ∀ e, o = .error e → e.isConnectionError = false) :
    r.Hushes (r.after (.settle id o)) ∨
      ∃ h, h.id = id ∧ r.Answers (r.after (.settle id o)) h o := by
  by_cases hmem : ∃ h ∈ r.pending, h.id = id
  · obtain ⟨h, hh, rfl⟩ := hmem
    have hafter : r.after (.settle h.id o) = r.strike h o := settle_of_mem hr hh o
    right
    refine ⟨h, rfl, ?_⟩
    rw [hafter]
    refine ⟨hh, fun t ht => ?_, ?_, fun _ => rfl, hmild, id⟩
    · rw [ledger_strike]
      exact Ledger.outcome?_settle_ne o (Ne.symm ht)
    · rw [ledger_strike]
      exact Ledger.outcome?_settle (hr.isOpen hh) o
  · left
    refine r.hushes_after _ (fun h hh => ?_) nofun
    have hne : id ≠ h.id := fun hid => hmem ⟨h, hh, hid.symm⟩
    simp [Op.outcomeFor, hne]

/-- A request that has just been registered and is settled at once leaves the others
alone. -/
theorem hushes_settle_of_granted {op : Op} {h : Handle} (hc : Change r op s (some h))
    (hs : Sound s) (hop : op.isAtGate = true) (o : Outcome) :
    r.Hushes (s.settle h.id o).1 := by
  obtain ⟨hp, -, hready⟩ := hc.of_granted hop
  have hregistered : r.Hushes s := by
    refine hc.hushes (fun g _ => Op.outcomeFor_of_isAtGate hop g.id) ?_
    rintro f rfl
    cases hop
  refine ⟨?_, ?_, ?_, ?_⟩
  · rw [(settle_last hs hp o).1]
    exact fun g hg => hg
  · intro t ht
    have hne : h.ticket ≠ t := by
      rintro rfl
      rw [hc.serial_of_granted] at ht
      exact Nat.lt_irrefl _ ht
    rw [settle_of_mem hs (mem_last hp), ledger_strike]
    exact (Ledger.outcome?_settle_ne o hne).trans (hregistered.outcome? t ht)
  · exact Nat.le_trans hregistered.size_le (change_of_settle s h.id o).size_le
  · rw [lifecycle_settle, hready]
    exact nofun

end Registry

namespace Link

variable {l k l' : Link}

theorem EndsWith.of_eq {e : Failure} (h : l.EndsWith k e) (hregistry : l'.registry = k.registry)
    (hshutdown : l'.shutdown = k.shutdown) : l.EndsWith l' e where
  lifecycle := by rw [Link.lifecycle, hregistry]; exact h.lifecycle
  pending := by rw [hregistry]; exact h.pending
  closedWith := by rw [hregistry]; exact h.closedWith
  shutdown := by rw [hshutdown]; exact h.shutdown
  outcome g hg := by rw [outcome?, hregistry]; exact h.outcome g hg

theorem EndsWith.of_hushes {e : Failure} (h : k.EndsWith l' e)
    (hk : l.registry.Hushes k.registry) : l.EndsWith l' e :=
  ⟨h.lifecycle, h.pending, h.closedWith, h.shutdown,
    fun g hg => h.outcome g (hk.pending g hg)⟩

/-- What a link tells its requests in a step. -/
inductive Tells (l l' : Link) : Prop
  | nothing : l.registry.Hushes l'.registry → Tells l l'
  | answer {h : Handle} {o : Outcome} : l.registry.Answers l'.registry h o → Tells l l'
  | loss {e : Failure} : l.lifecycle ≠ .closed → l.EndsWith l' e →
      e.isConnectionError = true → Tells l l'

namespace Tells

theorem refl (l : Link) : l.Tells l := .nothing (Registry.Hushes.refl _)

theorem of_registry (h : k.Tells l') (hk : k.registry = l.registry) : l.Tells l' := by
  cases h with
  | nothing hushes => exact .nothing (hk ▸ hushes)
  | answer answers => exact .answer (hk ▸ answers)
  | loss hopen hends herror =>
    refine .loss ?_ (hends.of_pending (by rw [hk])) herror
    rwa [lifecycle, ← hk]

theorem of_eq (h : l.Tells k) (hregistry : l'.registry = k.registry)
    (hshutdown : l'.shutdown = k.shutdown) : l.Tells l' := by
  cases h with
  | nothing hushes => exact .nothing (hregistry ▸ hushes)
  | answer answers => exact .answer (hregistry ▸ answers)
  | loss hopen hends herror => exact .loss hopen (hends.of_eq hregistry hshutdown) herror

end Tells

theorem onTransportError_of_closed (hc : l.lifecycle = .closed) (f : Failure) :
    l.onTransportError f = l := by
  rw [onTransportError, hc]
  rfl

/-- What the peer says of a request alone is no failure of the connection. -/
theorem mild_outcome {b : Body} (hb : ∀ m, b ≠ .closingError m) {e : Failure}
    (he : b.outcome = .error e) : e.isConnectionError = false := by
  cases b with
  | requestError k m =>
    cases he
    rfl
  | closingError m => exact absurd rfl (hb m)
  | ok => cases he
  | nil => cases he
  | value v => cases he

section Steps

variable (hl : Sound l.registry)

include hl

theorem tells_onTransportError_after (hk : l.registry.Hushes k.registry)
    (hleads : l.registry.LeadsTo k.registry) (f : Failure) :
    l.Tells (k.onTransportError f) := by
  by_cases hc : k.lifecycle = .closed
  · rw [onTransportError_of_closed hc]
    exact .nothing hk
  · have hends := (endsWith_onTransportError (hleads.sound hl) hc f).of_hushes hk
    exact .loss (fun hclosed => hc (hleads.closed hclosed)) hends (isConnectionError_lossOf _ f)

theorem tells_finishClose_after (hk : l.registry.Hushes k.registry)
    (hleads : l.registry.LeadsTo k.registry) : l.Tells k.finishClose := by
  by_cases hc : k.lifecycle = .closed
  · have hsame : k.finishClose.registry = k.registry := Registry.failAll_of_closed hc _
    exact .nothing (hsame ▸ hk)
  · have hends := (endsWith_finishClose (hleads.sound hl) hc).of_hushes hk
    exact .loss (fun hclosed => hc (hleads.closed hclosed)) hends rfl

theorem tells_onTransportError (f : Failure) : l.Tells (l.onTransportError f) :=
  tells_onTransportError_after hl (Registry.Hushes.refl _) (LeadsTo.refl _) f

theorem tells_endLoop : l.Tells l.endLoop :=
  (tells_onTransportError hl loopGone).of_eq rfl rfl

theorem tells_endLoop_of_error (f : Failure) : l.Tells (l.onTransportError f).endLoop := by
  have hsame := onTransportError_of_closed (l.lifecycle_onTransportError f) loopGone
  refine (tells_onTransportError hl f).of_eq ?_ ?_
  · unfold endLoop
    rw [hsame]
  · unfold endLoop
    rw [hsame]

/-! Answers of the peer -/

theorem tells_onHandshake (b : Body) : l.Tells (l.onHandshake b) := by
  unfold onHandshake
  split_ifs with hlate
  · rcases Registry.hushes_or_answers hl RequestId.handshake
      (o := .error (lateHandshake l.registry)) (fun h => absurd rfl h) with hushes | ⟨h, -, answers⟩
    · exact .nothing hushes
    · exact .answer answers
  · have hc : l.lifecycle = .connecting := not_not.mp hlate
    have hopen : l.lifecycle ≠ .closed := by
      rw [hc]
      exact Lifecycle.noConfusion
    cases hcomplaint : handshakeComplaint b with
    | some m => exact .loss hopen (endsWith_fail hl hopen _) rfl
    | none =>
      have hready : l.via Registry.markReady =
          ({ l with registry := l.registry.moveTo .ready }, true) := by
        simp [via, Registry.markReady, show l.registry.lifecycle = .connecting from hc]
      have hopened : l.registry.Hushes (l.registry.moveTo .ready) :=
        ⟨fun _ h => h, fun _ _ => rfl, Nat.le_refl _, fun h => Lifecycle.noConfusion h⟩
      have hsound : Sound (l.registry.moveTo .ready) := hl.of_eq rfl rfl rfl rfl rfl rfl
      rw [hready]
      rcases Registry.hushes_or_answers hsound RequestId.handshake (o := .ok .ok)
        (fun h => absurd rfl h) with hushes | ⟨h, hid, answers⟩
      · exact .nothing (hopened.trans hushes)
      · refine .answer (h := h) (o := .ok .ok)
          ⟨answers.mem, answers.others, answers.outcome?, ?_, ?_, ?_⟩
        · exact fun hne => absurd hid hne
        · exact fun hne => absurd hid hne
        · exact fun hclosed => Lifecycle.noConfusion (answers.closed hclosed)

theorem tells_onResponse (hs : Staged l.registry) (a : Response) :
    l.Tells (l.onResponse a) := by
  obtain ⟨id, b⟩ := a
  by_cases hid : id = RequestId.handshake
  · rw [hid, onResponse_handshake]
    exact tells_onHandshake hl b
  · rcases l.onResponse_of_ordinary hid b with ⟨m, rfl, heq⟩ | ⟨hb, heq⟩
    · by_cases hc : l.lifecycle = .closed
      · -- nobody is left to be told
        have hushes : l.registry.Hushes (l.via (·.settle id (.error (.closing m)))).1.registry := by
          refine l.registry.hushes_after (.settle id _) (fun h hh => ?_) nofun
          rw [hs.closed hc] at hh
          exact absurd hh List.not_mem_nil
        have hstill : (l.via (·.settle id (.error (.closing m)))).1.lifecycle = .closed :=
          (Registry.lifecycle_settle _ _ _).trans hc
        have hsame := onTransportError_of_closed hstill (.closing m)
        rw [heq]
        exact .nothing (hsame.symm ▸ hushes)
      · obtain ⟨e, hends, herror, -⟩ := endsWith_onResponse hl hs hc m (Or.inl hid)
        exact .loss hc hends herror
    · rw [heq]
      rcases Registry.hushes_or_answers hl id (o := b.outcome)
        (fun _ e he => mild_outcome hb he) with hushes | ⟨h, -, answers⟩
      · exact .nothing hushes
      · exact .answer answers

theorem tells_onFrame (hs : Staged l.registry) (f : Frame) : l.Tells (l.onFrame f) := by
  unfold onFrame
  cases l.codec.deserialize f with
  | ok a => exact tells_onResponse hl hs a
  | error e => exact tells_onTransportError hl e

/-! The loop -/

theorem tells_writeBytes (b : ByteArray) : l.Tells (l.writeBytes b) := by
  unfold writeBytes
  split
  · exact .nothing (Registry.Hushes.refl _)
  · exact tells_endLoop_of_error hl _

theorem tells_takeUp : l.Tells l.takeUp := by
  unfold takeUp
  cases l.outbox with
  | nil => exact Tells.refl l
  | cons f rest =>
    dsimp only
    cases Frame.toBytes f with
    | ok b => exact (tells_writeBytes (l := { l with outbox := rest }) hl b).of_registry rfl
    | error e =>
      exact (tells_endLoop_of_error (l := { l with outbox := rest }) hl _).of_registry rfl

theorem tells_receive (hs : Staged l.registry) : l.Tells l.receive := by
  unfold receive
  cases l.inboundItem with
  | mk item d =>
    have hread : Sound ({ l with deframer := d, stream.inbound := .empty } : Link).registry := hl
    cases item with
    | frame f => exact (tells_onFrame hread hs f).of_registry rfl
    | fault f => exact (tells_endLoop_of_error hread _).of_registry rfl
    | finished => exact (tells_endLoop_of_error hread _).of_registry rfl
    | starved => exact .nothing (Registry.Hushes.refl _)

theorem tells_handle (hs : Staged l.registry) (e : Event) : l.Tells (l.handle e) := by
  cases e with
  | receive => exact tells_receive hl hs
  | send => exact tells_takeUp hl
  | continueWriting =>
    simp only [handle]
    cases l.loop with
    | writing rest => exact tells_writeBytes hl rest
    | running => exact Tells.refl l
    | ended => exact Tells.refl l
  | stop => exact tells_endLoop hl
  | release => exact tells_endLoop hl

theorem tells_failRead (m : String) : l.Tells (l.failRead m) := by
  unfold failRead
  split
  · exact tells_endLoop_of_error hl _
  · exact Tells.refl l

theorem tells_failWrite (m : String) : l.Tells (l.failWrite m) := by
  rcases l.failWrite_cases m with ⟨rest, heq⟩ | heq
  · rw [heq]
    exact (tells_endLoop_of_error (l := { l with outbox := rest }) hl _).of_registry rfl
  · rw [heq]
    exact Tells.refl l

/-! Those who submit -/

/-- A request that has just been registered is sent, or is settled at once: the others hear
nothing of it. -/
theorem hushes_transmit {r : Registry} {op : Registry.Op} {h : Handle}
    (hc : Change l.registry op r (some h)) (hop : op.isAtGate = true) (p : Payload) :
    l.registry.Hushes (transmit { l with registry := r } h p).1.registry := by
  have hr : Sound r := hc.sound hl
  have hregistered : l.registry.Hushes r := by
    refine hc.hushes (fun g _ => Registry.Op.outcomeFor_of_isAtGate hop g.id) ?_
    rintro f rfl
    cases hop
  unfold transmit
  cases l.codec.serialize h.id p with
  | error f => exact Registry.hushes_settle_of_granted hc hr hop _
  | ok f =>
    have hsame := registry_send { l with registry := r } f
    dsimp only
    generalize send { l with registry := r } f = a at hsame ⊢
    obtain ⟨k, answer⟩ := a
    cases answer with
    | ok _ => exact hsame ▸ hregistered
    | error e =>
      dsimp only at hsame ⊢
      rw [registry_via, hsame]
      exact Registry.hushes_settle_of_granted hc hr hop _

theorem hushes_proceed {op : Registry.Op} {r : Registry} {a : Registration}
    (hop : op.isAtGate = true) (hc : Change l.registry op r a.handle?) (now : Instant)
    (e : Errand) : l.registry.Hushes (proceed now e ({ l with registry := r }, a)).1.registry := by
  have hregistered : l.registry.Hushes r := by
    refine hc.hushes (fun g _ => Registry.Op.outcomeFor_of_isAtGate hop g.id) ?_
    rintro f rfl
    cases hop
  rcases link_proceed_cases now e ({ l with registry := r }, a) with
    hsame | ⟨h, p, hgranted, hsent⟩
  · rw [hsame]
    exact hregistered
  · obtain rfl : a = .granted h := hgranted
    rw [hsent]
    exact hushes_transmit hl hc hop p

theorem hushes_trySubmit (p : Payload) : l.registry.Hushes (l.trySubmit p).1.registry := by
  have hc := Registry.change_of_tryRegister l.registry
  rcases l.link_trySubmit_cases p with hsame | ⟨h, hgranted, hsent⟩
  · rw [hsame]
    exact hc.hushes (fun g _ => Registry.Op.outcomeFor_of_isAtGate rfl g.id) nofun
  · rw [hgranted] at hc
    rw [hsent]
    exact hushes_transmit hl hc rfl p

theorem hushes_attempt (a : Attempt) (now : Instant) :
    l.registry.Hushes (a.make now l).1.registry := by
  cases a with
  | start e =>
    exact hushes_proceed hl rfl (Registry.change_of_act l.registry .register) now e
  | trySubmit p => exact hushes_trySubmit hl p
  | resume w e =>
    exact hushes_proceed hl rfl (Registry.change_of_act l.registry (.resume w)) now e

/-! Those who connect and those who close -/

/-- Setting out to connect tells nobody anything, or fails the link. -/
theorem hushes_or_endsWith_connect (s : Setup) :
    l.registry.Hushes (l.connect s).1.registry ∨
      ∃ e, l.lifecycle ≠ .closed ∧ l.EndsWith (l.connect s).1 e ∧
        e.isConnectionError = true := by
  have hgreeted : l.registry.Hushes (l.via Registry.greet).1.registry :=
    l.registry.hushes_after .greet (fun _ _ => rfl) nofun
  have hleads : l.registry.LeadsTo (l.via Registry.greet).1.registry :=
    LeadsTo.after l.registry .greet
  have hlife : ∀ h, (l.via Registry.greet).2 = .ok h →
      (l.via Registry.greet).1.lifecycle = .connecting := fun _ => Registry.lifecycle_greet
  have hsound := hleads.sound hl
  have hopen : ∀ h, (l.via Registry.greet).2 = .ok h →
      (l.via Registry.greet).1.lifecycle ≠ .closed ∧ l.lifecycle ≠ .closed := by
    intro h hh
    have hstill : (l.via Registry.greet).1.lifecycle ≠ .closed := by
      rw [hlife h hh]
      exact nofun
    exact ⟨hstill, fun hclosed => hstill (hleads.closed hclosed)⟩
  rcases l.connect_results s with ⟨f, hsame⟩ | ⟨h, hh, ⟨m, hfails⟩ | hbreaks | ⟨g, -, hqueued⟩⟩
  · rw [hsame]
    exact Or.inl (Registry.Hushes.refl _)
  · obtain ⟨hstill, hbefore⟩ := hopen h hh
    rw [hfails]
    exact Or.inr ⟨_, hbefore, (endsWith_fail hsound hstill _).of_hushes hgreeted, rfl⟩
  · obtain ⟨hstill, hbefore⟩ := hopen h hh
    rw [hbreaks]
    exact Or.inr ⟨_, hbefore,
      (endsWith_onTransportError hsound hstill loopGone).of_hushes hgreeted,
      isConnectionError_lossOf _ _⟩
  · rw [hqueued]
    exact Or.inl hgreeted

theorem tells_connect (s : Setup) : l.Tells (l.connect s).1 := by
  rcases hushes_or_endsWith_connect hl s with hushes | ⟨e, hopen, hends, herror⟩
  · exact .nothing hushes
  · exact .loss hopen hends herror

theorem tells_awaitGreeting (hk : l.registry.Hushes k.registry)
    (hleads : l.registry.LeadsTo k.registry) (now : Instant) (h : Handle) (limit : Duration)
    (deadline : Instant) : l.Tells (k.awaitGreeting now h limit deadline).1 := by
  unfold awaitGreeting
  split
  · exact .nothing hk
  · exact .nothing hk
  · split
    · exact tells_onTransportError_after hl hk hleads _
    · exact .nothing hk

theorem tells_establish (now : Instant) (s : Setup) (limit : Duration) (deadline : Instant) :
    l.Tells (l.establish now s limit deadline).1 := by
  have hconnect := hushes_or_endsWith_connect hl s
  have hleads := (routine_true.connect l s trivial).leadsTo
  unfold establish
  generalize l.connect s = a at hconnect hleads
  obtain ⟨k, answer⟩ := a
  cases answer with
  | error f =>
    rcases hconnect with hushes | ⟨e, hopen, hends, herror⟩
    · exact .nothing hushes
    · exact .loss hopen hends herror
  | ok h =>
    rcases hconnect with hushes | ⟨e, hopen, hends, herror⟩
    · exact tells_awaitGreeting hl hushes hleads now h limit deadline
    · have hsame : (k.awaitGreeting now h limit deadline).1 = k := by
        unfold awaitGreeting
        split
        · rfl
        · rfl
        · split
          · exact onTransportError_of_closed hends.lifecycle _
          · rfl
      dsimp only
      rw [hsame]
      exact .loss hopen hends herror

theorem tells_close (now : Instant) : l.Tells (l.close now).1 := by
  have hbegun : l.registry.Hushes (l.via Registry.beginClosing).1.registry :=
    l.registry.hushes_of_isTimed .beginClosing rfl
  have hleads : l.registry.LeadsTo (l.via Registry.beginClosing).1.registry :=
    LeadsTo.after l.registry .beginClosing
  rcases l.close_cases now with ⟨p, hwaits⟩ | hends
  · rw [hwaits]
    exact .nothing hbegun
  · rw [hends]
    exact tells_finishClose_after hl hbegun hleads

theorem tells_poll (now : Instant) (c : Call) : l.Tells (c.poll now l).1 := by
  have hrefl := Registry.Hushes.refl l.registry
  have hleads := LeadsTo.refl l.registry
  cases c with
  | inLine w e => exact .nothing (hushes_attempt hl (.resume w e) now)
  | closing deadline? =>
    rw [Call.poll]
    split
    · exact tells_finishClose_after hl hrefl hleads
    · exact Tells.refl l
  | dialling s limit deadline => exact tells_establish hl now s limit deadline
  | greeted h limit deadline => exact tells_awaitGreeting hl hrefl hleads now h limit deadline
  | drained | closed | settled | settledBy | answered | linking => exact Tells.refl l

end Steps

end Link

namespace Scene

variable {s : Scene}

/-- What an action tells the requests of a link. -/
theorem tells_perform (hl : Sound s.link.registry) (hs : Staged s.link.registry) {a : Action}
    (hown : a.isOwn = true) : s.link.Tells (s.perform a).link := by
  cases a with
  | registry op => exact .nothing (s.link.registry.hushes_of_isAtGate op hown)
  | start e =>
    rw [perform, link_join]
    exact .nothing (Link.hushes_attempt hl (.start e) s.now)
  | trySubmit p => exact .nothing (Link.hushes_trySubmit hl p)
  | connect c => exact Link.tells_connect hl c
  | send f =>
    refine .nothing ?_
    rw [perform, s.link.registry_send]
    exact Registry.Hushes.refl _
  | frame f => exact Link.tells_onFrame hl hs f
  | fault f => exact Link.tells_onTransportError hl f
  | close =>
    rw [perform, link_join]
    exact Link.tells_close hl s.now
  | closed | drained | settled | waitFor =>
    rw [perform, link_join]
    exact Link.Tells.refl _
  | poll i =>
    rw [perform]
    cases s.calls[i]? with
    | none => exact Link.Tells.refl _
    | some c =>
      dsimp only
      rw [link_rejoin]
      exact Link.tells_poll hl s.now c
  | drop i =>
    rw [perform]
    cases s.calls[i]? with
    | none => exact Link.Tells.refl _
    | some c =>
      refine .nothing ?_
      cases c with
      | inLine w e => exact s.link.registry.hushes_of_isAtGate (.abandon w) rfl
      | _ => exact Registry.Hushes.refl _
  | loop e =>
    rw [perform]
    split
    · exact Link.tells_handle hl hs e
    · exact Link.Tells.refl _
  | advance d => exact Link.Tells.refl _
  | clone => exact Link.Tells.refl _
  | release => exact Link.Tells.refl _
  | peerWrite b => exact .nothing (Registry.Hushes.refl _)
  | peerRead => exact .nothing (Registry.Hushes.refl _)
  | peerClose => exact .nothing (Registry.Hushes.refl _)

/-- What anything that happens to a link tells its requests. -/
theorem tells_onIncident (hl : Sound s.link.registry) (hs : Staged s.link.registry) {i : Incident}
    (hown : i.isOwn = true) : s.link.Tells (s.onIncident i).link := by
  cases i with
  | act a => exact tells_perform hl hs hown
  | readError m => exact Link.tells_failRead hl m
  | writeError m => exact Link.tells_failWrite hl m

end Scene

end Switchboard
