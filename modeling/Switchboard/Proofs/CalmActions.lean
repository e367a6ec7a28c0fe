import Switchboard.Proofs.QueuedFrames
import Switchboard.Proofs.Spared

/-!
What disturbs nobody on a link. While the link is ready, most of what callers and the peer do
leaves it so, and leaves everybody pending but the one who is answered: `Keeps`. In
particular, to submit a payload does the others no harm, whether it is accepted or not.
-/
namespace Switchboard

open Registry (Sound)

namespace Link

variable {l l' : Link}

/-- The link is at the stage it was at, and nobody has been taken off its table, unless there
is an answer under its identifier. -/
structure Keeps (l : Link) (id? : Option RequestId) (l' : Link) : Prop where
  lifecycle : l'.lifecycle = l.lifecycle
  pending : ∀ h ∈ l.registry.pending, id? ≠ some h.id → h ∈ l'.registry.pending

variable {id? : Option RequestId}

theorem Keeps.refl (l : Link) : l.Keeps id? l := ⟨rfl, fun _ hh _ => hh⟩

theorem Keeps.of_registry (h : l'.registry = l.registry) : l.Keeps id? l' where
  lifecycle := congrArg Registry.lifecycle h
  pending _ hh _ := h ▸ hh

/-! Callers -/

theorem lifecycle_transmit (l : Link) (h : Handle) (p : Payload) :
    (l.transmit h p).1.lifecycle = l.lifecycle := by
  unfold transmit
  cases l.codec.serialize h.id p with
  | error f => exact Registry.lifecycle_settle _ _ _
  | ok frame =>
    have hsend : (l.send frame).1.lifecycle = l.lifecycle :=
      congrArg Registry.lifecycle (l.registry_send frame)
    dsimp only
    generalize l.send frame = a at hsend ⊢
    obtain ⟨l', answer⟩ := a
    cases answer with
    | ok u => exact hsend
    | error f => exact (Registry.lifecycle_settle _ _ _).trans hsend

theorem lifecycle_proceed (now : Instant) (e : Errand) (a : Link × Registration) :
    (proceed now e a).1.lifecycle = a.1.lifecycle := by
  rcases link_proceed_cases now e a with hsame | ⟨h, p, -, hsent⟩
  · rw [hsame]
  · rw [hsent]
    exact a.1.lifecycle_transmit h p

theorem lifecycle_trySubmit (l : Link) (p : Payload) :
    (l.trySubmit p).1.lifecycle = l.lifecycle := by
  have hregister : (l.via Registry.tryRegister).1.lifecycle = l.lifecycle :=
    l.registry.lifecycle_of_isAtGate .tryRegister rfl
  rcases l.link_trySubmit_cases p with hsame | ⟨h, -, hsent⟩
  · rw [hsame]
    exact hregister
  · rw [hsent]
    exact (lifecycle_transmit _ h p).trans hregister

theorem keeps_of_isAtGate (l : Link) (op : Registry.Op) (hop : op.isAtGate = true) :
    l.Keeps id? { l with registry := l.registry.after op } where
  lifecycle := l.registry.lifecycle_of_isAtGate op hop
  pending h hh _ := (Registry.change_of_act l.registry op).mem_of_not_meant hh
    (Registry.Op.outcomeFor_of_isAtGate hop h.id)

theorem Deed.keeps {new : List (Handle × Payload)} (hd : Deed l l' new)
    (hopen : l.lifecycle ≠ .closed) (hsame : l'.lifecycle = l.lifecycle) : l.Keeps id? l' :=
  ⟨hsame, fun _ hh _ => hd.mem (hsame ▸ hopen) hh⟩

/-- What the queue and the table get from somebody who submits a payload. -/
theorem Deed.submits {new : List (Handle × Payload)} (hd : Deed l l' new) {p : Payload}
    (hopen : l'.lifecycle ≠ .closed) (hpaid : ∀ q ∈ new, q.2 = p) :
    (new = [] ∧ l'.outbox = l.outbox ∧ l'.registry.pending = l.registry.pending) ∨
      ∃ h g, new = [(h, p)] ∧ l.codec.serialize h.id p = .ok g ∧ l'.outbox = l.outbox ++ [g] ∧
        l'.registry.pending = l.registry.pending ++ [h] := by
  cases hd with
  | closes hclosed => exact absurd hclosed hopen
  | rests hp _ => exact Or.inl ⟨rfl, rfl, hp⟩
  | @posts r h p' g hp _ hg =>
    obtain rfl : p' = p := hpaid (h, p') (List.mem_singleton_self _)
    exact Or.inr ⟨h, g, rfl, hg, rfl, hp⟩

theorem payload_of_mem_posted {h : Handle} {p : Payload} {q : Handle × Payload}
    (hq : q ∈ l.posted h p) : q.2 = p := by
  unfold posted at hq
  split at hq
  · rw [List.mem_singleton.mp hq]
  · exact absurd hq List.not_mem_nil

theorem payload?_of_mem_postedBy {e : Errand} {a : Link × Registration} {q : Handle × Payload}
    (hq : q ∈ postedBy e a) : e.payload? = some q.2 := by
  obtain ⟨l, a⟩ := a
  cases a with
  | granted h =>
    rw [postedBy] at hq
    cases hpaid : e.payload? with
    | none => simp [hpaid] at hq
    | some p =>
      simp only [hpaid] at hq
      rw [payload_of_mem_posted hq]
  | waiting w => exact absurd hq List.not_mem_nil
  | refused f => exact absurd hq List.not_mem_nil

section Ready

variable (hl : Sound l.registry) (hready : l.lifecycle = .ready)

include hready

theorem ne_closed_of_ready : l.lifecycle ≠ .closed := by
  intro hclosed
  cases hready.symm.trans hclosed

theorem ne_connecting_of_ready : l.lifecycle ≠ .connecting := by
  intro hconnecting
  cases hready.symm.trans hconnecting

include hl

theorem keeps_proceed_via (now : Instant) (e : Errand) {f : Registry → Registry × Registration}
    (op : Registry.Op) (hop : op.isAtGate = true) (hafter : ∀ r, (f r).1 = r.after op)
    (hgranted : ∀ r, r.grants op = (f r).2.handle?) :
    l.Keeps id? (proceed now e (l.via f)).1 := by
  have hgate : l.Keeps id? (l.via f).1 := by
    have hkeeps : l.Keeps id? { l with registry := l.registry.after op } :=
      l.keeps_of_isAtGate op hop
    rwa [← hafter] at hkeeps
  have hsame : (proceed now e (l.via f)).1.lifecycle = l.lifecycle :=
    (lifecycle_proceed now e _).trans hgate.lifecycle
  cases e with
  | register =>
    generalize l.via f = a at hgate hsame ⊢
    obtain ⟨l', a⟩ := a
    cases a <;> exact hgate
  | submit p | execute p limit =>
    have hc := Registry.change_of_act l.registry op
    rw [hgranted, ← hafter] at hc
    exact (deed_of_proceed hop hc hl now rfl).keeps (ne_closed_of_ready hready) hsame

theorem keeps_trySubmit (p : Payload) : l.Keeps id? (l.trySubmit p).1 :=
  (deed_of_trySubmit hl p).keeps (ne_closed_of_ready hready) (l.lifecycle_trySubmit p)

/-- A call that has a look, unless it has waited too long for the handshake. -/
theorem keeps_poll {now : Instant} {c : Call} (hquiet : c.Allows Registry.Quiet l.registry)
    (hpatient : c.breakage? now l = none) : l.Keeps id? (c.poll now l).1 := by
  cases c with
  | inLine w e =>
    exact keeps_proceed_via hl hready now e (.resume w) rfl (fun _ => rfl) fun _ => rfl
  | closing deadline? =>
    obtain ⟨hc, -⟩ | ⟨hshut, -⟩ := hquiet
    · cases hready.symm.trans hc
    · have hnot : l.lifecycle.isShuttingDown = true := hshut
      rw [hready] at hnot
      cases hnot
  | dialling s limit deadline => cases hquiet
  | greeted h limit deadline =>
    rw [Call.poll, awaitGreeting]
    cases houtcome : l.outcome? h with
    | some o => cases o <;> exact .refl l
    | none =>
      simp only [Call.breakage?, houtcome, Option.isNone_none, Bool.true_and] at hpatient
      cases hreached : now.reached deadline with
      | true => simp [hreached] at hpatient
      | false => exact .refl l
  | drained | closed | settled | settledBy | answered | linking => exact .refl l

end Ready

/-! The peer -/

/-- A frame that does not break the link is an answer, which concerns one request at most. -/
theorem onFrame_of_unbroken (hready : l.lifecycle = .ready) {f : Frame}
    (hf : l.breakageOfFrame? f = none) :
    ∃ id b o, l.codec.deserialize f = .ok ⟨id, b⟩ ∧ l.onFrame f = (l.via (·.settle id o)).1 := by
  unfold breakageOfFrame? at hf
  cases hread : l.codec.deserialize f with
  | error e => simp [hread] at hf
  | ok a =>
    obtain ⟨id, b⟩ := a
    simp only [onFrame, hread]
    by_cases hid : id = RequestId.handshake
    · subst hid
      rw [onResponse_handshake, onHandshake, if_pos (ne_connecting_of_ready hready)]
      exact ⟨_, b, _, rfl, rfl⟩
    · have hordinary : id.isHandshake = false := by simp [RequestId.isHandshake, hid]
      rcases l.onResponse_of_ordinary hid b with ⟨m, rfl, -⟩ | ⟨-, heq⟩
      · simp [hread, hordinary] at hf
      · exact ⟨id, b, _, rfl, heq⟩

/-- A frame that does not break the link disturbs nobody but the one it answers. -/
theorem keeps_onFrame (hready : l.lifecycle = .ready) {f : Frame}
    (hf : l.breakageOfFrame? f = none) :
    l.Keeps ((l.codec.deserialize f).toOption.map Response.id) (l.onFrame f) := by
  obtain ⟨id, b, o, hread, heq⟩ := onFrame_of_unbroken hready hf
  rw [heq, hread]
  refine ⟨Registry.lifecycle_settle _ _ _, fun h hh hne => ?_⟩
  exact Registry.mem_settle_of_ne hh (fun hid => hne (congrArg some hid.symm)) o

end Link

namespace Scene

variable {s : Scene}

/-- Whether an action leaves it to the loop to break the link by what it writes: nobody
closes the link or lets go of it, nobody waits for the handshake in vain, the peer does not
close its end, and what the link hears of it does not break the link. -/
def isCalm (s : Scene) : Action → Bool
  | .registry op => op.isAtGate
  | .fault _ => false
  | .close => false
  | .peerClose => false
  | .frame f => (s.link.breakageOfFrame? f).isNone
  | .poll i => (s.calls[i]?.bind (Call.breakage? s.now s.link)).isNone
  | .loop .receive => (s.link.breakageOfEvent? .receive).isNone
  | .loop .release => s.isHeld
  | _ => true

def staysCalm : Scene → List Action → Bool
  | _, [] => true
  | s, a :: acts => s.isCalm a && staysCalm (s.perform a) acts

/-- The identifier under which an action brings an answer. -/
def answered? (s : Scene) (a : Action) : Option RequestId :=
  (s.delivered? a).bind fun f => (s.link.codec.deserialize f).toOption.map Response.id

/-- The identifiers under which answers come in a run. -/
def answeredIn : Scene → List Action → List RequestId
  | _, [] => []
  | s, a :: acts => (s.answered? a).toList ++ answeredIn (s.perform a) acts

theorem isOwn_of_isCalm {a : Action} (h : s.isCalm a = true) : a.isOwn = true := by
  cases a with
  | registry op => exact h
  | _ => rfl

theorem ne_peerClose_of_isCalm {a : Action} (h : s.isCalm a = true) : a ≠ .peerClose := by
  rintro rfl
  cases h

theorem staysCalm_append (s : Scene) (acts more : List Action) :
    s.staysCalm (acts ++ more) = (s.staysCalm acts && (s.run acts).staysCalm more) := by
  induction acts generalizing s with
  | nil => rfl
  | cons a acts ih => rw [List.cons_append, staysCalm, staysCalm, ih, run_cons, Bool.and_assoc]

/-- What the loop takes off the stream disturbs nobody but the one it answers. -/
theorem keeps_receive (hready : s.link.lifecycle = .ready)
    (he : .receive ∈ s.link.ready s.isHeld)
    (hcalm : s.isCalm (.loop .receive) = true) :
    s.link.Keeps (s.answered? (.loop .receive)) s.link.receive := by
  have hunbroken : s.link.breakageOfEvent? .receive = none := Option.isNone_iff_eq_none.mp hcalm
  unfold Link.receive answered? delivered?
  simp only [Link.breakageOfEvent?] at hunbroken
  cases hitem : s.link.inboundItem with
  | mk item d =>
    simp only [hitem] at hunbroken ⊢
    cases item with
    | frame f =>
      simp only [he, if_true, Option.bind_some]
      have hkeeps := Link.keeps_onFrame
        (l := { s.link with deframer := d, stream.inbound := .empty }) hready hunbroken
      exact ⟨hkeeps.lifecycle, hkeeps.pending⟩
    | starved => exact .of_registry rfl
    | fault f => cases hunbroken
    | finished => cases hunbroken

section Ready

variable (hl : Sound s.link.registry) (hquiet : s.Quiet) (hready : s.link.lifecycle = .ready)

include hl hquiet hready

theorem keeps_perform {a : Action} (hcalm : s.isCalm a = true) (hbytes : a.movesBytes = false) :
    s.link.Keeps (s.answered? a) (s.perform a).link := by
  cases a with
  | registry op => exact s.link.keeps_of_isAtGate op hcalm
  | start e =>
    rw [perform, link_join]
    exact Link.keeps_proceed_via hl hready s.now e .register rfl (fun _ => rfl) fun _ => rfl
  | trySubmit p => exact Link.keeps_trySubmit hl hready p
  | connect c =>
    obtain ⟨f, hf⟩ := Link.connect_of_ne (l := s.link) (Link.ne_connecting_of_ready hready) c
    rw [perform, hf]
    exact .refl _
  | send f => exact .of_registry (s.link.registry_send f)
  | frame f => exact Link.keeps_onFrame hready (Option.isNone_iff_eq_none.mp hcalm)
  | poll i =>
    rw [perform]
    cases hi : s.calls[i]? with
    | none => exact .refl _
    | some c =>
      have hpatient : c.breakage? s.now s.link = none := by
        simpa only [isCalm, hi, Option.bind_some, Option.isNone_iff_eq_none] using hcalm
      dsimp only
      rw [link_rejoin]
      exact Link.keeps_poll hl hready (hquiet c (List.mem_of_getElem? hi)) hpatient
  | drop i =>
    rw [perform]
    cases s.calls[i]? with
    | none => exact .refl _
    | some c =>
      cases c with
      | inLine w e => exact s.link.keeps_of_isAtGate (.abandon w) rfl
      | _ => exact .refl _
  | closed | drained | settled | waitFor =>
    rw [perform, link_join]
    exact .refl _
  | advance | clone | release => exact .refl _
  | fault | close => cases hcalm
  | loop | peerWrite | peerRead | peerClose => cases hbytes

end Ready

/-! Submissions -/

/-- The payload that an action submits, or goes on to submit after a wait in line. -/
def submitted? (s : Scene) : Action → Option Payload
  | .trySubmit p => some p
  | .start e => e.payload?
  | .poll i =>
    match s.calls[i]? with
    | some (.inLine _ e) => e.payload?
    | _ => none
  | _ => none

theorem queues_of_append {a : Action} (hloop : ∀ e, a ≠ .loop e) {fs : List Frame}
    (h : (s.perform a).link.outbox = s.link.outbox ++ fs) : s.queues a = fs := by
  unfold queues
  split
  · exact absurd rfl (hloop _)
  · rw [h, List.drop_left]

theorem payload_of_mem_posted {a : Action} {p : Payload} (ha : s.submitted? a = some p)
    {q : Handle × Payload} (hq : q ∈ s.posted a) : q.2 = p := by
  cases a with
  | trySubmit p' =>
    obtain rfl := Option.some.inj ha
    rw [posted] at hq
    split at hq
    · exact Link.payload_of_mem_posted hq
    · exact absurd hq List.not_mem_nil
  | start e => exact Option.some.inj ((Link.payload?_of_mem_postedBy hq).symm.trans ha)
  | poll i =>
    simp only [submitted?] at ha
    simp only [posted] at hq
    cases hi : s.calls[i]? with
    | none => simp [hi] at ha
    | some c =>
      cases c with
      | inLine w e =>
        simp only [hi] at ha hq
        exact Option.some.inj ((Link.payload?_of_mem_postedBy hq).symm.trans ha)
      | _ => simp [hi] at ha
  | _ => cases ha

theorem deed_of_submitted (hl : Sound s.link.registry) {a : Action} {p : Payload}
    (ha : s.submitted? a = some p) : s.link.Deed (s.perform a).link (s.posted a) := by
  cases a with
  | trySubmit p' => exact Link.deed_of_trySubmit hl p'
  | start e =>
    rw [perform, link_join]
    exact Link.deed_of_proceed rfl (Registry.change_of_act s.link.registry .register) hl s.now
      (Option.isSome_of_eq_some ha)
  | poll i =>
    simp only [submitted?] at ha
    rw [perform, posted]
    cases hi : s.calls[i]? with
    | none => exact .refl _
    | some c =>
      dsimp only
      rw [link_rejoin]
      cases c with
      | inLine w e =>
        simp only [hi] at ha
        have hclient : (Call.inLine w e).isClients = true := Option.isSome_of_eq_some ha
        exact Link.deed_of_poll hl s.now hclient
      | _ => simp [hi] at ha
  | _ => cases ha

/-- Whoever submits a payload to a link that is ready leaves it as it is, or has it put in the
queue as one frame and waits with the others. -/
theorem submission (hl : Sound s.link.registry) (hquiet : s.Quiet)
    (hready : s.link.lifecycle = .ready) {a : Action} {p : Payload}
    (ha : s.submitted? a = some p) :
    let l' := (s.perform a).link
    l'.lifecycle = .ready ∧
      ((s.posted a = [] ∧ s.queues a = [] ∧ l'.registry.pending = s.link.registry.pending) ∨
        ∃ h g, s.posted a = [(h, p)] ∧ s.link.codec.serialize h.id p = .ok g ∧
          s.queues a = [g] ∧ l'.registry.pending = s.link.registry.pending ++ [h]) := by
  intro l'
  have hloop : ∀ e, a ≠ .loop e := by
    rintro e rfl
    cases ha
  have hstill : l'.lifecycle = .ready := by
    refine (keeps_perform hl hquiet hready ?_ ?_).lifecycle.trans hready
    · cases a with
      | poll i =>
        simp only [submitted?] at ha
        simp only [isCalm]
        cases hi : s.calls[i]? with
        | none => rfl
        | some c =>
          cases c with
          | inLine w e => rfl
          | _ => simp [hi] at ha
      | trySubmit | start => rfl
      | _ => cases ha
    · cases a with
      | loop | peerWrite | peerRead | peerClose => cases ha
      | _ => rfl
  refine ⟨hstill, ?_⟩
  rcases (deed_of_submitted hl ha).submits (Link.ne_closed_of_ready hstill)
      (fun q hq => payload_of_mem_posted ha hq) with
    ⟨hnone, hqueue, hpending⟩ | ⟨h, g, hone, hg, hqueue, hpending⟩
  · exact Or.inl ⟨hnone, queues_of_append hloop (hqueue.trans (List.append_nil _).symm), hpending⟩
  · exact Or.inr ⟨h, g, hone, hg, queues_of_append hloop hqueue, hpending⟩

end Scene

end Switchboard
