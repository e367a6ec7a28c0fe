import Switchboard.Client
import Switchboard.Link.Loop
import Switchboard.Proofs.Settlement

/-!
Runs of a link. A scene is a link with the calls that are made on it and the clock. Its
actions are everything that callers, the peer, the loop and the clock can do, one at a time
and in any order: nothing comes to rest between two actions unless it is made to. Whatever
an action does to the registry of the link is done by operations of the registry, so what
holds in every run of a registry holds in every run of a link.

A run is a fold over its actions (`perform`, `run`). Two wider kinds of events come with runs of
their own: incidents are actions or errors of the stream (`onIncident`, `runIncidents`), and
occurrences are incidents or what the peer and the stream do in the middle of a transfer
(`onOccurrence`, `runOccurrences`). What every event of a kind keeps, a run keeps, by
`List.foldlRecOn`.
-/
namespace Switchboard

structure Scene where
  link : Link
  now : Instant := ⟨0⟩
  /-- The calls that wait, in the order in which they were made. -/
  calls : List Call := []
  /-- What calls ended with, the oldest first. -/
  answers : List Answer := []
  /-- How often the link is held, apart from the calls that wait. -/
  clones : Nat := 1

namespace Scene

inductive Action where
  /-- An operation on the registry behind the link. -/
  | registry (op : Registry.Op)
  | start (e : Errand)
  | trySubmit (p : Payload)
  | connect (s : Setup)
  | send (f : Frame)
  /-- A frame of the peer that does not come off the stream. -/
  | frame (f : Frame)
  | fault (f : Failure)
  | close
  | closed
  | drained
  | settled (h : Handle)
  | waitFor (h : Handle) (limit : Duration)
  /-- A call that waits has another look. -/
  | poll (i : Nat)
  /-- A call that waits is given up. -/
  | drop (i : Nat)
  /-- The loop does one of the things that it can do. -/
  | loop (e : Link.Event)
  | advance (d : Duration)
  | clone
  | release
  | peerWrite (b : ByteArray)
  | peerRead
  | peerClose

/-- Whether somebody holds the link. -/
def isHeld (s : Scene) : Bool := decide (0 < s.clones) || s.calls.any Call.holdsLink

/-- Takes up a call that has had its first look. -/
def join (s : Scene) : Link × Progress → Scene
  | (l, .waiting c) => { s with link := l, calls := s.calls ++ [c] }
  | (l, .finished a) => { s with link := l, answers := s.answers ++ [a] }

/-- Takes up a call that has had another look. -/
def rejoin (s : Scene) (i : Nat) : Link × Progress → Scene
  | (l, .waiting c) => { s with link := l, calls := s.calls.set i c }
  | (l, .finished a) => { s with link := l, calls := s.calls.eraseIdx i,
                                 answers := s.answers ++ [a] }

/-- What an action does. A call that does not exist is not polled, and the loop does not do
what it is not ready for. -/
def perform (s : Scene) : Action → Scene
  | .registry op => { s with link := (s.link.via (·.act op)).1 }
  | .start e => s.join (s.link.start s.now e)
  | .trySubmit p => { s with link := (s.link.trySubmit p).1 }
  | .connect c => { s with link := (s.link.connect c).1 }
  | .send f => { s with link := (s.link.send f).1 }
  | .frame f => { s with link := s.link.onFrame f }
  | .fault f => { s with link := s.link.onTransportError f }
  | .close => s.join (s.link.close s.now)
  | .closed => s.join (Call.closed.poll s.now s.link)
  | .drained => s.join (Call.drained.poll s.now s.link)
  | .settled h => s.join ((Call.settled h).poll s.now s.link)
  | .waitFor h limit => s.join (s.link.waitFor s.now h limit)
  | .poll i =>
    match s.calls[i]? with
    | some c => s.rejoin i (c.poll s.now s.link)
    | none => s
  | .drop i =>
    match s.calls[i]? with
    | some c => { s with link := c.drop s.link, calls := s.calls.eraseIdx i }
    | none => s
  | .loop e => if e ∈ s.link.ready s.isHeld then { s with link := s.link.handle e } else s
  | .advance d => { s with now := s.now.advance d }
  | .clone => { s with clones := s.clones + 1 }
  | .release => { s with clones := s.clones - 1 }
  | .peerWrite b => { s with link.stream := (s.link.stream.peerWrite b).1 }
  | .peerRead => { s with link.stream := s.link.stream.peerRead.2 }
  | .peerClose => { s with link.stream := s.link.stream.closePeer }

def run (s : Scene) (acts : List Action) : Scene := acts.foldl perform s

@[simp] theorem run_nil (s : Scene) : s.run [] = s := rfl

@[simp] theorem run_cons (s : Scene) (a : Action) (acts : List Action) :
    s.run (a :: acts) = (s.perform a).run acts := rfl

@[simp] theorem run_append (s : Scene) (acts more : List Action) :
    s.run (acts ++ more) = (s.run acts).run more :=
  List.foldl_append

end Scene

/-- Operations lead from one registry to the other. -/
def Registry.LeadsTo (r s : Registry) : Prop := ∃ ops, s = r.run ops

/-- Operations lead from one registry to the other, each of them one that `P` allows in the
state in which it is carried out. -/
inductive Registry.LeadsBy (P : Registry → Op → Prop) (r : Registry) : Registry → Prop
  | refl : LeadsBy P r r
  | step {s : Registry} {op : Op} : LeadsBy P r s → P s op → LeadsBy P r (s.after op)

namespace Registry.LeadsTo

variable {r s t : Registry}

theorem refl (r : Registry) : r.LeadsTo r := ⟨[], rfl⟩

theorem trans (h : r.LeadsTo s) (h' : s.LeadsTo t) : r.LeadsTo t := by
  obtain ⟨ops, rfl⟩ := h
  obtain ⟨more, rfl⟩ := h'
  exact ⟨ops ++ more, (run_append r ops more).symm⟩

theorem after (r : Registry) (op : Op) : r.LeadsTo (r.after op) := ⟨[op], rfl⟩

theorem preserves {I : Registry → Prop} (h : r.LeadsTo s)
    (hstep : ∀ s op, I s → I (s.after op)) (hr : I r) : I s := by
  obtain ⟨ops, rfl⟩ := h
  exact run_induction hr hstep ops

theorem sound (h : r.LeadsTo s) (hr : Sound r) : Sound s := by
  obtain ⟨ops, rfl⟩ := h
  exact sound_run hr ops

theorem staged (h : r.LeadsTo s) (hr : Staged r) : Staged s := by
  obtain ⟨ops, rfl⟩ := h
  exact staged_run hr ops

theorem size_le (h : r.LeadsTo s) : r.ledger.outcomes.size ≤ s.ledger.outcomes.size := by
  obtain ⟨ops, rfl⟩ := h
  exact size_le_run r ops

theorem mem_or_later (h : r.LeadsTo s) {g : Handle} (hg : g ∈ s.pending) :
    g ∈ r.pending ∨ r.ledger.outcomes.size ≤ g.ticket.serial := by
  obtain ⟨ops, rfl⟩ := h
  exact mem_or_later_of_run hg

theorem outcome? (h : r.LeadsTo s) {t : Ticket} {o : Outcome}
    (hr : r.ledger.outcome? t = some o) : s.ledger.outcome? t = some o := by
  obtain ⟨ops, rfl⟩ := h
  exact outcome?_run_of_settled hr ops

end Registry.LeadsTo

namespace Registry.LeadsBy

variable {P : Registry → Op → Prop} {r s t : Registry}

theorem trans (h : LeadsBy P r s) (h' : LeadsBy P s t) : LeadsBy P r t := by
  induction h' with
  | refl => exact h
  | step _ hop ih => exact ih.step hop

theorem after {op : Op} (h : P r op) : LeadsBy P r (r.after op) := refl.step h

theorem leadsTo (h : LeadsBy P r s) : r.LeadsTo s := by
  induction h with
  | refl => exact LeadsTo.refl r
  | step _ _ ih => exact ih.trans (LeadsTo.after _ _)

theorem preserves {I : Registry → Prop} (h : LeadsBy P r s)
    (hstep : ∀ s op, P s op → I s → I (s.after op)) (hr : I r) : I s := by
  induction h with
  | refl => exact hr
  | step _ hop ih => exact hstep _ _ hop ih

end Registry.LeadsBy

/-- `P` allows what a link does to its registry in every run. What it does once at most is
left open: the handshake, its completion, and the end of a close that has not been begun. -/
structure Link.Routine (P : Registry → Registry.Op → Prop) : Prop where
  atGate : ∀ r op, op.isAtGate = true → P r op
  settle : ∀ r id o, (r.lifecycle = .connecting → id ≠ RequestId.handshake) →
    P r (.settle id o)
  beginClosing : ∀ r, P r .beginClosing
  refuse : ∀ r m, r.lifecycle = .connecting → P r (.failAll (.handshakeFailed m))
  finish : ∀ r m, r.lifecycle.isShuttingDown = true → P r (.failAll (.closing m))

/-- The frame completes the handshake of a link that is still connecting. -/
def Link.Opens (l : Link) (f : Frame) : Prop :=
  l.lifecycle = .connecting ∧ l.codec.deserialize f = .ok ⟨RequestId.handshake, .ok⟩

/-- `P` allows what is not routine when the call has a look. -/
def Call.Allows (P : Registry → Registry.Op → Prop) (r : Registry) : Call → Prop
  | .closing _ => P r (.failAll (.closing "connection closed by client"))
  | .dialling _ _ _ => P r .greet
  | _ => True

namespace Registry

theorem Change.connecting_of_greet {r s : Registry} {h : Handle}
    (hc : Change r .greet s (some h)) : s.lifecycle = .connecting := by
  cases hc with
  | enters hop _ _ => cases hop
  | greets hconnecting _ => exact hconnecting

theorem lifecycle_greet {r : Registry} {h : Handle} (hg : r.greet.2 = .ok h) :
    r.greet.1.lifecycle = .connecting := by
  have hc := change_of_greet r
  rw [hg] at hc
  exact hc.connecting_of_greet

theorem Change.ready_of_granted {r s : Registry} {op : Op} {h : Handle}
    (hc : Change r op s (some h)) (hop : op.isAtGate = true) : s.lifecycle = .ready := by
  cases hc with
  | enters _ hready _ => exact hready
  | greets _ _ => cases hop

theorem greet_of_error {r : Registry} {f : Failure} (h : r.greet.2 = .error f) : r.greet.1 = r := by
  unfold greet at h ⊢
  split
  · rfl
  · split
    · rfl
    · simp_all

/-- The handshake is registered once, and while the registry connects. -/
theorem greet_of_ok {r : Registry} {h : Handle} (hok : r.greet.2 = .ok h) :
    r.lifecycle = .connecting ∧ r.greeted = false ∧ h = r.nextHandle RequestId.handshake ∧
      r.greet.1 = { r.file RequestId.handshake with greeted := true } := by
  have hc := change_of_greet r
  rw [hok] at hc
  generalize r.greet.1 = s at hc ⊢
  cases hc with
  | enters hop _ _ => cases hop
  | greets hconnecting hgreeted => exact ⟨hconnecting, hgreeted, rfl, rfl⟩

theorem isShuttingDown_beginClosing (r : Registry) :
    r.beginClosing.1.lifecycle.isShuttingDown = true := by
  unfold beginClosing
  split_ifs with h
  · exact h
  · rfl

end Registry

namespace Link

open Registry (LeadsTo LeadsBy)

theorem registry_via {α : Type} (l : Link) (f : Registry → Registry × α) :
    (l.via f).1.registry = (f l.registry).1 := rfl

theorem registry_fail (l : Link) (f : Failure) :
    (l.fail f).registry =
      ((if l.lifecycle = .connecting then l else (l.via Registry.beginClosing).1).via
        (·.failAll f)).1.registry := by
  unfold fail
  dsimp only
  split <;> split <;> rfl

theorem registry_enqueue {l l' : Link} {f : Frame} (h : l.enqueue f = some l') :
    l'.registry = l.registry := by
  unfold enqueue at h
  split at h
  · cases h
  · cases h
    rfl

theorem registry_send (l : Link) (f : Frame) : (l.send f).1.registry = l.registry := by
  unfold send
  cases l.registry.rejection with
  | some e => rfl
  | none =>
    cases h : l.enqueue f with
    | some l' => exact registry_enqueue h
    | none => rfl

theorem lossOf_of_ne {state : Lifecycle} (h : state ≠ .connecting) (f : Failure) :
    ∃ m, lossOf state f = .closing m := by
  unfold lossOf
  rw [if_neg h]
  cases f with
  | closing m => exact ⟨m, rfl⟩
  | _ => exact ⟨_, rfl⟩

theorem handshakeComplaint_eq_none {b : Body} (h : handshakeComplaint b = none) : b = .ok := by
  cases b with
  | ok => rfl
  | _ => cases h

theorem link_proceed_execute (l : Link) (now : Instant) (h : Handle) (p : Payload)
    (limit : Duration) :
    (proceed now (.execute p limit) (l, .granted h)).1 = (l.transmit h p).1 := by
  simp only [proceed]
  generalize l.transmit h p = a
  obtain ⟨l', answer⟩ := a
  cases answer with
  | ok h' => rfl
  | error f => rfl

/-- All that `connect` can do: the handshake is not registered; or it is, and then the setup
cannot be written down, or finds no queue any more, or is put at the end of it. -/
theorem connect_results (l : Link) (s : Setup) :
    let k := (l.via Registry.greet).1
    (∃ f, l.connect s = (l, .error f)) ∨
      ∃ h, l.registry.greet.2 = .ok h ∧
        ((∃ m, l.connect s = (k.fail (.handshakeFailed m), .ok h)) ∨
          l.connect s = (k.onTransportError loopGone, .ok h) ∨
          ∃ g, l.codec.serialize RequestId.handshake (.connect s) = .ok g ∧
            l.connect s = ({ k with outbox := l.outbox ++ [g] }, .ok h)) := by
  intro k
  have hanswer : (l.via Registry.greet).2 = l.registry.greet.2 := rfl
  have hcodec : k.codec = l.codec := rfl
  unfold connect
  cases hvia : l.via Registry.greet with
  | mk l' answer =>
    obtain rfl : k = l' := congrArg Prod.fst hvia
    rw [hvia] at hanswer
    cases answer with
    | error f =>
      have hsame : k = l := by simp only [k, via, Registry.greet_of_error hanswer.symm]
      exact Or.inl ⟨f, by rw [hsame]⟩
    | ok h =>
      refine Or.inr ⟨h, hanswer.symm, ?_⟩
      dsimp only
      rw [hcodec]
      cases hframe : l.codec.serialize RequestId.handshake (.connect s) with
      | error f => exact Or.inl ⟨_, rfl⟩
      | ok g =>
        right
        cases hended : k.loop.isEnded with
        | true =>
          left
          simp only [enqueue, hended, if_true]
        | false =>
          refine Or.inr ⟨g, rfl, ?_⟩
          simp only [enqueue, hended, Bool.false_eq_true, if_false]
          rfl

/-- Going on with an errand leaves the link as it is, or sends a payload for the request that
has been granted. -/
theorem link_proceed_cases (now : Instant) (e : Errand) (a : Link × Registration) :
    (proceed now e a).1 = a.1 ∨
      ∃ h p, a.2 = .granted h ∧ (proceed now e a).1 = (a.1.transmit h p).1 := by
  obtain ⟨l, a⟩ := a
  cases a with
  | waiting w => exact Or.inl rfl
  | refused f => exact Or.inl rfl
  | granted h =>
    cases e with
    | register => exact Or.inl rfl
    | submit p => exact Or.inr ⟨h, p, rfl, rfl⟩
    | execute p limit => exact Or.inr ⟨h, p, rfl, l.link_proceed_execute now h p limit⟩

/-- Whoever does not wait sends a payload if its request has been registered. -/
theorem link_trySubmit_cases (l : Link) (p : Payload) :
    (l.trySubmit p).1 = (l.via Registry.tryRegister).1 ∨
      ∃ h, l.registry.tryRegister.2 = .ok h ∧
        (l.trySubmit p).1 = ((l.via Registry.tryRegister).1.transmit h p).1 := by
  have hanswer : (l.via Registry.tryRegister).2 = l.registry.tryRegister.2 := rfl
  unfold trySubmit
  generalize l.via Registry.tryRegister = a at hanswer ⊢
  obtain ⟨l', answer⟩ := a
  cases answer with
  | error f => exact Or.inl rfl
  | ok h => exact Or.inr ⟨h, hanswer.symm, rfl⟩

/-- What closing a link leaves behind: the close has begun, and somebody waits for its end, or
it has come to its end at once. -/
theorem close_cases (l : Link) (now : Instant) :
    (∃ p, l.close now = ((l.via Registry.beginClosing).1, p)) ∨
      l.close now = ((l.via Registry.beginClosing).1.finishClose, .finished .done) := by
  unfold close
  generalize l.via Registry.beginClosing = a
  obtain ⟨l', first⟩ := a
  cases first with
  | false => exact Or.inl ⟨_, rfl⟩
  | true =>
    dsimp only
    split
    · exact Or.inr rfl
    · rw [Call.poll]
      split
      · exact Or.inr rfl
      · exact Or.inl ⟨_, rfl⟩

variable {P : Registry → Registry.Op → Prop}

theorem leadsBy_via {α : Type} (l : Link) (f : Registry → Registry × α) {op : Registry.Op}
    (hf : ∀ r, (f r).1 = r.after op) (hop : P l.registry op) :
    LeadsBy P l.registry (l.via f).1.registry := by
  rw [registry_via, hf]
  exact LeadsBy.after hop

theorem Routine.mono {Q : Registry → Registry.Op → Prop} (hP : Routine P)
    (hPQ : ∀ r op, P r op → Q r op) : Routine Q where
  atGate r op hop := hPQ r op (hP.atGate r op hop)
  settle r id o hid := hPQ r _ (hP.settle r id o hid)
  beginClosing r := hPQ r _ (hP.beginClosing r)
  refuse r m hc := hPQ r _ (hP.refuse r m hc)
  finish r m hshut := hPQ r _ (hP.finish r m hshut)

namespace Routine

variable (hP : Routine P) (l : Link)

include hP

theorem settle_of_ne (hc : l.lifecycle ≠ .connecting) (id : RequestId) (o : Outcome) :
    LeadsBy P l.registry (l.via (·.settle id o)).1.registry :=
  l.leadsBy_via _ (fun _ => rfl) (hP.settle _ id o fun h => absurd h hc)

theorem fail_connecting (hc : l.lifecycle = .connecting) (m : String) :
    LeadsBy P l.registry (l.fail (.handshakeFailed m)).registry := by
  rw [registry_fail, if_pos hc]
  exact l.leadsBy_via _ (fun _ => rfl) (hP.refuse _ m hc)

theorem fail_closing (hc : l.lifecycle ≠ .connecting) (m : String) :
    LeadsBy P l.registry (l.fail (.closing m)).registry := by
  rw [registry_fail, if_neg hc]
  have hbegin : LeadsBy P l.registry (l.via Registry.beginClosing).1.registry :=
    l.leadsBy_via _ (fun _ => rfl) (hP.beginClosing _)
  refine hbegin.trans (leadsBy_via _ _ (fun _ => rfl) (hP.finish _ m ?_))
  exact l.registry.isShuttingDown_beginClosing

theorem onTransportError (f : Failure) :
    LeadsBy P l.registry (l.onTransportError f).registry := by
  unfold Link.onTransportError
  split
  · exact .refl
  · by_cases hc : l.lifecycle = .connecting
    · rw [hc]
      exact hP.fail_connecting l hc _
    · obtain ⟨m, hm⟩ := lossOf_of_ne hc f
      rw [hm]
      exact hP.fail_closing l hc m

theorem onHandshake (b : Body)
    (hopen : l.lifecycle = .connecting → b = .ok → P l.registry .markReady) :
    LeadsBy P l.registry (l.onHandshake b).registry := by
  unfold Link.onHandshake
  by_cases hc : l.lifecycle = .connecting
  · rw [if_neg (not_not.mpr hc)]
    cases hcomplaint : handshakeComplaint b with
    | none =>
      have hmark := hopen hc (handshakeComplaint_eq_none hcomplaint)
      have hready : (l.via Registry.markReady).1.lifecycle = .ready := by
        simp [lifecycle, registry_via, Registry.markReady, Registry.moveTo,
          show l.registry.lifecycle = .connecting from hc]
      have hopened : LeadsBy P l.registry (l.via Registry.markReady).1.registry :=
        l.leadsBy_via _ (fun _ => rfl) hmark
      refine hopened.trans (hP.settle_of_ne _ ?_ _ _)
      rw [hready]
      exact Lifecycle.noConfusion
    | some m => exact hP.fail_connecting l hc m
  · rw [if_pos hc]
    exact hP.settle_of_ne l hc _ _

theorem onResponse (a : Response)
    (hopen : l.lifecycle = .connecting → a = ⟨RequestId.handshake, .ok⟩ →
      P l.registry .markReady) :
    LeadsBy P l.registry (l.onResponse a).registry := by
  obtain ⟨id, b⟩ := a
  unfold Link.onResponse
  split_ifs with hhandshake
  · have hid : id = RequestId.handshake := (RequestId.isHandshake_iff id).mp hhandshake
    refine hP.onHandshake l b ?_
    intro hc hb
    exact hopen hc (by rw [hid, hb])
  · have hid : id ≠ RequestId.handshake := fun h =>
      hhandshake ((RequestId.isHandshake_iff id).mpr h)
    have hsettle : LeadsBy P l.registry (l.via (·.settle id b.outcome)).1.registry :=
      l.leadsBy_via _ (fun _ => rfl) (hP.settle _ id _ fun _ => hid)
    cases b with
    | closingError m => exact hsettle.trans (hP.onTransportError _ _)
    | ok => exact hsettle
    | nil => exact hsettle
    | value v => exact hsettle
    | requestError k m => exact hsettle

theorem onFrame (f : Frame) (hopen : l.Opens f → P l.registry .markReady) :
    LeadsBy P l.registry (l.onFrame f).registry := by
  unfold Link.onFrame
  cases hf : l.codec.deserialize f with
  | ok a =>
    refine hP.onResponse l a ?_
    rintro hc rfl
    exact hopen ⟨hc, hf⟩
  | error e => exact hP.onTransportError l e

theorem connect (s : Setup) (hgreet : P l.registry .greet) :
    LeadsBy P l.registry (l.connect s).1.registry := by
  have hgreeted : LeadsBy P l.registry (l.via Registry.greet).1.registry :=
    l.leadsBy_via _ (fun _ => rfl) hgreet
  have hconnecting : ∀ h, (l.via Registry.greet).2 = .ok h →
      (l.via Registry.greet).1.lifecycle = .connecting := fun _ => Registry.lifecycle_greet
  rcases l.connect_results s with ⟨f, hsame⟩ | ⟨h, hh, ⟨m, hfails⟩ | hbreaks | ⟨g, -, hqueued⟩⟩
  · rw [hsame]
    exact .refl
  · rw [hfails]
    exact hgreeted.trans (hP.fail_connecting _ (hconnecting h hh) m)
  · rw [hbreaks]
    exact hgreeted.trans (hP.onTransportError _ _)
  · rw [hqueued]
    exact hgreeted

theorem transmit (h : Handle) (p : Payload) (hready : l.lifecycle = .ready) :
    LeadsBy P l.registry (l.transmit h p).1.registry := by
  have hc : l.lifecycle ≠ .connecting := by
    rw [hready]
    exact nofun
  unfold Link.transmit
  cases l.codec.serialize h.id p with
  | error f => exact hP.settle_of_ne l hc _ _
  | ok frame =>
    have hsend := l.registry_send frame
    dsimp only
    generalize l.send frame = a at hsend ⊢
    obtain ⟨l', answer⟩ := a
    dsimp only at hsend ⊢
    cases answer with
    | ok u =>
      dsimp only
      rw [hsend]
      exact .refl
    | error f =>
      rw [← hsend]
      refine hP.settle_of_ne l' ?_ _ _
      rw [lifecycle, hsend]
      exact hc

/-! The loop -/

theorem endLoop : LeadsBy P l.registry l.endLoop.registry := hP.onTransportError l loopGone

theorem endLoop_of_error (f : Failure) :
    LeadsBy P l.registry (l.onTransportError f).endLoop.registry :=
  (hP.onTransportError l f).trans (hP.endLoop _)

theorem writeBytes (b : ByteArray) : LeadsBy P l.registry (l.writeBytes b).registry := by
  unfold Link.writeBytes
  split
  · exact .refl
  · exact hP.endLoop_of_error l _

theorem takeUp : LeadsBy P l.registry l.takeUp.registry := by
  unfold Link.takeUp
  cases l.outbox with
  | nil => exact .refl
  | cons f rest =>
    dsimp only
    cases Frame.toBytes f with
    | ok b => exact hP.writeBytes { l with outbox := rest } b
    | error e => exact hP.endLoop_of_error { l with outbox := rest } _

theorem receive
    (hopen : ∀ f, l.inboundItem.1 = .frame f → l.Opens f → P l.registry .markReady) :
    LeadsBy P l.registry l.receive.registry := by
  unfold Link.receive
  generalize l.inboundItem = a at hopen
  obtain ⟨item, d⟩ := a
  dsimp only
  cases item with
  | frame f =>
    exact hP.onFrame { l with deframer := d, stream.inbound := .empty } f (hopen f rfl)
  | fault f => exact hP.endLoop_of_error { l with deframer := d, stream.inbound := .empty } _
  | finished => exact hP.endLoop_of_error { l with deframer := d, stream.inbound := .empty } _
  | starved => exact .refl

theorem handle (e : Event)
    (hopen : e = .receive → ∀ f, l.inboundItem.1 = .frame f → l.Opens f →
      P l.registry .markReady) :
    LeadsBy P l.registry (l.handle e).registry := by
  cases e with
  | receive => exact hP.receive l (hopen rfl)
  | send => exact hP.takeUp l
  | continueWriting =>
    unfold Link.handle
    cases l.loop with
    | writing rest => exact hP.writeBytes l rest
    | running => exact .refl
    | ended => exact .refl
  | stop => exact hP.endLoop l
  | release => exact hP.endLoop l

/-! Calls -/

theorem proceed (now : Instant) (e : Errand) (a : Link × Registration)
    (hready : ∀ h, a.2 = .granted h → a.1.lifecycle = .ready) :
    LeadsBy P a.1.registry (proceed now e a).1.registry := by
  rcases link_proceed_cases now e a with hsame | ⟨h, p, hgranted, hsent⟩
  · rw [hsame]
    exact .refl
  · rw [hsent]
    exact hP.transmit a.1 h p (hready h hgranted)

theorem proceed_via (now : Instant) (e : Errand) (f : Registry → Registry × Registration)
    (op : Registry.Op) (hop : op.isAtGate = true)
    (hf : ∀ r, r.act op = ((f r).1, (f r).2.handle?)) :
    LeadsBy P l.registry (Link.proceed now e (l.via f)).1.registry := by
  have hafter : ∀ r, (f r).1 = r.after op := fun r => (congrArg Prod.fst (hf r)).symm
  refine (l.leadsBy_via f hafter (hP.atGate _ _ hop)).trans (hP.proceed now e _ ?_)
  intro h hgranted
  have hc := Registry.change_of_act l.registry op
  have hgrant : l.registry.grants op = some h := by
    have hhandle : (f l.registry).2.handle? = some h := by
      rw [show (f l.registry).2 = .granted h from hgranted]
      rfl
    rw [Registry.grants, hf]
    exact hhandle
  rw [hgrant] at hc
  rw [lifecycle, registry_via, hafter]
  exact hc.ready_of_granted hop

theorem start (now : Instant) (e : Errand) :
    LeadsBy P l.registry (l.start now e).1.registry :=
  hP.proceed_via l now e Registry.register .register rfl fun _ => rfl

theorem trySubmit (p : Payload) : LeadsBy P l.registry (l.trySubmit p).1.registry := by
  have hregister : LeadsBy P l.registry (l.via Registry.tryRegister).1.registry :=
    l.leadsBy_via _ (fun _ => rfl) (hP.atGate _ .tryRegister rfl)
  rcases l.link_trySubmit_cases p with hsame | ⟨h, hgranted, hsent⟩
  · rw [hsame]
    exact hregister
  · have hc := Registry.change_of_tryRegister l.registry
    rw [hgranted] at hc
    rw [hsent]
    exact hregister.trans (hP.transmit _ h p (hc.ready_of_granted rfl))

theorem awaitGreeting (now : Instant) (h : Handle) (limit : Duration) (deadline : Instant) :
    LeadsBy P l.registry (l.awaitGreeting now h limit deadline).1.registry := by
  unfold Link.awaitGreeting
  split
  · exact .refl
  · exact .refl
  · split
    · exact hP.onTransportError l _
    · exact .refl

theorem establish (now : Instant) (s : Setup) (limit : Duration) (deadline : Instant)
    (hgreet : P l.registry .greet) :
    LeadsBy P l.registry (l.establish now s limit deadline).1.registry := by
  have hconnect := hP.connect l s hgreet
  unfold Link.establish
  generalize l.connect s = a at hconnect ⊢
  obtain ⟨l', answer⟩ := a
  cases answer with
  | error f => exact hconnect
  | ok h => exact hconnect.trans (hP.awaitGreeting l' now h limit deadline)

theorem poll (now : Instant) (c : Call) (hc : c.Allows P l.registry) :
    LeadsBy P l.registry (c.poll now l).1.registry := by
  cases c with
  | inLine w e => exact hP.proceed_via l now e (·.resume w) (.resume w) rfl fun _ => rfl
  | closing deadline? =>
    rw [Call.poll]
    split
    · exact l.leadsBy_via (·.failAll _) (fun _ => rfl) hc
    · exact .refl
  | dialling s limit deadline => exact hP.establish l now s limit deadline hc
  | greeted h limit deadline => exact hP.awaitGreeting l now h limit deadline
  | drained | closed | settled | settledBy | answered | linking => exact .refl

theorem drop (c : Call) : LeadsBy P l.registry (c.drop l).registry := by
  cases c with
  | inLine w e => exact LeadsBy.after (hP.atGate _ (.abandon w) rfl)
  | _ => exact .refl

theorem close (now : Instant) : LeadsBy P l.registry (l.close now).1.registry := by
  have hbegin : LeadsBy P l.registry (l.via Registry.beginClosing).1.registry :=
    l.leadsBy_via _ (fun _ => rfl) (hP.beginClosing _)
  rcases l.close_cases now with ⟨p, hwaits⟩ | hends
  · rw [hwaits]
    exact hbegin
  · have hfinish := hP.finish _ "connection closed by client"
      l.registry.isShuttingDown_beginClosing
    rw [hends]
    exact hbegin.trans (leadsBy_via _ (·.failAll _) (fun _ => rfl) hfinish)

end Routine

theorem routine_true : Routine fun _ _ => True :=
  ⟨fun _ _ _ => trivial, fun _ _ _ _ => trivial, fun _ => trivial, fun _ _ _ => trivial,
    fun _ _ _ => trivial⟩

theorem leadsTo_onTransportError (l : Link) (f : Failure) :
    l.registry.LeadsTo (l.onTransportError f).registry :=
  (routine_true.onTransportError l f).leadsTo

theorem leadsTo_onFrame (l : Link) (f : Frame) : l.registry.LeadsTo (l.onFrame f).registry :=
  (routine_true.onFrame l f fun _ => trivial).leadsTo

theorem leadsTo_establish (l : Link) (now : Instant) (s : Setup) (limit : Duration)
    (deadline : Instant) :
    l.registry.LeadsTo (l.establish now s limit deadline).1.registry :=
  (routine_true.establish l now s limit deadline trivial).leadsTo

end Link

namespace Scene

open Registry (LeadsTo LeadsBy)

/-- The frame that an action hands to the link. -/
def delivered? (s : Scene) : Action → Option Frame
  | .frame f => some f
  | .loop .receive =>
    match s.link.inboundItem.1 with
    | .frame f => if .receive ∈ s.link.ready s.isHeld then some f else none
    | _ => none
  | _ => none

/-- `P` allows whatever is not routine in an action. -/
structure Allows (P : Registry → Registry.Op → Prop) (s : Scene) (a : Action) : Prop where
  registry : ∀ op, a = .registry op → P s.link.registry op
  connect : ∀ c, a = .connect c → P s.link.registry .greet
  poll : ∀ i c, a = .poll i → s.calls[i]? = some c → c.Allows P s.link.registry
  opens : ∀ f, s.delivered? a = some f → s.link.Opens f → P s.link.registry .markReady

theorem link_join (s : Scene) (a : Link × Progress) : (s.join a).link = a.1 := by
  obtain ⟨l, p⟩ := a
  cases p <;> rfl

theorem link_rejoin (s : Scene) (i : Nat) (a : Link × Progress) :
    (s.rejoin i a).link = a.1 := by
  obtain ⟨l, p⟩ := a
  cases p <;> rfl

/-- Whatever an action does to the registry, operations of the registry do. -/
theorem leadsBy_perform {P : Registry → Registry.Op → Prop} (hP : Link.Routine P) (s : Scene)
    (a : Action) (ha : s.Allows P a) :
    LeadsBy P s.link.registry (s.perform a).link.registry := by
  cases a with
  | registry op => exact s.link.leadsBy_via _ (fun _ => rfl) (ha.registry op rfl)
  | start e =>
    rw [perform, link_join]
    exact hP.start s.link s.now e
  | trySubmit p => exact hP.trySubmit s.link p
  | connect c => exact hP.connect s.link c (ha.connect c rfl)
  | send f =>
    rw [perform, s.link.registry_send]
    exact .refl
  | frame f => exact hP.onFrame s.link f (ha.opens f rfl)
  | fault f => exact hP.onTransportError s.link f
  | close =>
    rw [perform, link_join]
    exact hP.close s.link s.now
  | closed | drained | settled | waitFor =>
    rw [perform, link_join]
    exact .refl
  | poll i =>
    rw [perform]
    cases hc : s.calls[i]? with
    | none => exact .refl
    | some c =>
      dsimp only
      rw [link_rejoin]
      exact hP.poll s.link s.now c (ha.poll i c rfl hc)
  | drop i =>
    rw [perform]
    cases s.calls[i]? with
    | none => exact .refl
    | some c => exact hP.drop s.link c
  | loop e =>
    rw [perform]
    split_ifs with he
    · refine hP.handle s.link e ?_
      rintro rfl f hf
      exact ha.opens f (by simp [delivered?, hf, he])
    · exact .refl
  | advance | clone | release | peerWrite | peerRead | peerClose => exact .refl

theorem leadsTo_perform (s : Scene) (a : Action) :
    s.link.registry.LeadsTo (s.perform a).link.registry := by
  refine (leadsBy_perform Link.routine_true s a ?_).leadsTo
  refine ⟨fun _ _ => trivial, fun _ _ => trivial, ?_, fun _ _ _ => trivial⟩
  intro i c _ _
  cases c <;> trivial

theorem leadsTo_run (s : Scene) (acts : List Action) :
    s.link.registry.LeadsTo (s.run acts).link.registry :=
  List.foldlRecOn (motive := fun t => s.link.registry.LeadsTo t.link.registry) acts perform
    (.refl _) fun t ht a _ => ht.trans (t.leadsTo_perform a)

end Scene

end Switchboard
