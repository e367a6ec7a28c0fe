import Switchboard.Proofs.Exchange
import Switchboard.Proofs.LinkFailure

/-!
What the loop of a link does at a time. `Turn` is the list: it moves bytes of frames from
the queue towards the peer, it deals with a frame of the peer, it finds that the next frame
has not all arrived, or it comes to its end and the link is closed. Then what an answer to a
pending request does.
-/
namespace Switchboard

namespace Link

open Registry (Sound)

/-- What an event of the loop can do. The frames of `taken` leave the queue. -/
inductive Turn (l : Link) : Event → Link → Prop
  | closes {e : Event} {l' : Link} : l'.lifecycle = .closed → Turn l e l'
  | writes {e : Event} {taken rest : List Frame} {s : Stream} {loop : Loop} :
      l.outbox = taken ++ rest → (∀ f ∈ taken, f.size ≤ Frame.maxSize) →
      s.outbound ++ loop.rest = (l.stream.outbound ++ l.loop.rest) ++ wire taken →
      s.inbound = l.stream.inbound → s.peerOpen = l.stream.peerOpen →
      Turn l e { l with outbox := rest, stream := s, loop := loop }
  | receives {f : Frame} {d : Deframer} :
      l.loop = .running → l.inboundItem = (.frame f, d) →
      Turn l .receive (onFrame { l with deframer := d, stream.inbound := .empty } f)
  | starves {d : Deframer} :
      l.inboundItem = (.starved, d) →
      Turn l .receive { l with deframer := d, stream.inbound := .empty }

theorem loop_of_ready {l : Link} {held : Bool} {e : Event} (he : e ∈ l.ready held) :
    (e = .continueWriting ∧ ∃ rest, l.loop = .writing rest) ∨
      (e ≠ .continueWriting ∧ l.loop = .running) := by
  unfold ready at he
  cases hloop : l.loop with
  | ended => simp [hloop] at he
  | writing rest =>
    left
    simp only [hloop] at he
    split at he
    · exact ⟨List.mem_singleton.mp he, rest, rfl⟩
    · exact absurd he List.not_mem_nil
  | running =>
    right
    simp only [hloop, List.mem_append] at he
    refine ⟨?_, rfl⟩
    rintro rfl
    rcases he with ((hreceive | hsend) | hstop) | hrelease
    · split at hreceive <;> simp at hreceive
    · split at hsend <;> simp at hsend
    · split at hstop <;> simp at hstop
    · split at hrelease <;> simp at hrelease

theorem going_of_ready {l : Link} {held : Bool} {e : Event} (he : e ∈ l.ready held) :
    l.loop.isEnded = false := by
  rcases loop_of_ready he with ⟨-, rest, hloop⟩ | ⟨-, hloop⟩
  · rw [hloop]
    rfl
  · rw [hloop]
    rfl

theorem Turn.refl (l : Link) (e : Event) : Turn l e l := by
  have hout : l.outbox = [] ++ l.outbox := rfl
  have hbytes : l.stream.outbound ++ l.loop.rest =
      (l.stream.outbound ++ l.loop.rest) ++ wire [] := by simp
  exact Turn.writes hout (by simp) hbytes rfl rfl

theorem rest_of_leftover (b : ByteArray) :
    (if b.isEmpty then Loop.running else Loop.writing b).rest = b := by
  split_ifs with hempty
  · exact (eq_empty_of_isEmpty hempty).symm
  · rfl

theorem lifecycle_endLoop_of_error (l : Link) (f : Failure) :
    (l.onTransportError f).endLoop.lifecycle = .closed :=
  lifecycle_endLoop _

/-- Bytes are written as far as the stream takes them, and the loop keeps the others. -/
theorem writeBytes_cases (l : Link) (b : ByteArray) :
    (l.writeBytes b).lifecycle = .closed ∨
      ∃ (s : Stream) (loop : Loop), l.writeBytes b = { l with stream := s, loop := loop } ∧
        s.outbound ++ loop.rest = l.stream.outbound ++ b ∧ s.inbound = l.stream.inbound ∧
        s.peerOpen = l.stream.peerOpen := by
  unfold writeBytes
  by_cases hpeer : l.stream.peerOpen = true
  · right
    rw [if_pos hpeer]
    refine ⟨_, _, rfl, ?_, rfl, rfl⟩
    rw [← l.stream.outbound_write b]
    exact congrArg _ (rest_of_leftover _)
  · left
    rw [if_neg hpeer]
    exact l.lifecycle_endLoop_of_error _

theorem turn_of_takeUp {l : Link} (hloop : l.loop = .running) : Turn l .send l.takeUp := by
  unfold takeUp
  cases hout : l.outbox with
  | nil => exact Turn.refl l _
  | cons f rest =>
    dsimp only
    cases hbytes : Frame.toBytes f with
    | error e => exact Turn.closes (lifecycle_endLoop_of_error _ _)
    | ok b =>
      obtain ⟨hb, hsize⟩ := Frame.toBytes_eq_packet hbytes
      rcases writeBytes_cases { l with outbox := rest } b with
        hclosed | ⟨s, loop, heq, hbytes, hin, hpeer⟩
      · exact Turn.closes hclosed
      · have hqueue : l.outbox = [f] ++ rest := hout
        dsimp only
        rw [heq]
        refine Turn.writes hqueue (by simpa using hsize) ?_ hin hpeer
        rw [hbytes, hb, hloop, wire_singleton]
        simp [Loop.rest]

theorem turn_of_receive {l : Link} (hloop : l.loop = .running) :
    Turn l .receive l.receive := by
  unfold receive
  cases hitem : l.inboundItem with
  | mk item d =>
    dsimp only
    cases item with
    | frame f => exact Turn.receives hloop hitem
    | fault f => exact Turn.closes (lifecycle_endLoop_of_error _ _)
    | finished => exact Turn.closes (lifecycle_endLoop_of_error _ _)
    | starved => exact Turn.starves hitem

/-- What the loop does when it is ready for it is one of the turns. -/
theorem turn_of_handle {l : Link} {held : Bool} {e : Event} (he : e ∈ l.ready held) :
    Turn l e (l.handle e) := by
  rcases loop_of_ready he with ⟨rfl, rest, hloop⟩ | ⟨hne, hloop⟩
  · simp only [handle, hloop]
    rcases l.writeBytes_cases rest with hclosed | ⟨s, loop, heq, hbytes, hin, hpeer⟩
    · exact Turn.closes hclosed
    · rw [heq]
      refine Turn.writes (List.nil_append l.outbox).symm (by simp) ?_ hin hpeer
      rw [hbytes, hloop, wire_nil, ByteArray.append_empty]
      rfl
  · cases e with
    | receive => exact turn_of_receive hloop
    | send => exact turn_of_takeUp hloop
    | continueWriting => exact absurd rfl hne
    | stop => exact Turn.closes l.lifecycle_endLoop
    | release => exact Turn.closes l.lifecycle_endLoop

/-! Answers -/

theorem settle_via {l : Link} (hl : Sound l.registry) {h : Handle}
    (hh : h ∈ l.registry.pending) (o : Outcome) :
    (l.via (·.settle h.id o)).1 = { l with registry := l.registry.strike h o } := by
  simp only [via]
  rw [Registry.settle_of_mem hl hh]

/-- An answer to a pending request takes it off the table and does nothing else, unless it
closes the link. -/
theorem onResponse_cases {l : Link} (hl : Sound l.registry) {h : Handle}
    (hh : h ∈ l.registry.pending) (b : Body) :
    (l.onResponse ⟨h.id, b⟩).lifecycle = .closed ∨
      ∃ r, l.onResponse ⟨h.id, b⟩ = { l with registry := r } ∧
        r.pending = l.registry.pending.erase h ∧ r.unmatched = l.registry.unmatched := by
  by_cases hid : h.id = RequestId.handshake
  · rw [hid, onResponse_handshake, onHandshake]
    by_cases hc : l.lifecycle = .connecting
    · rw [if_neg (not_not_intro hc)]
      cases handshakeComplaint b with
      | some m => exact Or.inl (lifecycle_fail _ _)
      | none =>
        right
        have hready : l.via Registry.markReady =
            ({ l with registry := l.registry.moveTo .ready }, true) := by
          simp [via, Registry.markReady, show l.registry.lifecycle = .connecting from hc]
        have hsound : Sound (l.registry.moveTo .ready) := hl.of_eq rfl rfl rfl rfl rfl rfl
        dsimp only
        rw [hready, ← hid]
        exact ⟨_, settle_via (l := { l with registry := l.registry.moveTo .ready }) hsound hh _,
          rfl, rfl⟩
    · rw [if_pos hc, ← hid]
      exact Or.inr ⟨_, settle_via hl hh _, rfl, rfl⟩
  · rcases l.onResponse_of_ordinary hid b with ⟨m, -, heq⟩ | ⟨-, heq⟩
    · rw [heq]
      exact Or.inl (lifecycle_onTransportError _ _)
    · rw [heq]
      exact Or.inr ⟨_, settle_via hl hh _, rfl, rfl⟩

/-- An ordinary request has the body of its answer for its outcome. -/
theorem outcome?_onResponse {l : Link} (hl : Sound l.registry) {h : Handle}
    (hh : h ∈ l.registry.pending) (hid : h.id ≠ RequestId.handshake) (b : Body) :
    (l.onResponse ⟨h.id, b⟩).outcome? h = some b.outcome := by
  have hsettled : (l.via (·.settle h.id b.outcome)).1.outcome? h = some b.outcome := by
    rw [settle_via hl hh, outcome?, Registry.ledger_strike]
    exact Ledger.outcome?_settle (hl.isOpen hh) _
  rcases l.onResponse_of_ordinary hid b with ⟨m, -, heq⟩ | ⟨-, heq⟩
  · rw [heq]
    exact (leadsTo_onTransportError _ _).outcome? hsettled
  · rw [heq]
    exact hsettled

theorem outcome?_onFrame {l : Link} (hl : Sound l.registry) {h : Handle}
    (hh : h ∈ l.registry.pending) (hid : h.id ≠ RequestId.handshake) {f : Frame} {b : Body}
    (hf : l.codec.deserialize f = .ok ⟨h.id, b⟩) : (l.onFrame f).outcome? h = some b.outcome := by
  simp only [onFrame, hf]
  exact outcome?_onResponse hl hh hid b

end Link

end Switchboard
