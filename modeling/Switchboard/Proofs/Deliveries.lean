import Switchboard.Proofs.LoopAgreement
import Switchboard.Proofs.LoopTurns
import Switchboard.Proofs.QueuedFrames

/-!
What becomes of the frames in the queue of a link. The loop takes them up in their order and
writes them to the stream, as much at a time as the stream takes, and the peer reads them
from there. While the link is not closed and the peer keeps its end open, nothing is lost on
the way: `Delivers` accounts for every byte. Loop and peer between them come to an end with
it, since each turn of theirs makes the burden of the link smaller.
-/
namespace Switchboard

namespace Stream

/-- The stream has the room it had, and the peer has its end as it had. -/
structure Alike (s s' : Stream) : Prop where
  capacity : s'.capacity = s.capacity
  peerOpen : s'.peerOpen = s.peerOpen

theorem Alike.refl (s : Stream) : s.Alike s := ⟨rfl, rfl⟩

theorem Alike.trans {s s' s'' : Stream} (h : s.Alike s') (h' : s'.Alike s'') : s.Alike s'' :=
  ⟨h'.capacity.trans h.capacity, h'.peerOpen.trans h.peerOpen⟩

theorem alike_peerWrite (s : Stream) (b : ByteArray) : s.Alike (s.peerWrite b).1 := by
  unfold peerWrite
  split <;> exact ⟨rfl, rfl⟩

end Stream

namespace Link

/-- Some of the frames that have been put into the queue have been taken up. The peer has
read a part of their bytes; the others are in the stream, or the loop has them in hand. -/
structure Delivers (l : Link) (queued : List Frame) (read : ByteArray) : Prop where
  going : l.loop.isEnded = false
  unasked : l.shutdown = false
  accounts : ∃ sent, queued = sent ++ l.outbox ∧ (∀ f ∈ sent, f.size ≤ Frame.maxSize) ∧
    read ++ (l.stream.outbound ++ l.loop.rest) = wire sent

/-! The loop leaves the end of the peer as it is -/

theorem alike_endLoop (l : Link) : l.stream.Alike l.endLoop.stream := by
  have hstream : l.endLoop.stream = (l.onTransportError loopGone).stream.closeLink := rfl
  rw [hstream, (l.spares_onTransportError loopGone).stream]
  exact ⟨rfl, rfl⟩

theorem alike_endLoop_of_error (l : Link) (f : Failure) :
    l.stream.Alike (l.onTransportError f).endLoop.stream := by
  have hend := (l.onTransportError f).alike_endLoop
  rwa [(l.spares_onTransportError f).stream] at hend

theorem alike_writeBytes (l : Link) (b : ByteArray) :
    l.stream.Alike (l.writeBytes b).stream := by
  unfold writeBytes
  split
  · exact ⟨rfl, rfl⟩
  · exact l.alike_endLoop_of_error _

theorem alike_handle (l : Link) (e : Event) : l.stream.Alike (l.handle e).stream := by
  cases e with
  | receive =>
    rw [handle, receive]
    generalize l.inboundItem = a
    obtain ⟨item, d⟩ := a
    have hread : l.stream.Alike { l.stream with inbound := .empty } := ⟨rfl, rfl⟩
    have hbroken := alike_endLoop_of_error { l with deframer := d, stream.inbound := .empty }
    cases item with
    | frame f =>
      dsimp only
      rw [(spares_onFrame _ f).stream]
      exact hread
    | fault f => exact hread.trans (hbroken _)
    | finished => exact hread.trans (hbroken _)
    | starved => exact hread
  | send =>
    rw [handle, takeUp]
    cases l.outbox with
    | nil => exact .refl _
    | cons f rest =>
      dsimp only
      cases Frame.toBytes f with
      | ok b => exact alike_writeBytes { l with outbox := rest } b
      | error e => exact alike_endLoop_of_error { l with outbox := rest } _
  | continueWriting =>
    rw [handle]
    cases l.loop with
    | writing rest => exact l.alike_writeBytes rest
    | running => exact .refl _
    | ended => exact .refl _
  | stop => exact l.alike_endLoop
  | release => exact l.alike_endLoop

namespace Delivers

variable {l l' : Link} {queued : List Frame} {read : ByteArray}

theorem start (hloop : l.loop = .running) (hshutdown : l.shutdown = false)
    (hqueue : l.outbox = []) (hstream : l.stream.outbound = .empty) :
    l.Delivers [] .empty where
  going := by rw [hloop]; rfl
  unasked := hshutdown
  accounts := ⟨[], hqueue.symm, nofun, by rw [hstream, hloop]; rfl⟩

/-- Callers and frames of the peer put frames into the queue at most. -/
theorem of_spares (h : l.Delivers queued read) (hspares : l.Spares l') {more : List Frame}
    (hqueue : l'.outbox = l.outbox ++ more) (hopen : l'.lifecycle ≠ .closed) :
    l'.Delivers (queued ++ more) read where
  going := hspares.loop ▸ h.going
  unasked := by
    rw [← Bool.not_eq_true]
    intro hshut
    rcases hspares.asked hshut with hbefore | hclosed
    · exact Bool.noConfusion (h.unasked.symm.trans hbefore)
    · exact hopen hclosed
  accounts := by
    obtain ⟨sent, hqueued, hsizes, hbytes⟩ := h.accounts
    refine ⟨sent, ?_, hsizes, ?_⟩
    · rw [hqueued, hqueue, List.append_assoc]
    · rw [hspares.stream, hspares.loop]
      exact hbytes

/-- The loop moves bytes on and loses none, unless the link is closed. -/
theorem handle (h : l.Delivers queued read) (hopen : l.lifecycle ≠ .closed) {held : Bool}
    {e : Event} (he : e ∈ l.ready held) (hstill : (l.handle e).lifecycle ≠ .closed) :
    (l.handle e).Delivers queued read := by
  have hagrees : l.Agrees :=
    ⟨fun hclosed => absurd hclosed hopen,
      fun hended => Bool.noConfusion (h.going.symm.trans hended)⟩
  have hgoing : (l.handle e).loop.isEnded = false := by
    rw [← Bool.not_eq_true]
    exact fun hended => hstill ((hagrees.handle e).ends hended).1
  have hturn := turn_of_handle he
  generalize l.handle e = l' at hturn hgoing hstill
  obtain ⟨sent, hqueued, hsizes, hbytes⟩ := h.accounts
  cases hturn with
  | closes hclosed => exact absurd hclosed hstill
  | @writes _ taken rest s loop hout hfit hmoved _ _ =>
    refine ⟨hgoing, h.unasked, sent ++ taken, ?_, ?_, ?_⟩
    · rw [hqueued, hout, List.append_assoc]
    · exact fun f hf => (List.mem_append.mp hf).elim (hsizes f) (hfit f)
    · rw [wire_append, ← hbytes, ByteArray.append_assoc, hmoved]
  | @receives f d hloop hitem =>
    have hread : Delivers { l with deframer := d, stream.inbound := .empty } queued read :=
      ⟨h.going, h.unasked, sent, hqueued, hsizes, hbytes⟩
    have hqueue := outbox_onFrame { l with deframer := d, stream.inbound := .empty } f
    rw [← List.append_nil queued]
    exact hread.of_spares (spares_onFrame _ f) (hqueue.trans (List.append_nil _).symm) hstill
  | starves hitem => exact ⟨hgoing, h.unasked, sent, hqueued, hsizes, hbytes⟩

/-- When nothing is under way any more, the peer finds every frame of the queue. -/
theorem decoded (h : l.Delivers queued read) (hqueue : l.outbox = [])
    (hstream : l.stream.outbound = .empty) (hrest : l.loop.rest = .empty) :
    (∀ f ∈ queued, f.size ≤ Frame.maxSize) ∧ (({} : Deframer).feed read).decoded = queued := by
  obtain ⟨sent, hqueued, hsizes, hbytes⟩ := h.accounts
  obtain rfl : queued = sent := by rw [hqueued, hqueue, List.append_nil]
  have hread : read = wire queued := by
    rw [← hbytes, hstream, hrest, ByteArray.append_empty, ByteArray.append_empty]
  have hcarries := Deframer.Carries.start.writes hsizes
  rw [← hread, List.nil_append, ByteArray.empty_append] at hcarries
  exact ⟨hsizes, hcarries.decoded_feed⟩

end Delivers

end Link

/-! How much there is to do -/

/-- What the loop has to do before it can take up another frame. -/
def Loop.burden : Loop → Nat
  | .writing rest => 2 * rest.size + 1
  | _ => 0

namespace Link

/-- A byte is written and then read; a frame is taken up besides, and may be left in hand. -/
def burden (l : Link) : Nat :=
  2 * (wire l.outbox).size + 2 * l.outbox.length + l.loop.burden + l.stream.outbound.size

variable {l : Link}

theorem burden_endLoop_of_error (l : Link) (f : Failure) :
    (l.onTransportError f).endLoop.burden = l.stream.outbound.size := by
  have hstream : ((l.onTransportError f).onTransportError loopGone).stream = l.stream := by
    rw [(spares_onTransportError _ _).stream, (l.spares_onTransportError f).stream]
  simp [burden, endLoop, Loop.burden, Stream.closeLink, hstream]

theorem burden_writeBytes (l : Link) (b : ByteArray) :
    (l.writeBytes b).burden ≤
        2 * (wire l.outbox).size + 2 * l.outbox.length + (2 * b.size + 1) +
          l.stream.outbound.size ∧
      (l.stream.writable b = true → (l.writeBytes b).burden <
        2 * (wire l.outbox).size + 2 * l.outbox.length + (2 * b.size + 1) +
          l.stream.outbound.size) := by
  unfold writeBytes
  cases hpeer : l.stream.peerOpen with
  | false =>
    rw [if_neg Bool.false_ne_true, burden_endLoop_of_error]
    exact ⟨by omega, fun _ => by omega⟩
  | true =>
    have hroom := l.stream.room_le l.stream.outbound.size b.size
    rw [if_pos rfl]
    simp only [Stream.write, burden, Stream.writable, hpeer]
    generalize l.stream.room l.stream.outbound.size b.size = n at hroom
    have hrest : (b.extract n b.size).size = b.size - n := by
      rw [ByteArray.size_extract]
      omega
    have hwritten : (l.stream.outbound ++ b.extract 0 n).size = l.stream.outbound.size + n := by
      rw [ByteArray.size_append, ByteArray.size_extract]
      omega
    rw [hwritten]
    cases hempty : (b.extract n b.size).isEmpty with
    | true =>
      simp only [if_true, Loop.burden]
      exact ⟨by omega, fun _ => by omega⟩
    | false =>
      simp only [Bool.false_eq_true, if_false, Loop.burden, hrest]
      refine ⟨by omega, fun hwritable => ?_⟩
      have hsome : 0 < n := by
        have hne : ¬ b.size - n = 0 := by simpa [ByteArray.isEmpty, hrest] using hempty
        have hnonempty : b.isEmpty = false := by
          simp only [ByteArray.isEmpty, beq_eq_false_iff_ne]
          omega
        simpa [hnonempty] using hwritable
      omega

theorem burden_takeUp_lt (hloop : l.loop = .running) (hqueue : l.outbox ≠ []) :
    l.takeUp.burden < l.burden := by
  unfold takeUp
  cases hout : l.outbox with
  | nil => exact absurd hout hqueue
  | cons f rest =>
    have hburden : l.burden = 2 * (f.packet.size + (wire rest).size) + 2 * (rest.length + 1) +
        l.stream.outbound.size := by
      simp only [burden, hout, hloop, wire, ByteArray.size_append, List.length_cons,
        Loop.burden, Nat.add_zero]
    dsimp only
    cases hbytes : Frame.toBytes f with
    | error e =>
      dsimp only
      rw [burden_endLoop_of_error]
      dsimp only
      omega
    | ok b =>
      have hwrite := (burden_writeBytes { l with outbox := rest } b).1
      rw [(Frame.toBytes_eq_packet hbytes).1] at hwrite ⊢
      dsimp only at hwrite ⊢
      omega

theorem burden_continue_lt {rest : ByteArray} (hloop : l.loop = .writing rest)
    (hwritable : l.stream.writable rest = true) :
    (l.handle .continueWriting).burden < l.burden := by
  simp only [handle, hloop]
  have hwrite := (l.burden_writeBytes rest).2 hwritable
  simp only [burden, hloop, Loop.burden] at hwrite ⊢
  exact hwrite

end Link

namespace Scene

variable {s : Scene}

/-- The bytes that the peer reads. -/
def reads (s : Scene) : Action → ByteArray
  | .peerRead => s.link.stream.outbound
  | _ => .empty

/-- The bytes that the peer reads in a run. -/
def readIn : Scene → List Action → ByteArray
  | _, [] => .empty
  | s, a :: acts => s.reads a ++ readIn (s.perform a) acts

theorem readIn_append (s : Scene) (acts more : List Action) :
    s.readIn (acts ++ more) = s.readIn acts ++ (s.run acts).readIn more := by
  induction acts generalizing s with
  | nil => exact ByteArray.empty_append.symm
  | cons a acts ih => rw [List.cons_append, readIn, readIn, ih, ByteArray.append_assoc, run_cons]

theorem Action.ne_loop {a : Action} (h : a.movesBytes = false) : ∀ e, a ≠ .loop e := by
  rintro e rfl
  cases h

theorem reads_of_movesBytes {a : Action} (h : a.movesBytes = false) : s.reads a = .empty := by
  cases a with
  | peerRead => cases h
  | _ => rfl

theorem queues_of_movesBytes {a : Action} (h : a.movesBytes = true) : s.queues a = [] := by
  cases a with
  | loop e => rfl
  | peerWrite | peerRead | peerClose => exact List.drop_length
  | _ => cases h

theorem alike_perform {a : Action} (hown : a.isOwn = true) (hkeeps : a ≠ .peerClose) :
    s.link.stream.Alike (s.perform a).link.stream := by
  cases hbytes : a.movesBytes with
  | false =>
    rw [(s.spares_perform (Action.failsAll_of_isOwn hown) hbytes).stream]
    exact .refl _
  | true =>
    cases a with
    | loop e =>
      rw [perform]
      split
      · exact s.link.alike_handle e
      · exact .refl _
    | peerWrite b => exact s.link.stream.alike_peerWrite b
    | peerRead => exact ⟨rfl, rfl⟩
    | peerClose => exact absurd rfl hkeeps
    | _ => cases hbytes

theorem ne_peerClose_of_perform {a : Action}
    (h : (s.perform a).link.stream.peerOpen = true) : a ≠ .peerClose := by
  rintro rfl
  exact Bool.false_ne_true h

/-- Whatever happens to a link that is not closed, all that is queued is accounted for. -/
theorem delivers_perform {queued : List Frame} {read : ByteArray} (hquiet : s.Quiet)
    (h : s.link.Delivers queued read) {a : Action} (hown : a.isOwn = true)
    (hopen : (s.perform a).link.lifecycle ≠ .closed)
    (hpeer : (s.perform a).link.stream.peerOpen = true) :
    (s.perform a).link.Delivers (queued ++ s.queues a) (read ++ s.reads a) := by
  have hbefore : s.link.lifecycle ≠ .closed := fun hc => hopen ((s.leadsTo_perform a).closed hc)
  cases hbytes : a.movesBytes with
  | false =>
    rw [reads_of_movesBytes hbytes, ByteArray.append_empty]
    exact h.of_spares (s.spares_perform (Action.failsAll_of_isOwn hown) hbytes)
      (outbox_perform hquiet (a.ne_loop hbytes)) hopen
  | true =>
    rw [queues_of_movesBytes hbytes, List.append_nil]
    obtain ⟨sent, hqueued, hsizes, hmoved⟩ := h.accounts
    cases a with
    | loop e =>
      have hunread : s.reads (.loop e) = .empty := rfl
      rw [hunread, ByteArray.append_empty]
      rw [perform] at hopen ⊢
      by_cases he : e ∈ s.link.ready s.isHeld
      · rw [if_pos he] at hopen ⊢
        exact h.handle hbefore he hopen
      · rw [if_neg he]
        exact h
    | peerWrite b =>
      have hunread : s.reads (.peerWrite b) = .empty := rfl
      rw [hunread, ByteArray.append_empty]
      refine ⟨h.going, h.unasked, sent, hqueued, hsizes, ?_⟩
      change read ++ ((s.link.stream.peerWrite b).1.outbound ++ s.link.loop.rest) = _
      rw [Stream.outbound_peerWrite]
      exact hmoved
    | peerRead =>
      rw [reads]
      refine ⟨h.going, h.unasked, sent, hqueued, hsizes, ?_⟩
      change read ++ s.link.stream.outbound ++ (.empty ++ s.link.loop.rest) = _
      rw [ByteArray.empty_append, ByteArray.append_assoc]
      exact hmoved
    | peerClose => exact absurd rfl (ne_peerClose_of_perform hpeer)
    | _ => cases hbytes

theorem alike_run {acts : List Action} (hown : ∀ a ∈ acts, a.isOwn = true)
    (h : (s.run acts).link.stream.peerOpen = true) :
    s.link.stream.Alike (s.run acts).link.stream := by
  induction acts generalizing s with
  | nil => exact .refl _
  | cons a acts ih =>
    have hrest := ih (fun b hb => hown b (List.mem_cons_of_mem _ hb)) h
    have hnext := ne_peerClose_of_perform (hrest.peerOpen.symm.trans h)
    exact (alike_perform (hown a (List.mem_cons_self ..)) hnext).trans hrest

/-- In every run that leaves the link and the end of the peer open, all that is queued is
accounted for. -/
theorem delivers_run {queued : List Frame} {read : ByteArray} (hquiet : s.Quiet)
    (h : s.link.Delivers queued read) {acts : List Action}
    (hown : ∀ a ∈ acts, a.isOwn = true) (hopen : (s.run acts).link.lifecycle ≠ .closed)
    (hpeer : (s.run acts).link.stream.peerOpen = true) :
    (s.run acts).link.Delivers (queued ++ s.queuedIn acts) (read ++ s.readIn acts) := by
  induction acts generalizing s queued read with
  | nil =>
    rw [queuedIn, readIn, List.append_nil, ByteArray.append_empty]
    exact h
  | cons a acts ih =>
    have hrest : ∀ b ∈ acts, b.isOwn = true := fun b hb => hown b (List.mem_cons_of_mem _ hb)
    have hnext : (s.perform a).link.lifecycle ≠ .closed := fun hc =>
      hopen (((s.perform a).leadsTo_run acts).closed hc)
    have hdelivers := delivers_perform hquiet h (hown a (List.mem_cons_self ..)) hnext
      ((alike_run hrest hpeer).peerOpen.symm.trans hpeer)
    have hrun := ih (hquiet.perform a) hdelivers hrest hopen hpeer
    rwa [List.append_assoc, ByteArray.append_assoc] at hrun

/-! Coming to an end with it -/

/-- The work of the loop and of the peer on what is queued. -/
def Action.isDelivery : Action → Bool
  | .loop .send => true
  | .loop .continueWriting => true
  | .peerRead => true
  | _ => false

theorem Action.eq_of_isDelivery {a : Action} (h : a.isDelivery = true) :
    a = .loop .send ∨ a = .loop .continueWriting ∨ a = .peerRead := by
  cases a with
  | loop e =>
    cases e with
    | send => exact Or.inl rfl
    | continueWriting => exact Or.inr (Or.inl rfl)
    | receive | stop | release => cases h
  | peerRead => exact Or.inr (Or.inr rfl)
  | _ => cases h

/-- The loop has nothing to write, or cannot write, and the peer has nothing to read. -/
structure Flushed (s : Scene) : Prop where
  send : .send ∉ s.link.ready s.isHeld
  continueWriting : .continueWriting ∉ s.link.ready s.isHeld
  read : s.link.stream.outbound.isEmpty = true

/-- Whatever loop and peer can do about the queue makes the burden smaller. -/
theorem burden_perform_lt {e : Link.Event} (he : e = .send ∨ e = .continueWriting)
    (hready : e ∈ s.link.ready s.isHeld) : (s.perform (.loop e)).link.burden < s.link.burden := by
  rw [perform, if_pos hready]
  rcases Link.loop_of_ready hready with ⟨rfl, rest, hloop⟩ | ⟨hne, hloop⟩
  · have hwritable : s.link.stream.writable rest = true := by
      by_contra hnot
      simp [Link.ready, hloop, hnot] at hready
    exact Link.burden_continue_lt hloop hwritable
  · obtain rfl : e = .send := he.resolve_right hne
    have hqueue : s.link.outbox ≠ [] := by
      intro hnil
      simp only [Link.ready, hloop, hnil, List.isEmpty_nil, if_true, List.append_nil,
        List.mem_append] at hready
      rcases hready with (h | h) | h <;> split at h <;> simp at h
    exact Link.burden_takeUp_lt hloop hqueue

theorem burden_peerRead_lt (h : s.link.stream.outbound.isEmpty = false) :
    (s.perform .peerRead).link.burden < s.link.burden := by
  have hsize : s.link.stream.outbound.size ≠ 0 := by simpa [ByteArray.isEmpty] using h
  simp only [perform, Stream.peerRead, Link.burden, ByteArray.size_empty]
  omega

/-- Loop and peer come to an end with the queue. -/
theorem exists_flush (s : Scene) :
    ∃ turns : List Action, (∀ a ∈ turns, a.isDelivery = true) ∧ (s.run turns).Flushed := by
  induction hburden : s.link.burden using Nat.strong_induction_on generalizing s with
  | h n ih =>
    subst hburden
    have hstep : ∀ a : Action, a.isDelivery = true →
        (s.perform a).link.burden < s.link.burden → ∃ turns : List Action,
          (∀ a ∈ turns, a.isDelivery = true) ∧ (s.run turns).Flushed := by
      intro a ha hlt
      obtain ⟨turns, hturns, hflushed⟩ := ih _ hlt (s.perform a) rfl
      exact ⟨a :: turns, List.forall_mem_cons.mpr ⟨ha, hturns⟩, hflushed⟩
    by_cases hsend : .send ∈ s.link.ready s.isHeld
    · exact hstep _ rfl (burden_perform_lt (Or.inl rfl) hsend)
    by_cases hcontinue : .continueWriting ∈ s.link.ready s.isHeld
    · exact hstep _ rfl (burden_perform_lt (Or.inr rfl) hcontinue)
    cases hread : s.link.stream.outbound.isEmpty with
    | false => exact hstep _ rfl (burden_peerRead_lt hread)
    | true => exact ⟨[], nofun, hsend, hcontinue, hread⟩

end Scene

end Switchboard
