import Switchboard.Proofs.AcceptedFrames
import Switchboard.Proofs.Greeting
import Switchboard.Proofs.OversizedFrames

/-!
The order of what a link writes. Whatever happens to a link, its peer reads the frames that
the link has accepted, in their order and each as it was, up to some point. Nothing is
missing when the link is not closed and has come to rest, or when it has been left alone:
a loop that nobody holds any more writes all that is queued before it ends. The prefix is
carried through every run by `Follows`, which does not depend on the lifecycle; a closed
link may still write for a while, and the peer may read when the loop is gone.
-/
namespace Switchboard

theorem Stream.linkOpen_peerWrite (s : Stream) (b : ByteArray) :
    (s.peerWrite b).1.linkOpen = s.linkOpen := by
  unfold peerWrite
  split <;> rfl

namespace Deframer

theorem next_ended_ne (d : Deframer) : (d.next true).1 ≠ .starved := by
  unfold next takeBody
  generalize d.takeHeader = d
  have hlacking :
      (if d.buffer.isEmpty then Inbound.finished else .fault .truncated) ≠ .starved := by
    split
    · exact nofun
    · exact nofun
  cases d.announced with
  | none => exact hlacking
  | some n =>
    dsimp only
    split
    · exact nofun
    · split
      · exact hlacking
      · exact nofun

/-- Whoever reads the beginning of what was written finds the first frames. -/
theorem decoded_prefix {sent : List Frame} {read tail : ByteArray}
    (hsizes : ∀ f ∈ sent, f.size ≤ Frame.maxSize) (hbytes : read ++ tail = wire sent) :
    (({} : Deframer).feed read).decoded <+: sent := by
  have hcarries := Carries.start.writes hsizes
  rw [ByteArray.empty_append, List.nil_append, ← hbytes] at hcarries
  obtain ⟨gs, hgs, -⟩ := hcarries.feed.frames ((({} : Deframer).feed read).buffer.size + 1)
  exact ⟨gs, hgs.symm⟩

end Deframer

namespace Link

variable {l l' : Link}

/-- The loop has come to its end. What it had written stays in the stream. -/
structure Halts (l l' : Link) : Prop where
  ended : l'.loop.isEnded = true
  linkOpen : l'.stream.linkOpen = false
  outbound : l'.stream.outbound = l.stream.outbound

/-- The loop goes on. It has taken frames out of the queue and moved bytes of them into the
stream, unless the peer is gone. -/
structure Conveys (l l' : Link) (taken : List Frame) : Prop where
  going : l'.loop.isEnded = false
  queue : l.outbox = taken ++ l'.outbox
  fits : ∀ f ∈ taken, f.size ≤ Frame.maxSize
  bytes : l'.stream.outbound ++ l'.loop.rest = (l.stream.outbound ++ l.loop.rest) ++ wire taken
  linkOpen : l'.stream.linkOpen = l.stream.linkOpen
  unread : l.stream.peerOpen = false → l'.stream.outbound = l.stream.outbound

theorem Conveys.of_eq (hgoing : l.loop.isEnded = false) (hloop : l'.loop = l.loop)
    (hqueue : l'.outbox = l.outbox) (hout : l'.stream.outbound = l.stream.outbound)
    (hopen : l'.stream.linkOpen = l.stream.linkOpen) : l.Conveys l' [] where
  going := hloop ▸ hgoing
  queue := hqueue.symm
  fits := nofun
  bytes := by rw [hout, hloop, wire_nil, ByteArray.append_empty]
  linkOpen := hopen
  unread _ := hout

theorem halts_endLoop (l : Link) : l.Halts l.endLoop where
  ended := rfl
  linkOpen := rfl
  outbound := by
    have hstream := (l.spares_onTransportError loopGone).stream
    exact congrArg (·.outbound) hstream

theorem halts_endLoop_of_error (l : Link) (f : Failure) :
    l.Halts (l.onTransportError f).endLoop where
  ended := rfl
  linkOpen := rfl
  outbound := by
    rw [(l.onTransportError f).halts_endLoop.outbound, (l.spares_onTransportError f).stream]

theorem writeBytes_of_open (hpeer : l.stream.peerOpen = true) (b : ByteArray) :
    ∃ (s : Stream) (loop : Loop), l.writeBytes b = { l with stream := s, loop := loop } ∧
      loop.isEnded = false ∧ s.outbound ++ loop.rest = l.stream.outbound ++ b ∧
      s.linkOpen = l.stream.linkOpen := by
  unfold writeBytes
  rw [if_pos hpeer]
  refine ⟨_, _, rfl, ?_, ?_, rfl⟩
  · split <;> rfl
  · rw [← l.stream.outbound_write b]
    exact congrArg _ (rest_of_leftover _)

theorem halts_writeBytes (hpeer : l.stream.peerOpen = false) (b : ByteArray) :
    l.Halts (l.writeBytes b) := by
  unfold writeBytes
  rw [hpeer, if_neg Bool.false_ne_true]
  exact l.halts_endLoop_of_error _

theorem takeUp_cases (hloop : l.loop = .running) :
    l.Halts l.takeUp ∨ ∃ taken, l.Conveys l.takeUp taken := by
  have hgoing : l.loop.isEnded = false := by rw [hloop]; rfl
  unfold takeUp
  cases hqueue : l.outbox with
  | nil => exact Or.inr ⟨[], .of_eq hgoing rfl rfl rfl rfl⟩
  | cons f rest =>
    dsimp only
    cases hbytes : Frame.toBytes f with
    | error e =>
      have hend := halts_endLoop_of_error { l with outbox := rest } (.io e.message)
      exact Or.inl ⟨hend.ended, hend.linkOpen, hend.outbound⟩
    | ok b =>
      obtain ⟨rfl, hsize⟩ := Frame.toBytes_eq_packet hbytes
      cases hpeer : l.stream.peerOpen with
      | false =>
        have hend := halts_writeBytes (l := { l with outbox := rest }) hpeer f.packet
        exact Or.inl ⟨hend.ended, hend.linkOpen, hend.outbound⟩
      | true =>
        obtain ⟨s, loop, heq, hstill, hmoved, hopen⟩ :=
          writeBytes_of_open (l := { l with outbox := rest }) hpeer f.packet
        dsimp only
        rw [heq]
        refine Or.inr ⟨[f], hstill, hqueue, ?_, ?_, hopen, ?_⟩
        · intro g hg
          rwa [List.mem_singleton.mp hg]
        · have hrest : l.loop.rest = .empty := by rw [hloop]; rfl
          rw [hrest, ByteArray.append_empty, wire_singleton]
          exact hmoved
        · intro hclosed
          rw [hpeer] at hclosed
          cases hclosed

theorem receive_cases (hloop : l.loop = .running) :
    l.Halts l.receive ∨ l.Conveys l.receive [] := by
  have hgoing : l.loop.isEnded = false := by rw [hloop]; rfl
  unfold receive
  generalize l.inboundItem = a
  obtain ⟨item, d⟩ := a
  have hend := halts_endLoop_of_error { l with deframer := d, stream.inbound := .empty }
  cases item with
  | frame f =>
    have hspares := spares_onFrame { l with deframer := d, stream.inbound := .empty } f
    have hout := congrArg Stream.outbound hspares.stream
    have hopen := congrArg Stream.linkOpen hspares.stream
    exact Or.inr (.of_eq hgoing hspares.loop (outbox_onFrame _ f) hout hopen)
  | fault f => exact Or.inl ⟨(hend _).ended, (hend _).linkOpen, (hend _).outbound⟩
  | finished => exact Or.inl ⟨(hend _).ended, (hend _).linkOpen, (hend _).outbound⟩
  | starved => exact Or.inr (.of_eq hgoing rfl rfl rfl rfl)

/-- Whatever the loop does, it moves frames on in their order, or ends. -/
theorem handle_cases {held : Bool} {e : Event} (he : e ∈ l.ready held) :
    l.Halts (l.handle e) ∨ ∃ taken, l.Conveys (l.handle e) taken := by
  rcases loop_of_ready he with ⟨rfl, rest, hloop⟩ | ⟨hne, hloop⟩
  · simp only [handle, hloop]
    cases hpeer : l.stream.peerOpen with
    | false => exact Or.inl (halts_writeBytes hpeer rest)
    | true =>
      obtain ⟨s, loop, heq, hstill, hmoved, hopen⟩ := writeBytes_of_open hpeer rest
      rw [heq]
      have hnone : ∀ f ∈ ([] : List Frame), f.size ≤ Frame.maxSize :=
        fun _ hf => absurd hf List.not_mem_nil
      refine Or.inr ⟨[], hstill, rfl, hnone, ?_, hopen, ?_⟩
      · rw [hloop, wire_nil, ByteArray.append_empty]
        exact hmoved
      · intro hclosed
        rw [hpeer] at hclosed
        cases hclosed
  · cases e with
    | receive => exact (receive_cases hloop).imp_right fun h => ⟨[], h⟩
    | send => exact takeUp_cases hloop
    | continueWriting => exact absurd rfl hne
    | stop => exact Or.inl l.halts_endLoop
    | release => exact Or.inl l.halts_endLoop

/-- The peer has read a part of the bytes of the first frames that were queued, each of which
fits. Either the others are in the queue and the rest of the bytes is under way, or the loop
or the peer is gone and nothing will be added. -/
inductive Follows (l : Link) (queued : List Frame) (read : ByteArray) : Prop
  | flowing {sent : List Frame} :
      l.loop.isEnded = false → l.stream.peerOpen = true → l.stream.linkOpen = true →
      queued = sent ++ l.outbox → (∀ f ∈ sent, f.size ≤ Frame.maxSize) →
      read ++ (l.stream.outbound ++ l.loop.rest) = wire sent → Follows l queued read
  | stopped {sent : List Frame} {tail : ByteArray} :
      (l.loop.isEnded = true ∨ l.stream.peerOpen = false ∧ l.stream.outbound = .empty) →
      sent <+: queued → (∀ f ∈ sent, f.size ≤ Frame.maxSize) →
      read ++ (l.stream.outbound ++ tail) = wire sent → Follows l queued read

namespace Follows

variable {queued : List Frame} {read : ByteArray}

theorem start (hloop : l.loop = .running) (hqueue : l.outbox = [])
    (hstream : ∃ capacity, l.stream = { capacity := capacity }) : l.Follows [] .empty := by
  obtain ⟨capacity, hstream⟩ := hstream
  have hqueued : ([] : List Frame) = [] ++ l.outbox := hqueue.symm
  refine flowing ?_ ?_ ?_ hqueued nofun ?_
  · rw [hloop]
    rfl
  · rw [hstream]
  · rw [hstream]
  · rw [hstream, hloop]
    rfl

theorem decoded_prefix (h : l.Follows queued read) :
    (({} : Deframer).feed read).decoded <+: queued := by
  cases h with
  | flowing _ _ _ hqueued hsizes hbytes =>
    rw [hqueued]
    exact (Deframer.decoded_prefix hsizes hbytes).trans (List.prefix_append _ _)
  | stopped _ hsent hsizes hbytes => exact (Deframer.decoded_prefix hsizes hbytes).trans hsent

theorem of_spares (h : l.Follows queued read) (hspares : l.Spares l') {more : List Frame}
    (hqueue : l'.outbox = l.outbox ++ more) : l'.Follows (queued ++ more) read := by
  cases h with
  | flowing hgoing hpeer hopen hqueued hsizes hbytes =>
    refine flowing (hspares.loop ▸ hgoing) (hspares.stream ▸ hpeer) (hspares.stream ▸ hopen)
      ?_ hsizes ?_
    · rw [hqueued, hqueue, List.append_assoc]
    · rwa [hspares.stream, hspares.loop]
  | stopped hgone hsent hsizes hbytes =>
    rw [← hspares.loop, ← hspares.stream] at hgone
    rw [← hspares.stream] at hbytes
    exact stopped hgone (hsent.trans (List.prefix_append _ _)) hsizes hbytes

theorem handle (h : l.Follows queued read) {held : Bool} {e : Event} (he : e ∈ l.ready held) :
    (l.handle e).Follows queued read := by
  have hpeer' : (l.handle e).stream.peerOpen = l.stream.peerOpen := (l.alike_handle e).peerOpen
  cases h with
  | @flowing sent hgoing hpeer hopen hqueued hsizes hbytes =>
    rcases handle_cases he with hend | ⟨taken, hgoes⟩
    · rw [← hend.outbound] at hbytes
      refine stopped (Or.inl hend.ended) ?_ hsizes hbytes
      rw [hqueued]
      exact List.prefix_append _ _
    · have hall : queued = (sent ++ taken) ++ (l.handle e).outbox := by
        rw [hqueued, hgoes.queue, List.append_assoc]
      refine flowing hgoes.going (hpeer'.trans hpeer) (hgoes.linkOpen.trans hopen) hall ?_ ?_
      · exact fun f hf => (List.mem_append.mp hf).elim (hsizes f) (hgoes.fits f)
      · rw [wire_append, ← hbytes, ByteArray.append_assoc, hgoes.bytes]
  | stopped hgone hsent hsizes hbytes =>
    obtain ⟨hclosed, hempty⟩ := hgone.resolve_left (Bool.eq_false_iff.mp (going_of_ready he))
    have hout : (l.handle e).stream.outbound = l.stream.outbound := by
      rcases handle_cases he with hend | ⟨taken, hgoes⟩
      · exact hend.outbound
      · exact hgoes.unread hclosed
    rw [← hout] at hbytes
    exact stopped (Or.inr ⟨hpeer'.trans hclosed, hout.trans hempty⟩) hsent hsizes hbytes

end Follows

/-! What breaks a link from the side of the peer -/

/-- Whether a frame breaks a link that is not closed: it cannot be understood, it is an
answer that does not complete the handshake, or announces under an ordinary identifier that
the peer closes. -/
def isFatal (l : Link) (f : Frame) : Bool :=
  match l.codec.deserialize f with
  | .error _ => true
  | .ok a =>
    if a.id.isHandshake then
      decide (l.lifecycle = .connecting) && (handshakeComplaint a.body).isSome
    else
      match a.body with
      | .closingError _ => true
      | _ => false

/-- Whether the next item of the stream breaks the link. -/
def hearsFatal (l : Link) : Bool :=
  match l.inboundItem.1 with
  | .frame f => l.isFatal f
  | .starved => false
  | _ => true

theorem lifecycle_onFrame_ne_closed (hopen : l.lifecycle ≠ .closed) {f : Frame}
    (hf : l.isFatal f = false) : (l.onFrame f).lifecycle ≠ .closed := by
  unfold isFatal at hf
  cases hread : l.codec.deserialize f with
  | error e => simp [hread] at hf
  | ok a =>
    obtain ⟨id, b⟩ := a
    simp only [hread] at hf
    simp only [onFrame, hread]
    by_cases hid : id = RequestId.handshake
    · subst hid
      rw [onResponse_handshake]
      by_cases hc : l.lifecycle = .connecting
      · have hcomplaint : handshakeComplaint b = none := by
          simpa [RequestId.isHandshake, hc] using hf
        rw [onHandshake, if_neg (not_not_intro hc), hcomplaint]
        dsimp only
        have hmoved : l.registry.markReady.1.lifecycle = .ready := by
          have hconnecting : l.registry.lifecycle = .connecting := hc
          simp [Registry.markReady, hconnecting, Registry.moveTo]
        rw [lifecycle, registry_via, Registry.lifecycle_settle, registry_via, hmoved]
        intro hclosed
        cases hclosed
      · have hlate := (onResponse_late hc b).1
        rw [onResponse_handshake] at hlate
        rwa [hlate]
    · have hordinary : id.isHandshake = false := by simp [RequestId.isHandshake, hid]
      rcases l.onResponse_of_ordinary hid b with ⟨m, rfl, -⟩ | ⟨-, heq⟩
      · simp [hordinary] at hf
      · rw [heq, lifecycle, registry_via, Registry.lifecycle_settle]
        exact hopen

theorem lifecycle_receive_ne_closed (hopen : l.lifecycle ≠ .closed)
    (hhears : l.hearsFatal = false) : l.receive.lifecycle ≠ .closed := by
  unfold hearsFatal at hhears
  unfold receive
  generalize l.inboundItem = a at hhears ⊢
  obtain ⟨item, d⟩ := a
  cases item with
  | frame f =>
    exact lifecycle_onFrame_ne_closed
      (l := { l with deframer := d, stream.inbound := .empty }) hopen hhears
  | starved => exact hopen
  | fault f => cases hhears
  | finished => cases hhears

end Link

namespace Call

/-- Whoever has nothing but a handle looks at the link and leaves it as it is. -/
theorem poll_of_unheld {c : Call} (hc : c.holdsLink = false) (now : Instant) (l : Link) :
    (c.poll now l).1 = l ∧ ∀ d, (c.poll now l).2 = .waiting d → d.holdsLink = false := by
  cases c with
  | settled h =>
    refine ⟨rfl, fun d hd => ?_⟩
    simp only [poll] at hd
    split at hd
    · cases hd
    · rw [← Progress.waiting.inj hd]
      rfl
  | settledBy h limit deadline? =>
    refine ⟨rfl, fun d hd => ?_⟩
    rw [Link.waiting_awaitBy hd]
    rfl
  | _ => cases hc

theorem drop_of_unheld {c : Call} (hc : c.holdsLink = false) (l : Link) : c.drop l = l := by
  cases c with
  | inLine w e => cases hc
  | _ => rfl

end Call

namespace Scene

variable {s : Scene} {queued : List Frame} {read : ByteArray}

/-! Every run -/

theorem follows_perform (hquiet : s.Quiet) (h : s.link.Follows queued read) {a : Action}
    (hown : a.isOwn = true) :
    (s.perform a).link.Follows (queued ++ s.queues a) (read ++ s.reads a) := by
  cases hbytes : a.movesBytes with
  | false =>
    rw [reads_of_movesBytes hbytes, ByteArray.append_empty]
    exact h.of_spares (s.spares_perform (Action.failsAll_of_isOwn hown) hbytes)
      (outbox_perform hquiet (a.ne_loop hbytes))
  | true =>
    rw [queues_of_movesBytes hbytes, List.append_nil]
    cases a with
    | loop e =>
      have hunread : s.reads (.loop e) = .empty := rfl
      rw [hunread, ByteArray.append_empty, perform]
      split_ifs with he
      · exact h.handle he
      · exact h
    | peerWrite b =>
      have hunread : s.reads (.peerWrite b) = .empty := rfl
      have hout := s.link.stream.outbound_peerWrite b
      have hpeer := s.link.stream.peerOpen_peerWrite b
      rw [hunread, ByteArray.append_empty]
      cases h with
      | flowing hgoing hpeerOpen hopen hqueued hsizes hmoved =>
        have hstill := (s.link.stream.linkOpen_peerWrite b).trans hopen
        rw [← hout] at hmoved
        exact .flowing hgoing (hpeer.trans hpeerOpen) hstill hqueued hsizes hmoved
      | stopped hgone hsent hsizes hmoved =>
        rw [← hout, ← hpeer] at hgone
        rw [← hout] at hmoved
        exact .stopped hgone hsent hsizes hmoved
    | peerRead =>
      rw [reads]
      cases h with
      | flowing hgoing hpeer hopen hqueued hsizes hmoved =>
        refine .flowing hgoing hpeer hopen hqueued hsizes ?_
        change read ++ s.link.stream.outbound ++ (.empty ++ s.link.loop.rest) = _
        rw [ByteArray.empty_append, ByteArray.append_assoc]
        exact hmoved
      | @stopped _ tail hgone hsent hsizes hmoved =>
        have hrest : read ++ s.link.stream.outbound ++ (.empty ++ tail) =
            read ++ (s.link.stream.outbound ++ tail) := by
          rw [ByteArray.empty_append, ByteArray.append_assoc]
        exact .stopped (hgone.imp_right fun h => ⟨h.1, rfl⟩) hsent hsizes (hrest.trans hmoved)
    | peerClose =>
      have hunread : s.reads .peerClose = .empty := rfl
      rw [hunread, ByteArray.append_empty]
      -- what the peer has not read is lost, but it was the end of what was written
      have hlost : ∀ b : ByteArray, ByteArray.empty ++ b = b := fun _ => ByteArray.empty_append
      cases h with
      | flowing hgoing hpeer hopen hqueued hsizes hmoved =>
        rw [← hlost (s.link.stream.outbound ++ _)] at hmoved
        refine .stopped (Or.inr ⟨rfl, rfl⟩) ?_ hsizes hmoved
        rw [hqueued]
        exact List.prefix_append _ _
      | stopped hgone hsent hsizes hmoved =>
        rw [← hlost (s.link.stream.outbound ++ _)] at hmoved
        exact .stopped (Or.inr ⟨rfl, rfl⟩) hsent hsizes hmoved
    | _ => cases hbytes

theorem follows_run (hquiet : s.Quiet) (h : s.link.Follows queued read) {acts : List Action}
    (hown : ∀ a ∈ acts, a.isOwn = true) :
    (s.run acts).link.Follows (queued ++ s.queuedIn acts) (read ++ s.readIn acts) := by
  induction acts generalizing s queued read with
  | nil =>
    rw [queuedIn, readIn, List.append_nil, ByteArray.append_empty]
    exact h
  | cons a acts ih =>
    obtain ⟨hfirst, hrest⟩ := List.forall_mem_cons.mp hown
    have hrun := ih (hquiet.perform a) (follows_perform hquiet h hfirst) hrest
    rwa [List.append_assoc, ByteArray.append_assoc] at hrun

/-! At rest -/

/-- The loop has nothing to do, and the peer has read what there is. -/
structure Still (s : Scene) : Prop where
  loop : s.link.ready s.isHeld = []
  read : s.link.stream.outbound.isEmpty = true

theorem Still.flushed (h : s.Still) : s.Flushed where
  send := by rw [h.loop]; exact List.not_mem_nil
  continueWriting := by rw [h.loop]; exact List.not_mem_nil
  read := h.read

/-- A loop that has nothing to do has heard of a peer that closed its end. -/
theorem Still.peerOpen (h : s.Still) (hgoing : s.link.loop.isEnded = false) :
    s.link.stream.peerOpen = true := by
  by_contra hclosed
  have hended : s.link.stream.ended = true := by
    simpa [Stream.ended] using hclosed
  have hloop := h.loop
  unfold Link.ready at hloop
  cases hcase : s.link.loop with
  | ended =>
    rw [hcase] at hgoing
    cases hgoing
  | writing rest => simp [hcase, Stream.writable, hclosed] at hloop
  | running =>
    have hitem : s.link.inboundItem.1 ≠ .starved := by
      rw [Link.inboundItem, hended]
      exact Deframer.next_ended_ne _
    have hcan : s.link.canReceive = true := by
      unfold Link.canReceive
      cases hnext : s.link.inboundItem.1 with
      | starved => exact absurd hnext hitem
      | _ => simp
    simp [hcase, hcan] at hloop

/-! Left alone -/

/-- What can go on when nobody holds the link, if the peer neither closes its end nor sends
anything that breaks the link: the loop and the peer, the clock, and whoever has a handle. -/
def runsOn (s : Scene) : Action → Bool
  | .loop .receive => !s.link.hearsFatal
  | .loop _ => true
  | .peerWrite _ => true
  | .peerRead => true
  | .advance _ => true
  | .settled _ => true
  | .waitFor _ _ => true
  | .poll _ => true
  | .drop _ => true
  | _ => false

def staysAlone : Scene → List Action → Bool
  | _, [] => true
  | s, a :: acts => s.runsOn a && staysAlone (s.perform a) acts

theorem staysAlone_append (s : Scene) (acts more : List Action) :
    s.staysAlone (acts ++ more) = (s.staysAlone acts && (s.run acts).staysAlone more) := by
  induction acts generalizing s with
  | nil => rfl
  | cons a acts ih => rw [List.cons_append, staysAlone, staysAlone, ih, run_cons, Bool.and_assoc]

theorem isHeld_eq_false_iff (s : Scene) :
    s.isHeld = false ↔ s.clones = 0 ∧ ∀ c ∈ s.calls, c.holdsLink = false := by
  simp [isHeld]

theorem isHeld_join (hnobody : s.isHeld = false) {a : Link × Progress}
    (hwaits : ∀ d, a.2 = .waiting d → d.holdsLink = false) : (s.join a).isHeld = false := by
  obtain ⟨hclones, hcalls⟩ := s.isHeld_eq_false_iff.mp hnobody
  obtain ⟨l, p⟩ := a
  cases p with
  | waiting d =>
    rw [isHeld_eq_false_iff]
    refine ⟨hclones, fun c hc => ?_⟩
    rcases List.mem_append.mp hc with hold | hnew
    · exact hcalls c hold
    · rw [List.mem_singleton.mp hnew]
      exact hwaits d rfl
  | finished answer => exact hnobody

theorem isHeld_rejoin (hnobody : s.isHeld = false) (i : Nat) {a : Link × Progress}
    (hwaits : ∀ d, a.2 = .waiting d → d.holdsLink = false) : (s.rejoin i a).isHeld = false := by
  obtain ⟨hclones, hcalls⟩ := s.isHeld_eq_false_iff.mp hnobody
  obtain ⟨l, p⟩ := a
  rw [isHeld_eq_false_iff]
  cases p with
  | waiting d =>
    refine ⟨hclones, fun c hc => ?_⟩
    rcases List.mem_or_eq_of_mem_set hc with hold | rfl
    · exact hcalls c hold
    · exact hwaits c rfl
  | finished answer => exact ⟨hclones, fun c hc => hcalls c (List.mem_of_mem_eraseIdx hc)⟩

/-- Nobody comes to hold the link, and what is not done by the loop or the peer leaves it as
it is. -/
theorem unheld_perform (hnobody : s.isHeld = false) {a : Action} (ha : s.runsOn a = true) :
    (s.perform a).isHeld = false ∧ (a.movesBytes = false → (s.perform a).link = s.link) := by
  obtain ⟨hclones, hcalls⟩ := s.isHeld_eq_false_iff.mp hnobody
  have hjoins : ∀ c : Call, c.holdsLink = false →
      (s.join (c.poll s.now s.link)).isHeld = false ∧
        (s.join (c.poll s.now s.link)).link = s.link := by
    intro c hc
    obtain ⟨hsame, hwaits⟩ := Call.poll_of_unheld hc s.now s.link
    rw [link_join]
    exact ⟨isHeld_join hnobody hwaits, hsame⟩
  cases a with
  | loop e =>
    refine ⟨?_, fun h => by cases h⟩
    rw [perform]
    split
    · exact hnobody
    · exact hnobody
  | peerWrite b => exact ⟨hnobody, fun h => by cases h⟩
  | peerRead => exact ⟨hnobody, fun h => by cases h⟩
  | advance d => exact ⟨hnobody, fun _ => rfl⟩
  | settled h => exact (hjoins (.settled h) rfl).imp_right fun h _ => h
  | waitFor h limit => exact (hjoins (.settledBy h limit _) rfl).imp_right fun h _ => h
  | poll i =>
    rw [perform]
    cases hi : s.calls[i]? with
    | none => exact ⟨hnobody, fun _ => rfl⟩
    | some c =>
      dsimp only
      obtain ⟨hsame, hwaits⟩ :=
        Call.poll_of_unheld (hcalls c (List.mem_of_getElem? hi)) s.now s.link
      rw [link_rejoin]
      exact ⟨isHeld_rejoin hnobody i hwaits, fun _ => hsame⟩
  | drop i =>
    rw [perform]
    cases hi : s.calls[i]? with
    | none => exact ⟨hnobody, fun _ => rfl⟩
    | some c =>
      have hsame := Call.drop_of_unheld (hcalls c (List.mem_of_getElem? hi)) s.link
      refine ⟨?_, fun _ => hsame⟩
      rw [isHeld_eq_false_iff]
      exact ⟨hclones, fun c' hc' => hcalls c' (List.mem_of_mem_eraseIdx hc')⟩
  | _ => cases ha

/-- Nobody holds the link. What has been queued is under way, or the loop has written it all
and released the stream. -/
inductive Departs (s : Scene) (queued : List Frame) (read : ByteArray) : Prop
  | going : s.link.lifecycle ≠ .closed → s.link.stream.peerOpen = true →
      s.link.stream.linkOpen = true → s.link.Delivers queued read → Departs s queued read
  | gone : s.link.loop.isEnded = true → s.link.stream.linkOpen = false →
      (∀ f ∈ queued, f.size ≤ Frame.maxSize) →
      read ++ s.link.stream.outbound = wire queued → Departs s queued read

theorem Departs.of_link {s' : Scene} (h : s.Departs queued read) (hlink : s'.link = s.link) :
    s'.Departs queued read := by
  cases h with
  | going hopen hpeer hlinkOpen hdelivers =>
    rw [← hlink] at hopen hpeer hlinkOpen hdelivers
    exact .going hopen hpeer hlinkOpen hdelivers
  | gone hended hlinkOpen hsizes hbytes =>
    rw [← hlink] at hended hlinkOpen hbytes
    exact .gone hended hlinkOpen hsizes hbytes

/-- The loop of a link that nobody holds goes on, and ends when the queue is empty. -/
theorem departs_handle (hopen : s.link.lifecycle ≠ .closed)
    (hpeer : s.link.stream.peerOpen = true) (hlinkOpen : s.link.stream.linkOpen = true)
    (h : s.link.Delivers queued read) (hfits : ∀ f ∈ queued, f.size ≤ Frame.maxSize)
    {e : Link.Event} (he : e ∈ s.link.ready s.isHeld) (ha : s.runsOn (.loop e) = true) :
    Departs { s with link := s.link.handle e } queued read := by
  have hgoes : (s.link.handle e).lifecycle ≠ .closed →
      Departs { s with link := s.link.handle e } queued read := by
    intro hstill
    have hdelivers := h.handle hopen he hstill
    rcases Link.handle_cases he with hend | ⟨taken, hgoes⟩
    · exact Bool.noConfusion (hdelivers.going.symm.trans hend.ended)
    · exact .going hstill ((s.link.alike_handle e).peerOpen.trans hpeer)
        (hgoes.linkOpen.trans hlinkOpen) hdelivers
  obtain ⟨sent, hqueued, hsizes, hbytes⟩ := h.accounts
  rcases Link.loop_of_ready he with ⟨rfl, -⟩ | ⟨hne, hloop⟩
  · refine hgoes fun hclosed => hopen ?_
    rwa [Link.lifecycle, Link.registry_continueWriting hpeer] at hclosed
  · cases e with
    | continueWriting => exact absurd rfl hne
    | receive =>
      have hhears : s.link.hearsFatal = false := by simpa [runsOn] using ha
      exact hgoes (Link.lifecycle_receive_ne_closed hopen hhears)
    | send =>
      have hhead : ∀ f ∈ s.link.outbox.head?, f.size ≤ Frame.maxSize := by
        intro f hf
        refine hfits f ?_
        rw [hqueued]
        exact List.mem_append_right _ (List.mem_of_mem_head? hf)
      refine hgoes fun hclosed => hopen ?_
      rwa [Link.handle, Link.lifecycle, Link.registry_takeUp hpeer hhead] at hclosed
    | stop =>
      -- nobody has asked for it
      simp [Link.ready, hloop, h.unasked] at he
    | release =>
      have hqueue : s.link.outbox = [] := by
        by_contra hnonempty
        simp [Link.ready, hloop, hnonempty] at he
      have hend := s.link.halts_endLoop
      refine .gone hend.ended hend.linkOpen hfits ?_
      change read ++ s.link.endLoop.stream.outbound = wire queued
      have hrest : s.link.loop.rest = .empty := by rw [hloop]; rfl
      rw [hend.outbound, hqueued, hqueue, List.append_nil, ← hbytes, hrest,
        ByteArray.append_empty]

theorem departs_perform (hquiet : s.Quiet) (hnobody : s.isHeld = false)
    (h : s.Departs queued read) (hfits : ∀ f ∈ queued, f.size ≤ Frame.maxSize) {a : Action}
    (ha : s.runsOn a = true) :
    (s.perform a).Departs queued (read ++ s.reads a) ∧ s.queues a = [] := by
  cases hbytes : a.movesBytes with
  | false =>
    have hlink := (unheld_perform hnobody ha).2 hbytes
    rw [reads_of_movesBytes hbytes, ByteArray.append_empty]
    exact ⟨h.of_link hlink,
      queues_of_append (a.ne_loop hbytes) (by rw [hlink, List.append_nil])⟩
  | true =>
    have hnothing := queues_of_movesBytes (s := s) hbytes
    refine ⟨?_, hnothing⟩
    cases a with
    | loop e =>
      have hunread : s.reads (.loop e) = .empty := rfl
      rw [hunread, ByteArray.append_empty, perform]
      split_ifs with he
      · cases h with
        | going hopen hpeer hlinkOpen hdelivers =>
          exact departs_handle hopen hpeer hlinkOpen hdelivers hfits he ha
        | gone hended _ _ _ => exact Bool.noConfusion ((Link.going_of_ready he).symm.trans hended)
      · exact h
    | peerWrite b =>
      cases h with
      | going hopen hpeer hlinkOpen hdelivers =>
        have hpeer' := (s.link.stream.peerOpen_peerWrite b).trans hpeer
        have hlinkOpen' := (s.link.stream.linkOpen_peerWrite b).trans hlinkOpen
        have hnext := delivers_perform hquiet hdelivers (a := .peerWrite b) rfl hopen hpeer'
        rw [hnothing, List.append_nil] at hnext
        exact .going hopen hpeer' hlinkOpen' hnext
      | gone hended hlinkOpen hsizes hbytes =>
        have hunread : s.reads (.peerWrite b) = .empty := rfl
        have hlinkOpen' := (s.link.stream.linkOpen_peerWrite b).trans hlinkOpen
        rw [← s.link.stream.outbound_peerWrite b] at hbytes
        rw [hunread, ByteArray.append_empty]
        exact .gone hended hlinkOpen' hsizes hbytes
    | peerRead =>
      cases h with
      | going hopen hpeer hlinkOpen hdelivers =>
        have hnext := delivers_perform hquiet hdelivers (a := .peerRead) rfl hopen hpeer
        rw [hnothing, List.append_nil] at hnext
        exact .going hopen hpeer hlinkOpen hnext
      | gone hended hlinkOpen hsizes hbytes =>
        refine .gone hended hlinkOpen hsizes ?_
        change read ++ s.link.stream.outbound ++ .empty = _
        rw [ByteArray.append_empty, hbytes]
    | peerClose => cases ha
    | _ => cases hbytes

theorem departs_run (hquiet : s.Quiet) (hnobody : s.isHeld = false) (h : s.Departs queued read)
    (hfits : ∀ f ∈ queued, f.size ≤ Frame.maxSize) {more : List Action}
    (halone : s.staysAlone more = true) :
    (s.run more).isHeld = false ∧ (s.run more).Departs queued (read ++ s.readIn more) ∧
      s.queuedIn more = [] := by
  induction more generalizing s read with
  | nil =>
    rw [readIn, ByteArray.append_empty]
    exact ⟨hnobody, h, rfl⟩
  | cons a more ih =>
    obtain ⟨hfirst, hrest⟩ := Bool.and_eq_true_iff.mp halone
    obtain ⟨hnext, hnothing⟩ := departs_perform hquiet hnobody h hfits hfirst
    obtain ⟨hnobody', hrun, hempty⟩ :=
      ih (hquiet.perform a) (unheld_perform hnobody hfirst).1 hnext hrest
    rw [ByteArray.append_assoc] at hrun
    refine ⟨hnobody', hrun, ?_⟩
    rw [queuedIn, hnothing, hempty]
    rfl

namespace Departs

/-- When the peer comes to the end of the stream, it has received everything. -/
theorem decoded (h : s.Departs queued read) (hend : s.link.stream.peerAtEnd = true) :
    (({} : Deframer).feed read).decoded = queued := by
  obtain ⟨hreleased, hread⟩ := Bool.and_eq_true_iff.mp hend
  cases h with
  | going _ _ hlinkOpen _ => simp [hlinkOpen] at hreleased
  | gone _ _ hsizes hbytes =>
    rw [eq_empty_of_isEmpty hread, ByteArray.append_empty] at hbytes
    have hcarries := Deframer.Carries.start.writes hsizes
    rw [ByteArray.empty_append, List.nil_append, ← hbytes] at hcarries
    exact hcarries.decoded_feed

/-- A loop that has nothing to write, and cannot be kept from writing, can end. -/
theorem release (h : s.Departs queued read) (hnobody : s.isHeld = false) (hflushed : s.Flushed)
    (hroom : s.link.stream.capacity ≠ some 0) :
    s.link.stream.peerAtEnd = true ∨ .release ∈ s.link.ready s.isHeld := by
  cases h with
  | gone _ hlinkOpen _ _ =>
    left
    simp [Stream.peerAtEnd, hlinkOpen, hflushed.read]
  | going _ hpeer _ hdelivers =>
    right
    obtain ⟨hqueue, -, hrest⟩ := hflushed.nothing_left hdelivers hroom
    cases hloop : s.link.loop with
    | ended => exact absurd (hloop ▸ hdelivers.going) nofun
    | running => simp [Link.ready, hloop, hqueue, hnobody]
    | writing rest =>
      have hempty : rest = .empty := by rwa [hloop] at hrest
      have hwritable : s.link.stream.writable rest = true := by
        have hnone : ByteArray.empty.isEmpty = true := rfl
        simp [Stream.writable, hempty, hnone]
      have hcontinue := hflushed.continueWriting
      simp [Link.ready, hloop, hwritable] at hcontinue

end Departs

theorem staysAlone_of_isDelivery {turns : List Action} (h : ∀ a ∈ turns, a.isDelivery = true) :
    s.staysAlone turns = true := by
  induction turns generalizing s with
  | nil => rfl
  | cons a turns ih =>
    obtain ⟨hfirst, hrest⟩ := List.forall_mem_cons.mp h
    rw [staysAlone, ih hrest]
    rcases Action.eq_of_isDelivery hfirst with rfl | rfl | rfl <;> rfl

theorem agrees_run (h : s.link.Agrees) {acts : List Action} (hown : ∀ a ∈ acts, a.isOwn = true) :
    (s.run acts).link.Agrees :=
  List.foldlRecOn (motive := fun t => t.link.Agrees) acts perform h
    fun _ ht a ha => agrees_perform ht (Action.failsAll_of_isOwn (hown a ha))

theorem capacity_run {acts : List Action} (hown : ∀ a ∈ acts, a.isOwn = true) :
    (s.run acts).link.stream.capacity = s.link.stream.capacity :=
  List.foldlRecOn (motive := fun t => t.link.stream.capacity = s.link.stream.capacity) acts
    perform rfl fun t ht a ha => by
      by_cases hcloses : a = .peerClose
      · rw [hcloses]
        exact ht
      · exact (alike_perform (hown a ha) hcloses).capacity.trans ht

theorem isOwn_of_staysAlone {more : List Action} (h : s.staysAlone more = true) :
    ∀ a ∈ more, a.isOwn = true := by
  induction more generalizing s with
  | nil => exact nofun
  | cons a more ih =>
    obtain ⟨hfirst, hrest⟩ := Bool.and_eq_true_iff.mp h
    refine List.forall_mem_cons.mpr ⟨?_, ih hrest⟩
    cases a with
    | registry op => cases hfirst
    | _ => rfl

/-- Loop and peer can bring it about that the peer comes to the end of the stream. -/
theorem Departs.exists_end (h : s.Departs queued read) (hquiet : s.Quiet)
    (hnobody : s.isHeld = false) (hfits : ∀ f ∈ queued, f.size ≤ Frame.maxSize)
    (hroom : s.link.stream.capacity ≠ some 0) :
    ∃ turns, s.staysAlone turns = true ∧ (s.run turns).link.stream.peerAtEnd = true := by
  obtain ⟨turns, hturns, hflushed⟩ := s.exists_flush
  have halone := staysAlone_of_isDelivery (s := s) hturns
  have hroom' : (s.run turns).link.stream.capacity ≠ some 0 := by
    rwa [capacity_run (isOwn_of_staysAlone halone)]
  obtain ⟨hnobody', hdeparts, -⟩ := departs_run hquiet hnobody h hfits halone
  rcases hdeparts.release hnobody' hflushed hroom' with hend | hrelease
  · exact ⟨turns, halone, hend⟩
  · refine ⟨turns ++ [.loop .release], ?_, ?_⟩
    · rw [staysAlone_append, halone]
      rfl
    · have hhalts := (s.run turns).link.halts_endLoop
      rw [run_append, run_cons, run_nil, perform, if_pos hrelease]
      change (s.run turns).link.endLoop.stream.peerAtEnd = true
      rw [Stream.peerAtEnd, hhalts.linkOpen, hhalts.outbound, hflushed.read]
      rfl

theorem acceptedIn_of_setup (hl : Registry.Sound s.link.registry) (hquiet : s.Quiet)
    (hagrees : s.link.Agrees) {acts : List Action} (hown : ∀ a ∈ acts, a.isOwn = true) {c : Setup}
    (hsetup : (s.run acts).accepts (.connect c) ≠ []) : s.acceptedIn acts = [] := by
  rcases (s.run acts).queues_connect c with ⟨f, hf, -⟩ | ⟨h, hgreet, -⟩
  · simp [accepts, hf] at hsetup
  · obtain ⟨hconnecting, hgreeted, -⟩ := Registry.greet_of_ok hgreet
    rw [← queuedIn_eq_acceptedIn hl hquiet hagrees hown]
    exact queuedIn_eq_nil hquiet hconnecting hgreeted

/-- A new link has nothing to write. -/
theorem starts_of_link {plan : Plan} {policy : Policy} {capacity : Option Nat}
    (hlink : plan.link policy { capacity := capacity } = .ok s.link) :
    s.link.stream = { capacity := capacity } ∧ Registry.Sound s.link.registry ∧
      s.link.Agrees ∧ s.link.Delivers [] .empty ∧ s.link.Follows [] .empty := by
  obtain ⟨r, hmake, hl⟩ := Plan.eq_of_link hlink
  rw [hl]
  refine ⟨rfl, Registry.sound_of_make hmake, ⟨fun hclosed => ?_, nofun⟩, .start rfl rfl rfl rfl,
    .start rfl rfl ⟨capacity, rfl⟩⟩
  obtain ⟨g, -, hr⟩ := Registry.eq_of_make hmake
  rw [Link.lifecycle, hr] at hclosed
  cases hclosed

/-- The frames that the peer has received in a run. -/
def received (s : Scene) (acts : List Action) : List Frame :=
  (({} : Deframer).feed (s.readIn acts)).decoded

/-- In every run of a new link over a stream that can take something: what the peer has
received are the first frames that the link has accepted, each as it was, and it is all of
them if the link is not closed and loop and peer have come to rest. A link that is not ready
refuses every frame, and the setup, if it is accepted, comes first. When nobody holds a link
any more that is not closed, all frames fit and the peer neither closes its end nor breaks
the link, then the peer comes to the end of the stream, and when it does, it has received all
frames. -/
theorem outbound_in_order {plan : Plan} {policy : Policy} {capacity : Option Nat}
    (hlink : plan.link policy { capacity := capacity } = .ok s.link) (hroom : capacity ≠ some 0)
    (hquiet : s.Quiet) {acts : List Action} (hown : ∀ a ∈ acts, a.isOwn = true) :
    let t := s.run acts
    let accepted := s.acceptedIn acts
    s.received acts <+: accepted ∧
    (t.Still → t.link.lifecycle ≠ .closed → s.received acts = accepted) ∧
    (t.link.lifecycle ≠ .ready → (∀ f, ∃ e, t.link.send f = (t.link, .error e)) ∧
      ∀ a, (∀ c, a ≠ .connect c) → t.accepts a = []) ∧
    (∀ c, t.accepts (.connect c) ≠ [] → accepted = []) ∧
    (t.isHeld = false → t.link.lifecycle ≠ .closed → t.link.stream.peerOpen = true →
      (∀ f ∈ accepted, f.size ≤ Frame.maxSize) → ∀ more, t.staysAlone more = true →
      let u := t.run more
      s.acceptedIn (acts ++ more) = accepted ∧
        (u.link.stream.peerAtEnd = true → s.received (acts ++ more) = accepted) ∧
        (u.Still → u.link.stream.peerAtEnd = true) ∧
        ∃ turns, u.staysAlone turns = true ∧ (u.run turns).link.stream.peerAtEnd = true) := by
  intro t accepted
  obtain ⟨hstream, hsound, hagrees, hstart, hfollows⟩ := starts_of_link hlink
  have hqueued : s.queuedIn acts = accepted := queuedIn_eq_acceptedIn hsound hquiet hagrees hown
  have hagrees' : t.link.Agrees := agrees_run hagrees hown
  have hcapacity : t.link.stream.capacity ≠ some 0 := by
    rw [capacity_run hown, hstream]
    exact hroom
  have hdelivers : t.link.lifecycle ≠ .closed → t.link.stream.peerOpen = true →
      t.link.Delivers accepted (s.readIn acts) := by
    intro hopen hpeer
    have hrun := delivers_run hquiet hstart hown hopen hpeer
    rwa [List.nil_append, ByteArray.empty_append, hqueued] at hrun
  have hrun := follows_run hquiet hfollows hown
  rw [List.nil_append, ByteArray.empty_append, hqueued] at hrun
  refine ⟨hrun.decoded_prefix, ?_, ?_, ?_, ?_⟩
  · intro hstill hopen
    have hgoing : t.link.loop.isEnded = false := by
      rw [← Bool.not_eq_true]
      exact fun hended => hopen (hagrees'.ends hended).1
    have hall := hdelivers hopen (hstill.peerOpen hgoing)
    obtain ⟨hqueue, hread, hrest⟩ := hstill.flushed.nothing_left hall hcapacity
    exact (hall.decoded hqueue hread hrest).2
  · intro hready
    refine ⟨fun f => ?_, fun a ha => accepts_eq_nil hready ha⟩
    obtain ⟨e, -, he⟩ := Link.send_of_not_ready hready f
    exact ⟨e, he⟩
  · intro c hc
    exact acceptedIn_of_setup hsound hquiet hagrees hown hc
  · intro hnobody hopen hpeer hfits more halone u
    have hlinkOpen : t.link.stream.linkOpen = true := by
      cases hrun with
      | flowing _ _ hlinkOpen _ _ _ => exact hlinkOpen
      | stopped hgone _ _ _ =>
        rcases hgone with hended | ⟨hclosed, -⟩
        · exact absurd (hagrees'.ends hended).1 hopen
        · exact Bool.noConfusion (hclosed.symm.trans hpeer)
    obtain ⟨hnobody', hdeparts, hnothing⟩ :=
      departs_run (hquiet.run acts) hnobody
        (.going hopen hpeer hlinkOpen (hdelivers hopen hpeer)) hfits halone
    have hownMore := isOwn_of_staysAlone halone
    have hroom' : u.link.stream.capacity ≠ some 0 := by
      rwa [capacity_run hownMore]
    rw [← s.readIn_append acts more] at hdeparts
    refine ⟨?_, hdeparts.decoded, ?_, hdeparts.exists_end ((hquiet.run acts).run more) hnobody'
      hfits hroom'⟩
    · have hmore := queuedIn_eq_acceptedIn ((s.leadsTo_run acts).sound hsound) (hquiet.run acts)
        hagrees' hownMore
      rw [acceptedIn_append, ← hmore, hnothing, List.append_nil]
    · intro hstill
      rcases hdeparts.release hnobody' hstill.flushed hroom' with hend | hrelease
      · exact hend
      · rw [hstill.loop] at hrelease
        exact absurd hrelease List.not_mem_nil

/-- The handshake has been accepted, a frame has been sent, and the link is let go of before
anything has been written. -/
def leavingAtOnce : List Action :=
  [.connect {}, .frame acceptance, .send "ping".toUTF8, .release]

/-- The peer receives the setup and the frame, and comes to the end of the stream. -/
theorem all_received_from_abandoned_link :
    ∃ turns, (fresh.run (leavingAtOnce ++ turns)).link.stream.peerAtEnd = true ∧
      (fresh.received (leavingAtOnce ++ turns)).length = 2 ∧
      (fresh.received (leavingAtOnce ++ turns))[1]? = some "ping".toUTF8 := by
  let t := fresh.run leavingAtOnce
  have hlink : Plan.link { options := { limit := 2 } } .block { capacity := none } =
      .ok fresh.link := rfl
  have hown : ∀ a ∈ leavingAtOnce, a.isOwn = true := by decide
  obtain ⟨hnobody, hready, hpeer⟩ :
      t.isHeld = false ∧ t.link.lifecycle = .ready ∧ t.link.stream.peerOpen = true := by
    decide +kernel
  obtain ⟨hlength, hsecond, hfits⟩ :
      (fresh.acceptedIn leavingAtOnce).length = 2 ∧
        (fresh.acceptedIn leavingAtOnce)[1]? = some "ping".toUTF8 ∧
        ∀ f ∈ fresh.acceptedIn leavingAtOnce, f.size ≤ Frame.maxSize := by
    decide +kernel
  have hopen := Link.ne_closed_of_ready hready
  have hquiet : fresh.Quiet := quiet_of_calls rfl
  obtain ⟨-, -, -, -, hleft⟩ := outbound_in_order hlink nofun hquiet hown
  obtain ⟨-, -, -, turns, hturns, hend⟩ := hleft hnobody hopen hpeer hfits [] rfl
  obtain ⟨-, hall, -⟩ := hleft hnobody hopen hpeer hfits turns hturns
  rw [run_nil, ← run_append] at hend
  rw [← run_append] at hall
  refine ⟨turns, hend, ?_, ?_⟩
  · rw [hall hend, hlength]
  · rw [hall hend, hsecond]

end Scene

end Switchboard
