import Switchboard.Proofs.CalmActions
import Switchboard.Proofs.Deliveries
import Switchboard.Proofs.RequestFrames

/-!
What a request can do to the others on its link. To submit one does them no harm, whether it
is accepted or not. An accepted one is written later, when its caller has got the handle
long since; and if its frame is too long for the stream, this breaks the link, and with it
every other request. As long as everything that is queued fits, it arrives, and everybody
waits for an answer undisturbed. `spared_iff_frames_fit` is the main result.
-/
namespace Switchboard

open Registry (Sound)

namespace Link

variable {l : Link}

/-- What everybody on a link is told when a frame is too long for the stream. -/
def tooBig : Failure := .closing "connection lost: IO error: frame size too big"

theorem endsWith_takeUp (hl : Sound l.registry) (hready : l.lifecycle = .ready) {f : Frame}
    {rest : List Frame} (hqueue : l.outbox = f :: rest) (hsize : Frame.maxSize < f.size) :
    l.EndsWith l.takeUp tooBig := by
  have hopen := ne_closed_of_ready hready
  have hbytes : Frame.toBytes f = .error .tooBig := if_pos hsize
  have hends := endsWith_onTransportError (l := { l with outbox := rest }) hl hopen
    (.io FrameFault.tooBig.message)
  have hloss : lossOf (lifecycle { l with outbox := rest }) (.io FrameFault.tooBig.message) =
      tooBig := by
    change lossOf l.lifecycle _ = _
    rw [hready]
    rfl
  rw [hloss] at hends
  simp only [takeUp, hqueue, hbytes]
  exact hends.endLoop.of_pending rfl

/-- To take up any other frame concerns nobody, as long as the peer keeps its end open. -/
theorem registry_takeUp (hpeer : l.stream.peerOpen = true)
    (hfits : ∀ f ∈ l.outbox.head?, f.size ≤ Frame.maxSize) : l.takeUp.registry = l.registry := by
  unfold takeUp
  cases hqueue : l.outbox with
  | nil => rfl
  | cons f rest =>
    have hsize : f.size ≤ Frame.maxSize := hfits f (by simp [hqueue])
    have hbytes : Frame.toBytes f = .ok (Frame.header f.size ++ f) := if_neg (Nat.not_lt.mpr hsize)
    simp only [hbytes, writeBytes, hpeer, if_true]

theorem registry_continueWriting (hpeer : l.stream.peerOpen = true) :
    (l.handle .continueWriting).registry = l.registry := by
  rw [handle]
  cases l.loop with
  | writing rest => simp only [writeBytes, hpeer, if_true]
  | running => rfl
  | ended => rfl

end Link

namespace Scene

variable {s : Scene}

theorem staysCalm_of_isDelivery {turns : List Action} (h : ∀ a ∈ turns, a.isDelivery = true) :
    s.staysCalm turns = true := by
  induction turns generalizing s with
  | nil => rfl
  | cons a turns ih =>
    obtain ⟨hfirst, hrest⟩ := List.forall_mem_cons.mp h
    rw [staysCalm, ih hrest]
    rcases Action.eq_of_isDelivery hfirst with rfl | rfl | rfl <;> rfl

theorem answeredIn_of_isDelivery {turns : List Action} (h : ∀ a ∈ turns, a.isDelivery = true) :
    s.answeredIn turns = [] := by
  induction turns generalizing s with
  | nil => rfl
  | cons a turns ih =>
    obtain ⟨hfirst, hrest⟩ := List.forall_mem_cons.mp h
    rw [answeredIn, ih hrest]
    rcases Action.eq_of_isDelivery hfirst with rfl | rfl | rfl <;> rfl

section Ready

variable (hl : Sound s.link.registry) (hquiet : s.Quiet) (hready : s.link.lifecycle = .ready)

include hl hquiet hready

/-- A calm action disturbs nobody but the one it answers, unless the loop takes up a frame
that is too long. Then the link ends. -/
theorem keeps_or_ends {a : Action} (hcalm : s.isCalm a = true)
    (hpeer : s.link.stream.peerOpen = true) (hunasked : s.link.shutdown = false) :
    s.link.Keeps (s.answered? a) (s.perform a).link ∨
      ∃ f ∈ s.link.outbox, Frame.maxSize < f.size ∧
        s.link.EndsWith (s.perform a).link Link.tooBig := by
  cases hbytes : a.movesBytes with
  | false => exact Or.inl (keeps_perform hl hquiet hready hcalm hbytes)
  | true =>
    cases a with
    | loop e =>
      rw [perform]
      split_ifs with he
      · cases e with
        | receive => exact Or.inl (keeps_receive hready he hcalm)
        | send =>
          by_cases hlong : ∃ f ∈ s.link.outbox.head?, Frame.maxSize < f.size
          · obtain ⟨f, hf, hsize⟩ := hlong
            obtain ⟨rest, hqueue⟩ := List.head?_eq_some_iff.mp hf
            refine Or.inr ⟨f, ?_, hsize, Link.endsWith_takeUp hl hready hqueue hsize⟩
            rw [hqueue]
            exact List.mem_cons_self
          · have hfits : ∀ f ∈ s.link.outbox.head?, f.size ≤ Frame.maxSize :=
              fun f hf => Nat.le_of_not_lt fun hsize => hlong ⟨f, hf, hsize⟩
            exact Or.inl (.of_registry (Link.registry_takeUp hpeer hfits))
        | continueWriting => exact Or.inl (.of_registry (Link.registry_continueWriting hpeer))
        | stop =>
          rcases Link.loop_of_ready he with ⟨hne, -⟩ | ⟨-, hloop⟩
          · cases hne
          · simp [Link.ready, hloop, hunasked] at he
        | release =>
          have hheld : s.isHeld = true := hcalm
          rcases Link.loop_of_ready he with ⟨hne, -⟩ | ⟨-, hloop⟩
          · cases hne
          · simp [Link.ready, hloop, hheld] at he
      · exact Or.inl (.refl _)
    | peerWrite | peerRead => exact Or.inl (.of_registry rfl)
    | peerClose => cases hcalm
    | _ => cases hbytes

/-- In a calm run the link stays ready, all that is queued is accounted for, and everybody
waits who has no answer; or a frame of the queue was too long, and everybody who has no answer
has been told so. -/
theorem calm_run {queued : List Frame} {read : ByteArray}
    (hpeer : s.link.stream.peerOpen = true) (hdelivers : s.link.Delivers queued read)
    {more : List Action} (hcalm : s.staysCalm more = true) :
    let u := s.run more
    let frames := queued ++ s.queuedIn more
    (u.link.lifecycle = .ready ∧ s.link.stream.Alike u.link.stream ∧
        u.link.Delivers frames (read ++ s.readIn more) ∧
        ∀ h ∈ s.link.registry.pending, h.id ∉ s.answeredIn more → h ∈ u.link.registry.pending) ∨
      (u.link.lifecycle = .closed ∧ (∃ f ∈ frames, Frame.maxSize < f.size) ∧
        ∀ h ∈ s.link.registry.pending, h.id ∉ s.answeredIn more →
          u.link.outcome? h = some (.error Link.tooBig)) := by
  induction more generalizing s queued read with
  | nil =>
    refine Or.inl ⟨hready, .refl _, ?_, fun h hh _ => hh⟩
    rw [queuedIn, readIn, List.append_nil, ByteArray.append_empty]
    exact hdelivers
  | cons a more ih =>
    obtain ⟨hfirst, hrest⟩ := Bool.and_eq_true_iff.mp hcalm
    have hown := isOwn_of_isCalm hfirst
    rw [run_cons, queuedIn, readIn, answeredIn, ← List.append_assoc, ← ByteArray.append_assoc]
    rcases keeps_or_ends hl hquiet hready hfirst hpeer hdelivers.unasked with
      hkeeps | ⟨f, hf, hsize, hends⟩
    · have hstill := hkeeps.lifecycle.trans hready
      have halike := alike_perform (s := s) hown (ne_peerClose_of_isCalm hfirst)
      have hpeer' := halike.peerOpen.trans hpeer
      have hnext := delivers_perform hquiet hdelivers hown (Link.ne_closed_of_ready hstill) hpeer'
      have hwaits : ∀ h ∈ s.link.registry.pending,
          h.id ∉ (s.answered? a).toList ++ (s.perform a).answeredIn more →
          h ∈ (s.perform a).link.registry.pending ∧ h.id ∉ (s.perform a).answeredIn more := by
        intro h hh hid
        obtain ⟨hnow, hlater⟩ := not_or.mp (List.mem_append.not.mp hid)
        refine ⟨hkeeps.pending h hh fun heq => hnow ?_, hlater⟩
        rw [heq]
        exact List.mem_singleton_self _
      rcases ih ((s.leadsTo_perform a).sound hl) (hquiet.perform a) hstill hpeer' hnext hrest with
        ⟨hend, hsame, hall, hpending⟩ | ⟨hend, hlong, houtcome⟩
      · exact Or.inl ⟨hend, halike.trans hsame, hall, fun h hh hid =>
          hpending h (hwaits h hh hid).1 (hwaits h hh hid).2⟩
      · exact Or.inr ⟨hend, hlong, fun h hh hid =>
          houtcome h (hwaits h hh hid).1 (hwaits h hh hid).2⟩
    · have hleads := (s.perform a).leadsTo_run more
      obtain ⟨sent, hqueued, -⟩ := hdelivers.accounts
      have hmem : f ∈ queued := hqueued ▸ List.mem_append_right sent hf
      exact Or.inr ⟨hleads.closed hends.lifecycle,
        ⟨f, List.mem_append_left _ (List.mem_append_left _ hmem), hsize⟩,
        fun h hh _ => hleads.outcome? (hends.outcome h hh)⟩

end Ready

/-- When a link that delivers is flushed, there is nothing left to deliver. -/
theorem Flushed.nothing_left (h : s.Flushed) {queued : List Frame} {read : ByteArray}
    (hdelivers : s.link.Delivers queued read) (hroom : s.link.stream.capacity ≠ some 0) :
    s.link.outbox = [] ∧ s.link.stream.outbound = .empty ∧ s.link.loop.rest = .empty := by
  have hread := eq_empty_of_isEmpty h.read
  have hsend := h.send
  have hcontinue := h.continueWriting
  unfold Link.ready at hsend hcontinue
  cases hloop : s.link.loop with
  | ended => exact absurd (hloop ▸ hdelivers.going) nofun
  | running =>
    refine ⟨?_, hread, rfl⟩
    by_contra hqueue
    simp [hloop, hqueue] at hsend
  | writing rest =>
    have hwritable := Stream.writable_of_read h.read hroom rest
    simp [hloop, hwritable] at hcontinue

/-- In every run of a new link, from every moment at which the link is ready: whoever submits
a payload does the others no harm then, and whatever is done calmly afterwards, loop and peer
can come to an end with the queue. When they have, the link is ready just if every frame that
was ever queued fits. If so, the peer has found them all, and whoever was pending and has no
answer is pending. If not, the link is closed, and whoever was pending and has no answer has
failed, for a frame that may have been somebody else's. -/
theorem spared_iff_frames_fit {plan : Plan} {policy : Policy} {capacity : Option Nat} {s : Scene}
    (hlink : plan.link policy { capacity := capacity } = .ok s.link) (hroom : capacity ≠ some 0)
    (hquiet : s.Quiet) {acts more : List Action} (hown : ∀ a ∈ acts, a.isOwn = true)
    (hready : (s.run acts).link.lifecycle = .ready)
    (hpeer : (s.run acts).link.stream.peerOpen = true)
    (hcalm : (s.run acts).staysCalm more = true) :
    let t := s.run acts
    let u := t.run more
    let frames := s.queuedIn (acts ++ more)
    (∀ a p, t.submitted? a = some p →
      let l' := (t.perform a).link
      l'.lifecycle = .ready ∧
        ((t.posted a = [] ∧ t.queues a = [] ∧ l'.registry.pending = t.link.registry.pending) ∨
          ∃ h g, t.posted a = [(h, p)] ∧ t.link.codec.serialize h.id p = .ok g ∧
            t.queues a = [g] ∧ l'.registry.pending = t.link.registry.pending ++ [h])) ∧
    (∃ turns, (∀ a ∈ turns, a.isDelivery = true) ∧ t.staysCalm (more ++ turns) = true ∧
      (u.run turns).Flushed) ∧
    (u.Flushed → (u.link.lifecycle = .ready ↔ ∀ f ∈ frames, f.size ≤ Frame.maxSize)) ∧
    (u.Flushed → u.link.lifecycle = .ready →
      (({} : Deframer).feed (s.readIn (acts ++ more))).decoded = frames) ∧
    (∀ h ∈ t.link.registry.pending, h.id ∉ t.answeredIn more →
      (u.link.lifecycle = .ready ∧ h ∈ u.link.registry.pending) ∨
        (u.link.lifecycle = .closed ∧ u.link.outcome? h = some (.error Link.tooBig))) := by
  intro t u frames
  have hnew : s.link.stream = { capacity := capacity } ∧ Sound s.link.registry ∧
      s.link.Delivers [] .empty := by
    unfold Plan.link at hlink
    cases hmake : Registry.make plan.options.limit policy with
    | error f => simp [hmake] at hlink
    | ok r =>
      simp only [hmake, Except.ok.injEq] at hlink
      rw [← hlink]
      exact ⟨rfl, Registry.sound_of_make hmake, .start rfl rfl rfl rfl⟩
  obtain ⟨hstream, hsound, hstart⟩ := hnew
  have hl : Sound t.link.registry := (s.leadsTo_run acts).sound hsound
  have hdelivers : t.link.Delivers (s.queuedIn acts) (s.readIn acts) := by
    have hrun := delivers_run hquiet hstart hown (Link.ne_closed_of_ready hready) hpeer
    rwa [List.nil_append, ByteArray.empty_append] at hrun
  have hcapacity : t.link.stream.capacity ≠ some 0 := by
    rw [(alike_run hown hpeer).capacity, hstream]
    exact hroom
  have hframes : frames = s.queuedIn acts ++ t.queuedIn more := s.queuedIn_append acts more
  have hrun := calm_run hl (hquiet.run acts) hready hpeer hdelivers hcalm
  rw [← hframes, ← s.readIn_append acts more] at hrun
  have hall : u.Flushed → u.link.lifecycle = .ready →
      (∀ f ∈ frames, f.size ≤ Frame.maxSize) ∧
        (({} : Deframer).feed (s.readIn (acts ++ more))).decoded = frames := by
    intro hflushed hstill
    rcases hrun with ⟨-, hsame, hdelivers, -⟩ | ⟨hclosed, -⟩
    · obtain ⟨hqueue, hread, hrest⟩ :=
        hflushed.nothing_left hdelivers (hsame.capacity ▸ hcapacity)
      exact hdelivers.decoded hqueue hread hrest
    · exact absurd hclosed (Link.ne_closed_of_ready hstill)
  refine ⟨fun a p ha => submission hl (hquiet.run acts) hready ha, ?_, ?_, ?_, ?_⟩
  · obtain ⟨turns, hturns, hflushed⟩ := u.exists_flush
    refine ⟨turns, hturns, ?_, hflushed⟩
    rw [staysCalm_append, hcalm, staysCalm_of_isDelivery hturns]
    rfl
  · refine fun hflushed => ⟨fun hstill => (hall hflushed hstill).1, fun hfits => ?_⟩
    rcases hrun with ⟨hstill, -⟩ | ⟨-, ⟨f, hf, hsize⟩, -⟩
    · exact hstill
    · exact absurd (hfits f hf) (Nat.not_le.mpr hsize)
  · exact fun hflushed hstill => (hall hflushed hstill).2
  · intro h hh hid
    rcases hrun with ⟨hstill, -, -, hpending⟩ | ⟨hclosed, -, houtcome⟩
    · exact Or.inl ⟨hstill, hpending h hh hid⟩
    · exact Or.inr ⟨hclosed, houtcome h hh hid⟩

/-- The peer accepts the handshake, and somebody waits for an answer. -/
def occupied : List Action := [.connect {}, .frame acceptance, .start .register]

/-- A command with an argument that is longer than the longest frame. -/
def longCommand : Payload :=
  .command { kind := .custom, args := [String.ofList (List.replicate (Frame.maxSize + 1) 'x')] }

/-- While somebody waits, somebody else submits a long command, gets a handle for it, and the
link is ready as before. When loop and peer have come to an end with the queue, whoever was
waiting has failed. -/
theorem long_command_fails_others :
    let t := fresh.run occupied
    t.link.lifecycle = .ready ∧ (t.link.trySubmit longCommand).2 = .ok ⟨⟨2⟩, ⟨2⟩⟩ ∧
      (t.perform (.trySubmit longCommand)).link.lifecycle = .ready ∧
      ∃ turns, (∀ a ∈ turns, a.isDelivery = true) ∧
        let u := t.run (.trySubmit longCommand :: turns)
        u.Flushed ∧ u.link.lifecycle = .closed ∧
          u.link.outcome? ⟨⟨1⟩, ⟨1⟩⟩ = some (.error Link.tooBig) := by
  intro t
  have hlink : Plan.link { options := { limit := 2 } } .block { capacity := none } =
      .ok fresh.link := rfl
  have hquiet : fresh.Quiet := quiet_of_calls rfl
  have hown : ∀ a ∈ occupied, a.isOwn = true := by decide
  obtain ⟨hready, hpeer, hpending, hsubmitted⟩ :
      t.link.lifecycle = .ready ∧ t.link.stream.peerOpen = true ∧
        ⟨⟨1⟩, ⟨1⟩⟩ ∈ t.link.registry.pending ∧
        (t.link.trySubmit longCommand).2 = .ok ⟨⟨2⟩, ⟨2⟩⟩ := by
    decide +kernel
  have hcodec : t.link.codec = .json := rfl
  have hsubmit : t.staysCalm [.trySubmit longCommand] = true := rfl
  obtain ⟨hsubmission, ⟨turns, hturns, hcalm, hflushed⟩, -⟩ :=
    spared_iff_frames_fit hlink nofun hquiet hown hready hpeer hsubmit
  obtain ⟨hstill, hdone⟩ := hsubmission (.trySubmit longCommand) longCommand rfl
  obtain ⟨g, hg, hqueued⟩ : ∃ g, t.link.codec.serialize ⟨2⟩ longCommand = .ok g ∧
      t.queues (.trySubmit longCommand) = [g] := by
    have hposted := (t.posted_trySubmit_iff longCommand ⟨⟨2⟩, ⟨2⟩⟩).mpr hsubmitted
    rcases hdone with ⟨hnone, -⟩ | ⟨h, g, hone, hg, hqueued, -⟩
    · exact absurd (hposted.symm.trans hnone) (List.cons_ne_nil _ _)
    · obtain rfl : ⟨⟨2⟩, ⟨2⟩⟩ = h :=
        congrArg Prod.fst (List.singleton_injective (hposted.symm.trans hone))
      exact ⟨g, hg, hqueued⟩
  have hlong : Frame.maxSize < g.size := by
    rw [hcodec] at hg
    have hsize := Codec.length_le_size_of_mem_args hg (List.mem_singleton_self _)
    rwa [String.length_ofList, List.length_replicate] at hsize
  have hmem : g ∈ fresh.queuedIn (occupied ++ .trySubmit longCommand :: turns) := by
    have hlater : t.queuedIn (.trySubmit longCommand :: turns) =
        t.queues (.trySubmit longCommand) ++
          (t.perform (.trySubmit longCommand)).queuedIn turns := rfl
    rw [queuedIn_append, hlater, hqueued]
    exact List.mem_append_right _ (List.mem_cons_self ..)
  have hunanswered : t.answeredIn (.trySubmit longCommand :: turns) = [] :=
    answeredIn_of_isDelivery (s := t.perform (.trySubmit longCommand)) hturns
  obtain ⟨-, -, hiff, -, hfate⟩ :=
    spared_iff_frames_fit hlink nofun hquiet hown hready hpeer hcalm
  refine ⟨hready, hsubmitted, hstill, turns, hturns, hflushed, ?_⟩
  refine (hfate ⟨⟨1⟩, ⟨1⟩⟩ hpending ?_).resolve_left fun h => ?_
  · exact hunanswered ▸ List.not_mem_nil
  · exact Nat.not_le.mpr hlong ((hiff hflushed).mp h.1 g hmem)

end Scene

end Switchboard
