import Switchboard.Proofs.Demultiplexing
import Switchboard.Proofs.Onlookers

/-!
When a wait has run out, nothing has happened to the request: it is pending as before, and an
answer that comes later settles it for everybody else who looks. `waiting_is_local` puts this
together with what waits end with and with what they leave alone.
-/
namespace Switchboard

open Registry (Sound Staged)

namespace Link

variable {l l' : Link} {h : Handle} {b : Body}

/-- The link has come to an answer for the request of a handle. -/
structure Answered (l : Link) (h : Handle) (b : Body) (l' : Link) : Prop where
  /-- Whoever looks at the handle from now on is shown the answer. -/
  shows : l'.Shows h b.outcome
  /-- The identifier belongs to nobody. -/
  unused : l'.registry.isPending h.id = false
  /-- The identifier is the next to be issued, and a slot has come back to the gate. -/
  freed : (∀ m, b ≠ .closingError m) → l'.registry.pending = l.registry.pending.erase h ∧
    l'.registry.ids.acquire.1 = h.id ∧ l'.registry.gate.slots = l.registry.gate.slots + 1
  /-- If the peer closes, nothing is pending any more, and all slots are in the gate. -/
  ended : ∀ m, b = .closingError m → l'.lifecycle = .closed ∧ l'.registry.pending = [] ∧
    l'.registry.gate.slots = l'.registry.gate.ceiling

theorem answered_onFrame (hl : Sound l.registry) (hs : Staged l.registry)
    (hh : h ∈ l.registry.pending) (hid : h.id ≠ RequestId.handshake) {f : Frame}
    (hf : l.codec.deserialize f = .ok ⟨h.id, b⟩) : l.Answered h b (l.onFrame f) := by
  have hshows := shows_of_outcome? (outcome?_onFrame hl hh hid hf)
  have hsound : Sound (l.onFrame f).registry := (l.leadsTo_onFrame f).sound hl
  simp only [onFrame, hf] at hshows hsound ⊢
  have hopen : l.lifecycle ≠ .closed := by
    intro hclosed
    rw [hs.closed hclosed] at hh
    exact absurd hh List.not_mem_nil
  rcases l.onResponse_of_ordinary hid b with ⟨m, rfl, -⟩ | ⟨hb, heq⟩
  · obtain ⟨e, hends, -, -⟩ := endsWith_onResponse hl hs hopen m (Or.inl hid)
    have hslots := hsound.slots
    refine ⟨hshows, ?_, fun hb => absurd rfl (hb m), fun _ _ => ?_⟩
    · rw [Registry.isPending, hends.pending]
      rfl
    · refine ⟨hends.lifecycle, hends.pending, ?_⟩
      rw [Registry.ordinaryIds, hends.pending] at hslots
      exact hslots
  · have hregistry : (l.onResponse ⟨h.id, b⟩).registry = l.registry.strike h b.outcome := by
      rw [heq, settle_via hl hh]
    have hordinary : h.id.isHandshake = false := by simp [RequestId.isHandshake, hid]
    refine ⟨hshows, ?_, fun _ => ?_, fun m hm => absurd hm (hb m)⟩
    · rw [hregistry, Bool.eq_false_iff]
      intro hpending
      obtain ⟨g, hg, hgid⟩ := Registry.isPending_iff.mp hpending
      rw [← Registry.settle_of_mem hl hh, Registry.mem_settle_iff hl] at hg
      exact hg.2 hgid
    · rw [hregistry]
      refine ⟨rfl, IdPool.acquire_release hid, ?_⟩
      simp [Registry.strike, Registry.discharge_eq, hordinary]

theorem Answered.of_registry {k : Link} (hanswered : k.Answered h b l')
    (hk : k.registry = l.registry) : l.Answered h b l' := by
  obtain ⟨hshows, hunused, hfreed, hended⟩ := hanswered
  rw [hk] at hfreed
  exact ⟨hshows, hunused, hfreed, hended⟩

end Link

namespace Scene

variable {s t : Scene}

/-- What can be relied on in a run of a link by those who wait, and by those who do not. -/
structure KeepsWaitsApart (s : Scene) (incidents : List Incident) : Prop where
  honours : ∀ k h d, (s.runIncidents incidents).Honours k h d
  /-- The second half of a call that sends a request is such a wait. -/
  executes : ∀ g h p d l', (s.runIncidents incidents).link.transmit g p = (l', .ok h) →
    let now := (s.runIncidents incidents).now
    Link.proceed now (.execute p d) ((s.runIncidents incidents).link, .granted g) =
      (l', match Wait.executing.look now h d now l' with
        | some o => .finished (.outcome o)
        | none => .waiting (.answered h d (now.add? d)))
  /-- A wait that looks again takes its leave with what it finds, or nothing happens. -/
  looks : ∀ (k : Wait) start h d c i, k.call? start h d = some c →
    (s.runIncidents incidents).calls[i]? = some c →
      (s.runIncidents incidents).perform (.poll i) =
        match k.look start h d (s.runIncidents incidents).now (s.runIncidents incidents).link with
        | some o => { s.runIncidents incidents with
            calls := (s.runIncidents incidents).calls.eraseIdx i
            answers := (s.runIncidents incidents).answers ++ [.outcome o] }
        | none => s.runIncidents incidents
  /-- Without the onlookers all would have been the same. -/
  apart : ∀ (t : Scene) others, s.withoutWaits = t.withoutWaits →
    s.deeds incidents = t.deeds others →
    (s.runIncidents incidents).link = (t.runIncidents others).link ∧
      (s.runIncidents incidents).now = (t.runIncidents others).now ∧
      (s.runIncidents incidents).calls.filter Call.holdsLink =
        (t.runIncidents others).calls.filter Call.holdsLink ∧
      s.takenIn incidents = t.takenIn others
  /-- In a session, whoever has a handle reads, clones, blocks and waits unnoticed. -/
  reads : ∀ (q : Session) h step, q.Overlooks (q.handleStep h step).1
  /-- A wait in a session is given up unnoticed. -/
  givesUp : ∀ (q : Session) name p, q.calls.find? (fun p => p.1 = name) = some p →
    p.2.holdsLink = false → ∃ r, q.cancel name = some r ∧ q.Overlooks r
  /-- Whatever a wait ends with, it is the outcome of the request, or the request is pending
  at the end of the wait as it was at the beginning. -/
  stays : ∀ h ∈ (s.runIncidents incidents).link.registry.pending, ∀ k d stretches o,
    (s.runIncidents incidents).awaits k h d stretches = some o →
      ∃ t ∈ (s.runIncidents incidents).moments stretches, t.link.outcome? h = some o ∨
        h ∈ t.link.registry.pending ∧ k.isOver (s.runIncidents incidents).now d t.now = true ∧
          o = .error (.responseTimeout h.id d.wholeMillis)
  /-- The answer to a request that is pending is for everybody who looks, and frees what the
  request has held. -/
  answered : ∀ h ∈ (s.runIncidents incidents).link.registry.pending, h.id ≠ RequestId.handshake →
    ∀ a f b, (s.runIncidents incidents).delivered? a = some f →
      (s.runIncidents incidents).link.codec.deserialize f = .ok ⟨h.id, b⟩ →
        (s.runIncidents incidents).link.Answered h b ((s.runIncidents incidents).perform a).link

theorem pending_of_unsettled (hl : Sound s.link.registry) (hs : Staged s.link.registry)
    {h : Handle} (hh : h ∈ s.link.registry.pending) {incidents : List Incident}
    (hnone : (s.runIncidents incidents).link.outcome? h = none) :
    h ∈ (s.runIncidents incidents).link.registry.pending := by
  obtain ⟨ops, hops⟩ := s.leadsTo_runIncidents incidents
  obtain ⟨houtcome, hstays⟩ := Registry.outcome?_run_of_pending hl hs hh ops
  rw [Link.outcome?, hops, houtcome] at hnone
  rw [hops]
  exact hstays hnone

/-- In every run of a link: a wait up to a limit ends with the outcome of the request if it is
there before the time is over, and otherwise for lack of time; and it is nobody's business but
that of whoever waits. -/
theorem waiting_is_local {ceiling : Nat} {policy : Policy}
    (hmake : Registry.make ceiling policy = .ok s.link.registry) (incidents : List Incident) :
    s.KeepsWaitsApart incidents := by
  have hleads := s.leadsTo_runIncidents incidents
  have hsound : Sound (s.runIncidents incidents).link.registry :=
    hleads.sound (Registry.sound_of_make hmake)
  have hstaged : Staged (s.runIncidents incidents).link.registry :=
    hleads.staged (Registry.staged_of_make hmake)
  refine ⟨fun k h d => honours _ k h d, ?_, ?_, ?_,
    fun q h step => q.overlooks_handleStep h step,
    fun q name p hfind hp => Session.overlooks_cancel hfind hp, ?_, ?_⟩
  · intro g h p d l' hsent
    exact Link.proceed_execute hsent _
  · intro k start h d c i hc hi
    exact perform_poll_of_wait hc hi
  · intro t others hstart hdeeds
    obtain ⟨hsame, htaken⟩ := eq_of_deeds hstart hdeeds
    have hlink := congrArg Scene.link hsame
    have hnow := congrArg Scene.now hsame
    have hcalls := congrArg Scene.calls hsame
    exact ⟨hlink, hnow, hcalls, htaken⟩
  · intro h hh k d stretches o hends
    obtain ⟨t, ht, houtcome | ⟨hnone, hover, ho⟩⟩ := (honours _ k h d).ends stretches o hends
    · exact ⟨t, ht, Or.inl houtcome⟩
    · obtain ⟨seen, -, rfl⟩ := mem_moments_iff.mp ht
      exact ⟨_, ht, Or.inr ⟨pending_of_unsettled hsound hstaged hh hnone, hover, ho⟩⟩
  · intro h hh hid a f b hdelivered hf
    obtain ⟨k, hregistry, hcodec, hperform⟩ := perform_of_delivered hdelivered
    rw [hperform]
    rw [← hcodec] at hf
    rw [← hregistry] at hsound hstaged hh
    exact (Link.answered_onFrame hsound hstaged hh hid hf).of_registry hregistry

/-- A request is pending, and somebody waits for it no longer than five milliseconds. When six
have gone by, the request is pending still; then comes the answer. -/
theorem answer_after_expiry :
    let t := fresh.runIncidents inService
    let late := t.runIncidents [.act (.advance (Duration.ofMillis 6))]
    t.awaits .timed ⟨⟨1⟩, ⟨1⟩⟩ (Duration.ofMillis 5) [[.act (.advance (Duration.ofMillis 6))]] =
        some (.error (.responseTimeout ⟨1⟩ 5)) ∧
      ⟨⟨1⟩, ⟨1⟩⟩ ∈ late.link.registry.pending ∧
      late.link.Answered ⟨⟨1⟩, ⟨1⟩⟩ .ok (late.perform (.frame (success ⟨1⟩))).link := by
  have hmake : Registry.make 2 .block = .ok fresh.link.registry := rfl
  have hexpires := ((waiting_is_local hmake inService).honours .timed ⟨⟨1⟩, ⟨1⟩⟩
    (Duration.ofMillis 5)).expires [[.act (.advance (Duration.ofMillis 6))]] []
  have hanswered := (waiting_is_local hmake
    (inService ++ [.act (.advance (Duration.ofMillis 6))])).answered
  have hcodec : (fresh.runIncidents inService).link.codec = fresh.link.codec :=
    fresh.codec_runIncidents inService
  have hstate : ⟨⟨1⟩, ⟨1⟩⟩ ∈ (fresh.runIncidents inService).link.registry.pending ∧
      ((fresh.runIncidents inService).link.outcome? ⟨⟨1⟩, ⟨1⟩⟩).isNone = true ∧
      Wait.timed.isOver (fresh.runIncidents inService).now (Duration.ofMillis 5)
        ((fresh.runIncidents inService).now.advance (Duration.ofMillis 6)) = true := by
    decide +kernel
  rw [runIncidents_append] at hanswered
  generalize fresh.runIncidents inService = t at hexpires hanswered hcodec hstate
  intro t' late
  obtain ⟨hpending, hnone, hover⟩ := hstate
  refine ⟨hexpires (Option.isNone_iff_eq_none.mp hnone) hover, hpending, ?_⟩
  refine hanswered _ hpending (by decide) (.frame (success ⟨1⟩)) _ _ rfl ?_
  change t.link.codec.deserialize (success ⟨1⟩) = _
  rw [hcodec]
  rfl

/-- An answer that comes before a wait looks again ends it, however late it is. -/
theorem awaits_of_late_answer {k : Wait} {h : Handle} {d : Duration} {f : Frame} {o : Outcome}
    (hnone : t.link.outcome? h = none) (hover : k.isOver t.now d t.now = false)
    (ho : (t.link.onFrame f).outcome? h = some o) (e : Duration) :
    t.awaits k h d [[.act (.advance e), .act (.frame f)]] = some o := by
  have hfirst := Wait.look_eq_none_iff.mpr ⟨hnone, hover⟩
  have hlink : (t.runIncidents [.act (.advance e), .act (.frame f)]).link = t.link.onFrame f := rfl
  rw [← hlink] at ho
  rw [awaits, moments, moments, List.findSome?_cons, hfirst, List.findSome?_singleton]
  exact Wait.look_of_settled ho

/-- Half a millisecond is allowed for a wait, and the answer comes after seven tenths of one:
the wait ends with the answer. So does one of five milliseconds if the answer comes in the
sixth, before the wait has had a look. -/
theorem waits_off_their_limits :
    let t := fresh.runIncidents inService
    let after (d : Duration) := t.runIncidents [.act (.advance d)]
    let awaited (d e : Duration) := t.awaits .timed ⟨⟨1⟩, ⟨1⟩⟩ d
      [[.act (.advance e), .act (.frame (success ⟨1⟩))]]
    (∀ d, (after d).link.outcome? ⟨⟨1⟩, ⟨1⟩⟩ = none) ∧
      t.now.nanos + (Duration.ofMicros 500).nanos < (after (Duration.ofMicros 700)).now.nanos ∧
      awaited (Duration.ofMicros 500) (Duration.ofMicros 700) = some (.ok .ok) ∧
      Wait.timed.isOver t.now (Duration.ofMillis 5) (after (Duration.ofMillis 6)).now = true ∧
      awaited (Duration.ofMillis 5) (Duration.ofMillis 6) = some (.ok .ok) := by
  have hmake : Registry.make 2 .block = .ok fresh.link.registry := rfl
  have hsound : Sound (fresh.runIncidents inService).link.registry :=
    (fresh.leadsTo_runIncidents inService).sound (Registry.sound_of_make hmake)
  have hcodec : (fresh.runIncidents inService).link.codec = fresh.link.codec :=
    fresh.codec_runIncidents inService
  have hstate : ⟨⟨1⟩, ⟨1⟩⟩ ∈ (fresh.runIncidents inService).link.registry.pending ∧
      (fresh.runIncidents inService).now = ⟨0⟩ := by decide +kernel
  generalize fresh.runIncidents inService = t at hsound hcodec hstate
  obtain ⟨hpending, hnow⟩ := hstate
  have hnone : t.link.outcome? ⟨⟨1⟩, ⟨1⟩⟩ = none := hsound.outcome?_eq_none hpending
  have hf : t.link.codec.deserialize (success ⟨1⟩) = .ok ⟨⟨1⟩, .ok⟩ := by
    rw [hcodec]
    rfl
  have hanswered := Link.outcome?_onFrame hsound hpending (by decide) hf
  have hawaited : ∀ d e, Wait.timed.isOver t.now d t.now = false →
      t.awaits .timed ⟨⟨1⟩, ⟨1⟩⟩ d
        [[.act (.advance e), .act (.frame (success ⟨1⟩))]] = some (.ok .ok) :=
    fun _ e hover => awaits_of_late_answer hnone hover hanswered e
  intro t' after awaited
  have hafter : ∀ d, (after d).now = t.now.advance d := fun d => rfl
  refine ⟨fun d => hnone, ?_, hawaited _ _ ?_, ?_, hawaited _ _ ?_⟩
  · rw [hafter, hnow]
    decide +kernel
  · rw [hnow]
    decide +kernel
  · rw [hafter, hnow]
    decide +kernel
  · rw [hnow]
    decide +kernel

end Scene

end Switchboard
