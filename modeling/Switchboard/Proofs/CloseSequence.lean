import Switchboard.Proofs.Closers

/-!
The close of a link, from the first call that closes it to the end. From then on the link
takes no request and sends nothing, and those that are pending have their answers or wait.
The close is over at once if no time is allowed for it or nothing is pending, and otherwise
with the first action that ends it. Nobody who waits for the end is told of it before the
link is closed, and at rest nobody waits for the end of a link that is.
-/
namespace Switchboard

open Registry (Sound Staged LeadsTo)

namespace Link

variable {l : Link}

/-- Whatever is asked of the link, its answer is the failure. -/
structure TurnsAway (l : Link) (f : Failure) : Prop where
  register : l.registry.register = (l.registry, .refused f)
  tryRegister : l.registry.tryRegister = (l.registry, .error f)
  resume : ∀ w, (l.registry.resume w).2 = .refused f
  greet : l.registry.greet = (l.registry, .error f)
  send : ∀ frame, l.send frame = (l, .error f)

theorem exists_turnsAway (hgate : l.registry.gate.shut = true)
    (hshut : l.lifecycle.isShuttingDown = true) : ∃ f, l.TurnsAway f := by
  have hne : l.registry.lifecycle ≠ .connecting := by
    intro hc
    rw [lifecycle, hc] at hshut
    cases hshut
  have hready : l.registry.lifecycle ≠ .ready := by
    intro hr
    rw [lifecycle, hr] at hshut
    cases hshut
  cases hrejection : l.registry.rejection with
  | none => exact absurd ((Registry.rejection_eq_none_iff _).mp hrejection) hready
  | some f =>
    refine ⟨f, ?_, ?_, ?_, ?_, ?_⟩
    · simp [Registry.register, hrejection]
    · simp [Registry.tryRegister, hrejection]
    · intro w
      simp [Registry.resume, Gate.claim, hgate, Registry.onAdmission, hrejection]
    · simp [Registry.greet, hne, hrejection]
    · intro frame
      simp [send, hrejection]

/-- What a pending request is told by an answer while the link is closing. -/
def told (h : Handle) (b : Body) : Outcome :=
  if h.id.isHandshake then .error (.closing "connection is closing") else b.outcome

theorem outcome?_onFrame_of_closing (hl : Sound l.registry) (hc : l.lifecycle = .closing)
    {h : Handle} (hh : h ∈ l.registry.pending) {f : Frame} {b : Body}
    (hf : l.codec.deserialize f = .ok ⟨h.id, b⟩) :
    (l.onFrame f).outcome? h = some (told h b) := by
  by_cases hid : h.id = RequestId.handshake
  · have hhandshake : h.id.isHandshake = true := (RequestId.isHandshake_iff _).mpr hid
    have hlate : lateHandshake l.registry = .closing "connection is closing" := by
      simp [lateHandshake, Registry.rejection_of_closing hc]
    rw [hid] at hf
    simp only [onFrame, hf]
    rw [onResponse_handshake, onHandshake, if_pos (ne_connecting_of_closing hc), hlate, ← hid,
      settle_via hl hh, told, hhandshake]
    rw [outcome?, Registry.ledger_strike]
    exact Ledger.outcome?_settle (hl.isOpen hh) _
  · have hordinary : h.id.isHandshake = false := by simp [RequestId.isHandshake, hid]
    rw [outcome?_onFrame hl hh hid hf, told, hordinary]
    rfl

/-- Whether a close is over at its first look. -/
def closesAtOnce (l : Link) : Bool := l.closeTimeout.isZero || l.registry.isDrained

/-- The first call that closes a link ends it at once, or leaves it closing with the same
requests and waits. -/
theorem close_of_open (hl : Sound l.registry) (hopen : l.lifecycle.isShuttingDown = false)
    (now : Instant) :
    (l.closesAtOnce = true ∧ (l.close now).2 = .finished .done ∧
        l.EndsWith (l.close now).1 closedByClient) ∨
      (l.closesAtOnce = false ∧ (l.close now).2 = .waiting (.closing (now.add? l.closeTimeout)) ∧
        (l.close now).1.lifecycle = .closing ∧
        (l.close now).1.registry.pending = l.registry.pending) := by
  have hopen' : l.registry.lifecycle.isShuttingDown = false := hopen
  have hbegin : l.via Registry.beginClosing =
      ({ l with registry := l.registry.beginClosing.1 }, true) := by
    simp [via, Registry.beginClosing, hopen']
  have hclosing : l.registry.beginClosing.1.lifecycle = .closing := by
    simp [Registry.beginClosing, hopen', Registry.moveTo]
  have hpending := l.registry.pending_beginClosing
  have hsound : Sound l.registry.beginClosing.1 := (LeadsTo.after _ .beginClosing).sound hl
  have hends : l.EndsWith
      (finishClose { l with registry := l.registry.beginClosing.1 }) closedByClient := by
    refine (endsWith_finishClose hsound ?_).of_pending hpending
    exact ne_closed_of_closing (l := { l with registry := l.registry.beginClosing.1 }) hclosing
  have hdrained : l.registry.beginClosing.1.isDrained = l.registry.isDrained := by
    rw [Registry.isDrained, hpending, Registry.isDrained]
  unfold close
  rw [hbegin]
  cases hzero : l.closeTimeout.isZero with
  | true =>
    left
    simp only [hzero, if_true, closesAtOnce, Bool.true_or]
    exact ⟨trivial, trivial, hends⟩
  | false =>
    have hearly := Instant.passed_add?_self hzero now
    cases hnil : l.registry.isDrained with
    | true =>
      left
      simp only [hzero, Bool.false_eq_true, if_false, closesAtOnce, hnil, Call.poll, hdrained,
        Bool.true_or, Bool.or_true, if_true]
      exact ⟨trivial, trivial, hends⟩
    | false =>
      right
      simp only [hzero, Bool.false_eq_true, if_false, closesAtOnce, hnil, Call.poll, hdrained,
        hearly, Bool.or_false]
      exact ⟨trivial, trivial, hclosing, hpending⟩

end Link

namespace Scene

/-- A frame that an action hands to the link is dealt with as if it came by itself. -/
theorem perform_of_delivered {s : Scene} {a : Action} {f : Frame}
    (h : s.delivered? a = some f) :
    ∃ k : Link, k.registry = s.link.registry ∧ k.codec = s.link.codec ∧
      (s.perform a).link = k.onFrame f := by
  cases a with
  | frame g =>
    cases h
    exact ⟨s.link, rfl, rfl, rfl⟩
  | loop e =>
    cases e with
    | receive =>
      cases hitem : s.link.inboundItem with
      | mk item d =>
        cases item with
        | frame g =>
          by_cases hready : .receive ∈ s.link.ready s.isHeld
          · simp only [delivered?, hitem, hready, if_true, Option.some.injEq] at h
            subst h
            refine ⟨{ s.link with deframer := d, stream.inbound := .empty }, rfl, rfl, ?_⟩
            simp only [perform, hready, if_true, Link.handle, Link.receive, hitem]
          · simp [delivered?, hitem, hready] at h
        | _ => simp [delivered?, hitem] at h
    | _ => cases h
  | _ => cases h

/-- A link that is closing, with the call that is to close it by the deadline, if there is
one. -/
structure Drains (s : Scene) (deadline? : Option Instant) : Prop where
  closers : s.closers = [.closing deadline?]
  /-- A pending request has the outcome that its answer says, and leaves the others pending
  unless the answer ends the link; the handshake fails. -/
  answers : ∀ a f h b, s.delivered? a = some f → h ∈ s.link.registry.pending →
    s.link.codec.deserialize f = .ok ⟨h.id, b⟩ →
    (s.perform a).link.outcome? h = some (Link.told h b) ∧
      ((s.perform a).link.lifecycle = .closed ∨
        (s.perform a).link.registry.pending = s.link.registry.pending.erase h)
  /-- The link goes on closing until an action ends it. -/
  fares : ∀ a, a.isOwn = true → s.link.Fares (s.ending? a) (s.perform a).link

theorem Closing.drains {s : Scene} (h : s.Closing) {deadline? : Option Instant}
    (hclosers : s.closers = [.closing deadline?]) : s.Drains deadline? where
  closers := hclosers
  answers a f g b hf hg hread := by
    obtain ⟨k, hregistry, hcodec, heq⟩ := perform_of_delivered hf
    have hsound : Sound k.registry := hregistry ▸ h.inOrder.sound
    have hclosing : k.lifecycle = .closing := by
      rw [Link.lifecycle, hregistry]
      exact h.lifecycle
    have hmem : g ∈ k.registry.pending := hregistry ▸ hg
    have hread' : k.codec.deserialize f = .ok ⟨g.id, b⟩ := hcodec ▸ hread
    rw [heq]
    refine ⟨Link.outcome?_onFrame_of_closing hsound hclosing hmem hread', ?_⟩
    simp only [Link.onFrame, hread']
    rcases Link.onResponse_cases hsound hmem b with hclosed | ⟨r, hr, hpending, -⟩
    · exact Or.inl hclosed
    · right
      rw [hr, hpending, hregistry]
  fares _ hown := h.fares hown

/-- What brought a close to its end that began in `s`, and with which failure. All that was
still pending then has the failure for its outcome. -/
def ConcludedBy (s : Scene) (acts : List Action) (e : Failure) : Prop :=
  let told (u : Scene) := ∀ h ∈ u.link.registry.pending,
    ((s.perform .close).run acts).link.outcome? h = some (.error e)
  (s.link.closesAtOnce = true ∧ e = Link.closedByClient ∧ told s) ∨
    ∃ fore a rest, acts = fore ++ a :: rest ∧
      let u := (s.perform .close).run fore
      u.link.lifecycle = .closing ∧ u.ending? a = some e ∧ told u

theorem Quiet.closers {s : Scene} (h : s.Quiet)
    (hopen : s.link.lifecycle.isShuttingDown = false) : s.closers = [] := by
  refine List.filter_eq_nil_iff.mpr fun c hc hcloser => ?_
  obtain ⟨deadline?, rfl⟩ := Call.exists_of_isCloser hcloser
  rcases h _ hc with ⟨-, m, hm⟩ | ⟨hshut, -⟩
  · cases hm
  · exact Bool.noConfusion (hopen.symm.trans hshut)

/-- With the first close the link is closed at once, or it is closing and the close waits. -/
theorem InOrder.perform_close {s : Scene} (h : s.InOrder)
    (hopen : s.link.lifecycle.isShuttingDown = false) :
    (s.link.closesAtOnce = true ∧
        s.link.EndsWith (s.perform .close).link Link.closedByClient) ∨
      s.link.closesAtOnce = false ∧ (s.perform .close).Closing ∧
        (s.perform .close).closers = [.closing (s.now.add? s.link.closeTimeout)] ∧
        (s.perform .close).link.registry.pending = s.link.registry.pending := by
  have hcases := Link.close_of_open h.sound hopen s.now
  have hlink : (s.perform .close).link = (s.link.close s.now).1 := link_join s _
  rw [← hlink] at hcases
  rcases hcases with ⟨honce, -, hends⟩ | ⟨hlasts, hwaits, hclosing, hpending⟩
  · exact Or.inl ⟨honce, hends⟩
  · refine Or.inr ⟨hlasts, ⟨h.perform .close, hclosing⟩, ?_, hpending⟩
    have hnobody := h.quiet.closers hopen
    rw [Scene.perform]
    generalize s.link.close s.now = p at hwaits
    obtain ⟨l, p⟩ := p
    obtain rfl : p = .waiting _ := hwaits
    rw [Scene.closers, join, List.filter_append, ← Scene.closers, hnobody]
    rfl

/-- Nobody is told that the link is closed before it is: neither whoever waits for it nor
whoever comes to close it. -/
theorem closed_of_told (s : Scene) {p : Link × Progress}
    (hp : p = s.link.close s.now ∨ ∃ c ∈ s.calls, c.awaitsEnd = true ∧ p = c.poll s.now s.link)
    (hshut : s.link.lifecycle.isShuttingDown = true) {a : Answer} (ha : p.2 = .finished a) :
    p.1.lifecycle = .closed := by
  rcases hp with rfl | ⟨c, -, hawaits, rfl⟩
  · rw [Link.close_of_isShuttingDown hshut] at ha ⊢
    exact Call.closed_of_finished rfl ha
  · exact Call.closed_of_finished hawaits ha

theorem Drains.of_atRest {t : Scene} {deadline? : Option Instant} (h : t.Drains deadline?)
    (hrest : t.AtRest) :
    t.link.registry.pending ≠ [] ∧ t.now.passed deadline? = false := by
  have hmem : .closing deadline? ∈ t.closers := by
    rw [h.closers]
    exact List.mem_singleton_self _
  exact hrest.of_closer (List.mem_filter.mp hmem).1

/-- After the first close the link is closing, or the close has come to its end. -/
theorem InOrder.drains_or_concluded {o : Scene} (h : o.InOrder)
    (hopen : o.link.lifecycle.isShuttingDown = false) {acts : List Action}
    (hown : ∀ a ∈ acts, a.isOwn = true) (hkept : (o.perform .close).KeepsCloser acts) :
    let t := (o.perform .close).run acts
    t.link.lifecycle = .closing ∧ t.Drains (o.now.add? o.link.closeTimeout) ∨
      t.link.lifecycle = .closed ∧ ∃ e, t.link.registry.closedWith = some e ∧
        o.ConcludedBy acts e := by
  intro t
  have hlater := (o.perform .close).leadsTo_run acts
  rcases h.perform_close hopen with ⟨honce, hends⟩ | ⟨-, hclosing, hclosers, -⟩
  · right
    refine ⟨hlater.closed hends.lifecycle, Link.closedByClient, ?_, Or.inl ⟨honce, rfl, ?_⟩⟩
    · exact (hlater.closedWith hends.lifecycle).trans hends.closedWith
    · intro g hg
      exact hlater.outcome? (hends.outcome g hg)
  · by_cases hend : t.link.lifecycle = .closed
    · right
      obtain ⟨fore, a, rest, e, hacts, hfore, hending, hends⟩ :=
        hclosing.exists_ending hown hend
      have hrun : t = (((o.perform .close).run fore).perform a).run rest := by
        simp only [t, hacts, run_append, run_cons]
      have hrest : (((o.perform .close).run fore).perform a).link.registry.LeadsTo
          t.link.registry := hrun ▸ leadsTo_run _ rest
      refine ⟨hend, e, (hrest.closedWith hends.lifecycle).trans hends.closedWith,
        Or.inr ⟨fore, a, rest, hacts, hfore.lifecycle, hending, ?_⟩⟩
      intro g hg
      exact hrest.outcome? (hends.outcome g hg)
    · left
      have ht : t.Closing := hclosing.run hend
      exact ⟨ht.lifecycle, ht.drains ((hclosing.closers_run hend hkept).trans hclosers)⟩

theorem InOrder.closed_perform_close_iff {o : Scene} (h : o.InOrder)
    (hopen : o.link.lifecycle.isShuttingDown = false) :
    (o.perform .close).link.lifecycle = .closed ↔ o.link.closesAtOnce = true := by
  rcases h.perform_close hopen with ⟨honce, hends⟩ | ⟨hlasts, hclosing, -⟩
  · exact ⟨fun _ => honce, fun _ => hends.lifecycle⟩
  · have hne := Link.ne_closed_of_closing hclosing.lifecycle
    refine ⟨fun hclosed => absurd hclosed hne, fun honce => ?_⟩
    exact Bool.noConfusion (hlasts.symm.trans honce)

/-- The first close adds nothing to what is pending. -/
theorem InOrder.pending_perform_close {o : Scene} (h : o.InOrder)
    (hopen : o.link.lifecycle.isShuttingDown = false) :
    (o.perform .close).link.registry.pending.Sublist o.link.registry.pending := by
  rcases h.perform_close hopen with ⟨-, hends⟩ | ⟨-, -, -, hpending⟩
  · rw [hends.pending]
    exact List.nil_sublist _
  · rw [hpending]

/-- A link that is connecting or ready is closed, and the call that closes it is not given
up. From then on nothing is registered or sent, and no request joins those that are pending.
The link is closed at once if nothing is pending or no time is allowed. Otherwise it is
closing until it is closed: by the closer, when nothing is pending or its time is over, or by
what breaks the link, whichever comes first. The time is over with the first whole millisecond
at or after the deadline. Whatever is still pending fails with the failure of the end. Whoever
waits for the end is told of it when the link is closed and not before. -/
theorem close_sequence {ceiling : Nat} {policy : Policy} {s : Scene}
    (hmake : Registry.make ceiling policy = .ok s.link.registry) (hcalls : s.calls = [])
    {before acts : List Action}
    (hopen : (s.run before).link.lifecycle.isShuttingDown = false)
    (hown : ∀ a ∈ acts, a.isOwn = true)
    (hkept : ((s.run before).perform .close).KeepsCloser acts) :
    let o := s.run before
    let deadline? := o.now.add? o.link.closeTimeout
    let t := (o.perform .close).run acts
    ((∃ f, t.link.TurnsAway f) ∧
      t.link.registry.pending.Sublist o.link.registry.pending ∧
      ∀ more, (t.run more).link.registry.pending.Sublist t.link.registry.pending) ∧
    ((o.perform .close).link.lifecycle = .closed ↔ o.link.closesAtOnce = true) ∧
    (t.link.lifecycle = .closing ∧ t.Drains deadline? ∨
      t.link.lifecycle = .closed ∧ ∃ e, t.link.registry.closedWith = some e ∧
        o.ConcludedBy acts e) ∧
    (∀ now : Instant, now.nanos < Instant.limit →
      (now.passed deadline? = true ↔ ∃ ms,
        o.now.nanos + o.link.closeTimeout.nanos ≤ ms * nanosPerMilli ∧
          ms * nanosPerMilli ≤ now.nanos)) ∧
    (∀ p, (p = t.link.close t.now ∨
        ∃ c ∈ t.calls, c.awaitsEnd = true ∧ p = c.poll t.now t.link) →
      ∀ answer, p.2 = .finished answer → p.1.lifecycle = .closed) ∧
    (t.AtRest →
      t.link.lifecycle = .closing ∧ t.link.registry.pending ≠ [] ∧
          t.now.passed deadline? = false ∨
        t.link.lifecycle = .closed ∧ ∀ c ∈ t.calls, c.awaitsEnd = false) := by
  intro o deadline? t
  have ho : o.InOrder := (inOrder_of_make hmake hcalls).run before
  have ht : t.InOrder := (ho.perform .close).run acts
  have hlater := (o.perform .close).leadsTo_run acts
  have hfirst : (o.perform .close).link.lifecycle.isShuttingDown = true := by
    rw [perform, link_join]
    exact o.link.isShuttingDown_close o.now
  have hshut : t.link.lifecycle.isShuttingDown = true := hlater.isShuttingDown hfirst
  have hstate := ho.drains_or_concluded hopen hown hkept
  refine ⟨⟨Link.exists_turnsAway (ht.shut.trans hshut) hshut, ?_, ?_⟩,
    ho.closed_perform_close_iff hopen, hstate, ?_, ?_, ?_⟩
  · exact (hlater.pending_sublist hfirst).trans (ho.pending_perform_close hopen)
  · intro more
    exact (t.leadsTo_run more).pending_sublist hshut
  · intro now hnow
    exact Instant.passed_add?_iff_of_lt hnow
  · intro p hp answer hanswer
    exact t.closed_of_told hp hshut hanswer
  · intro hrest
    rcases hstate with ⟨hclosing, hdrains⟩ | ⟨hclosed, -⟩
    · exact Or.inl ⟨hclosing, hdrains.of_atRest hrest⟩
    · exact Or.inr ⟨hclosed, hrest.of_closed ht.staged hclosed⟩

/-- Two callers close a link that serves a request, and the peer does not answer. At rest the
link is closing, until the stream breaks. -/
theorem close_while_serving :
    let before := serving ++ [.loop .send]
    let t := ((fresh.run before).perform .close).run [.close]
    t.link.lifecycle = .closing ∧ t.calls = [.closing (some ⟨5 * nanosPerSecond⟩), .closed] ∧
      t.AtRest ∧ t.link.registry.pending ≠ [] ∧ t.Drains (some ⟨5 * nanosPerSecond⟩) ∧
      t.link.EndsWith (t.perform (.fault (.io "reset"))).link
        (.closing "connection lost: IO error: reset") := by
  intro before t
  have hmake : Registry.make 2 .block = .ok fresh.link.registry := rfl
  obtain ⟨hopen, hkept, hdeadline⟩ :
      (fresh.run before).link.lifecycle.isShuttingDown = false ∧
        ((fresh.run before).perform .close).KeepsCloser [.close] ∧
        (fresh.run before).now.add? (fresh.run before).link.closeTimeout =
          some ⟨5 * nanosPerSecond⟩ := by decide +kernel
  obtain ⟨hclosing, hcalls, hloop, hstill, hending⟩ :
      t.link.lifecycle = .closing ∧ t.calls = [.closing (some ⟨5 * nanosPerSecond⟩), .closed] ∧
        t.link.ready t.isHeld = [] ∧ (∀ c ∈ t.calls, c.isStuck t.now t.link = true) ∧
        t.ending? (.fault (.io "reset")) =
          some (.closing "connection lost: IO error: reset") := by decide +kernel
  obtain ⟨-, -, hstate, -, -, hrest⟩ := close_sequence hmake rfl hopen (by decide) hkept
  have hrun : ((fresh.run before).perform .close).run [.close] = t := rfl
  rw [hrun, hdeadline] at hstate hrest
  have ht : t.AtRest := ⟨hloop, hstill⟩
  have hne : t.link.lifecycle ≠ .closed := Link.ne_closed_of_closing hclosing
  obtain ⟨-, hdrains⟩ := hstate.resolve_right fun h => hne h.1
  obtain ⟨-, hpending, -⟩ := (hrest ht).resolve_right fun h => hne h.1
  have hfares := hdrains.fares (.fault (.io "reset")) rfl
  rw [hending] at hfares
  exact ⟨hclosing, hcalls, ht, hpending, hdrains, hfares⟩

end Scene

end Switchboard
