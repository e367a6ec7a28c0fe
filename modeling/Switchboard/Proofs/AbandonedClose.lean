import Switchboard.Proofs.CloseSequence

/-!
A close that is given up. Of all calls that close a link only the first can bring the close
to its end. If it is given up while the link is closing, the link stays so for good, unless
something breaks it: the requests that are pending have no outcome, and whoever waits for
the end waits for ever, also those who come later to close the link.
`stuck_iff_abandoned` says that there is no other way to be stuck.
-/
namespace Switchboard.Scene

open Registry (Sound Staged LeadsTo)

/-- The call that is to close the link is given up while the link is closing, and nothing
breaks the link afterwards. -/
def AbandonsClose (s : Scene) (acts : List Action) : Prop :=
  ∃ fore a rest, acts = fore ++ a :: rest ∧ (s.run fore).link.lifecycle = .closing ∧
    (s.run fore).givesUp a = true ∧ ((s.run fore).perform a).Unbroken rest

variable {s : Scene} {acts : List Action}

theorem Closing.run_of_abandonsClose (h : s.Closing) (hone : s.closers.length ≤ 1)
    (hown : ∀ a ∈ acts, a.isOwn = true) (ha : s.AbandonsClose acts) :
    (s.run acts).Closing ∧ (s.run acts).closers = [] := by
  obtain ⟨fore, a, rest, rfl, hclosing, hup, hunbroken⟩ := ha
  have hopen : (s.run fore).link.lifecycle ≠ .closed := Link.ne_closed_of_closing hclosing
  have hfore : (s.run fore).Closing := h.run hopen
  obtain ⟨hnobody, hsame⟩ := closers_of_givesUp ((h.length_closers_run hopen).trans hone) hup
  have hnext : ((s.run fore).perform a).Closing := hfore.perform (by rwa [hsame])
  rw [run_append, run_cons]
  exact hnext.run_of_unbroken hnobody (fun b hb => hown b (by simp [hb])) hunbroken

/-- If the closer has been given up and the link is not closed, that is how it came about. -/
theorem Closing.abandonsClose (h : s.Closing) (hown : ∀ a ∈ acts, a.isOwn = true)
    (hopen : (s.run acts).link.lifecycle ≠ .closed) (hgone : ¬ s.KeepsCloser acts) :
    s.AbandonsClose acts := by
  obtain ⟨fore, a, rest, rfl, hup⟩ := exists_of_not_throughout hgone
  rw [run_append] at hopen
  have hnext := open_of_run hopen
  have hfore : (s.run fore).Closing := by
    refine h.run fun hclosed => hnext ?_
    exact ((s.run fore).leadsTo_perform a).closed hclosed
  refine ⟨fore, a, rest, rfl, hfore.lifecycle, by simpa using hup, ?_⟩
  exact (hfore.perform hnext).unbroken (fun b hb => hown b (by simp [hb])) hopen

theorem not_abandonsClose_of_closed (h : s.link.lifecycle = .closed) :
    ¬ s.AbandonsClose acts := by
  rintro ⟨fore, a, rest, -, hclosing, -⟩
  exact Link.ne_closed_of_closing hclosing ((s.leadsTo_run fore).closed h)

/-- Whoever comes for the end of a link that is closed has not to wait. -/
theorem finished_of_closed {l : Link} (h : l.lifecycle = .closed) (now : Instant) :
    (l.close now).2 = .finished .done ∧ (Call.closed.poll now l).2 = .finished .done := by
  have hshut : l.lifecycle.isShuttingDown = true := by
    rw [h]
    rfl
  have hclosed : l.registry.isClosed = true := decide_eq_true h
  rw [Link.close_of_isShuttingDown hshut]
  simp [Call.poll, hclosed]

/-- With nobody to close the link, all who wait for its end wait on, and all who come do. -/
theorem Closing.waits (h : s.Closing) (hnobody : s.closers = []) :
    (∀ c ∈ s.calls, c.awaitsEnd = true → c.isStuck s.now s.link = true) ∧
      (s.link.close s.now).2 = .waiting .closed ∧
      (Call.closed.poll s.now s.link).2 = .waiting .closed := by
  have hopen : s.link.registry.isClosed = false := by
    refine decide_eq_false ?_
    exact Link.ne_closed_of_closing h.lifecycle
  have hwaits : (Call.closed.poll s.now s.link).2 = .waiting .closed := by
    simp [Call.poll, hopen]
  refine ⟨?_, ?_, hwaits⟩
  · intro c hc hawaits
    cases c with
    | closing deadline? => exact absurd rfl (List.filter_eq_nil_iff.mp hnobody _ hc)
    | closed => simp [Call.isStuck, hwaits]
    | _ => cases hawaits
  · rw [Link.close_of_isShuttingDown (Registry.isShuttingDown_of_closing h.lifecycle)]
    exact hwaits

/-- A close that finds the link not closing yet leaves it closed, or closing with the call
that is to close it. -/
theorem InOrder.closed_or_closing {o : Scene} (h : o.InOrder)
    (hfirst : o.link.lifecycle ≠ .closing) :
    (o.perform .close).link.lifecycle = .closed ∨
      o.link.closesAtOnce = false ∧ (o.perform .close).Closing ∧
        (o.perform .close).closers = [.closing (o.now.add? o.link.closeTimeout)] := by
  cases hshut : o.link.lifecycle.isShuttingDown with
  | true =>
    have hclosed := (of_decide_eq_true hshut).resolve_left hfirst
    exact Or.inl ((o.leadsTo_perform .close).closed hclosed)
  | false =>
    rcases h.perform_close hshut with ⟨-, hends⟩ | ⟨hlasts, hclosing, hclosers, -⟩
    · exact Or.inl hends.lifecycle
    · exact Or.inr ⟨hlasts, hclosing, hclosers⟩

/-- A closer that is not given up does not wait at rest longer than its time. -/
theorem Closing.closed_of_not_abandonsClose (h : s.Closing) {deadline? : Option Instant}
    (hclosers : s.closers = [.closing deadline?]) (hown : ∀ a ∈ acts, a.isOwn = true)
    (hrest : (s.run acts).AtRest) (hpassed : (s.run acts).now.passed deadline? = true)
    (hnot : ¬ s.AbandonsClose acts) : (s.run acts).link.lifecycle = .closed := by
  by_contra hopen
  have hkept : s.KeepsCloser acts := by
    by_contra hgone
    exact hnot (h.abandonsClose hown hopen hgone)
  have hdrains := (h.run hopen).drains ((h.closers_run hopen hkept).trans hclosers)
  rw [(hdrains.of_atRest hrest).2] at hpassed
  cases hpassed

/-- A link is closed, and everything is at rest when the time for its close is over. The link
is closed then just if the first call that closed it was not given up, or something broke the
link. If it is closed, nobody waits for that, and whoever comes later has not to. If not, it
goes on closing as long as nothing breaks it, and everybody waits. -/
theorem stuck_iff_abandoned {ceiling : Nat} {policy : Policy} {s : Scene}
    (hmake : Registry.make ceiling policy = .ok s.link.registry) (hcalls : s.calls = [])
    {before acts : List Action} (hfirst : (s.run before).link.lifecycle ≠ .closing)
    (hown : ∀ a ∈ acts, a.isOwn = true)
    (hrest : (((s.run before).perform .close).run acts).AtRest)
    (htime : (s.run before).link.closeTimeout.isZero = true ∨
      (((s.run before).perform .close).run acts).now.passed
        ((s.run before).now.add? (s.run before).link.closeTimeout) = true) :
    let first := (s.run before).perform .close
    let t := first.run acts
    (t.link.lifecycle = .closed ↔ ¬ first.AbandonsClose acts) ∧
      (t.link.lifecycle = .closed → (∀ c ∈ t.calls, c.awaitsEnd = false) ∧
        ∀ now, (t.link.close now).2 = .finished .done ∧
          (Call.closed.poll now t.link).2 = .finished .done) ∧
      (first.AbandonsClose acts → ∀ more, (∀ a ∈ more, a.isOwn = true) → t.Unbroken more →
        let u := t.run more
        u.link.lifecycle = .closing ∧
          (∀ c ∈ u.calls, c.awaitsEnd = true → c.isStuck u.now u.link = true) ∧
          (u.link.close u.now).2 = .waiting .closed ∧
          (Call.closed.poll u.now u.link).2 = .waiting .closed) := by
  intro first t
  have ho := (inOrder_of_make hmake hcalls).run before
  have ht : t.InOrder := (ho.perform .close).run acts
  have hover : t.link.lifecycle = .closed → (∀ c ∈ t.calls, c.awaitsEnd = false) ∧
      ∀ now, (t.link.close now).2 = .finished .done ∧
        (Call.closed.poll now t.link).2 = .finished .done :=
    fun hclosed => ⟨hrest.of_closed ht.staged hclosed, finished_of_closed hclosed⟩
  rcases ho.closed_or_closing hfirst with hclosed | ⟨hlasts, hclosing, hclosers⟩
  · have hnot : ¬ first.AbandonsClose acts := not_abandonsClose_of_closed hclosed
    have hstill : t.link.lifecycle = .closed := (first.leadsTo_run acts).closed hclosed
    exact ⟨⟨fun _ => hnot, fun _ => hstill⟩, hover, fun ha => absurd ha hnot⟩
  · have hone : first.closers.length ≤ 1 := by
      rw [hclosers]
      exact Nat.le_refl 1
    have hpassed : t.now.passed ((s.run before).now.add? (s.run before).link.closeTimeout) =
        true := by
      refine htime.resolve_left fun hzero => ?_
      simp [Link.closesAtOnce, hzero] at hlasts
    refine ⟨⟨?_, ?_⟩, hover, ?_⟩
    · intro hclosed ha
      have hstill := (hclosing.run_of_abandonsClose hone hown ha).1
      exact Link.ne_closed_of_closing hstill.lifecycle hclosed
    · exact hclosing.closed_of_not_abandonsClose hclosers hown hrest hpassed
    · intro ha more hmore hunbroken
      obtain ⟨hstill, hnobody⟩ := hclosing.run_of_abandonsClose hone hown ha
      obtain ⟨hu, hnobody⟩ := hstill.run_of_unbroken hnobody hmore hunbroken
      exact ⟨hu.lifecycle, hu.waits hnobody⟩

/-- Of two callers that close a link the first is given up, and the time is over. The link
is closing and the other waits, whatever happens but a breakage. -/
theorem stuck_when_first_is_given_up :
    let before := [.connect {}, .loop .send]
    let acts : List Action := [.close, .drop 0, .advance (Duration.ofSeconds 6)]
    let t := ((fresh.run before).perform .close).run acts
    t.AtRest ∧ t.now.passed (some ⟨5 * nanosPerSecond⟩) = true ∧ t.calls = [.closed] ∧
      t.link.lifecycle ≠ .closed ∧
      ∀ more, (∀ a ∈ more, a.isOwn = true) → t.Unbroken more →
        (t.run more).link.lifecycle = .closing := by
  intro before acts t
  have hmake : Registry.make 2 .block = .ok fresh.link.registry := rfl
  obtain ⟨hfirst, hclosing, hup, hunbroken⟩ :
      (fresh.run before).link.lifecycle ≠ .closing ∧
        (((fresh.run before).perform .close).run [.close]).link.lifecycle = .closing ∧
        (((fresh.run before).perform .close).run [.close]).givesUp (.drop 0) = true ∧
        ((((fresh.run before).perform .close).run [.close]).perform (.drop 0)).Unbroken
          [.advance (Duration.ofSeconds 6)] := by decide +kernel
  obtain ⟨hloop, hstill, htime, hpassed, hcalls⟩ :
      t.link.ready t.isHeld = [] ∧ (∀ c ∈ t.calls, c.isStuck t.now t.link = true) ∧
        ((fresh.run before).link.closeTimeout.isZero = true ∨ t.now.passed
          ((fresh.run before).now.add? (fresh.run before).link.closeTimeout) = true) ∧
        t.now.passed (some ⟨5 * nanosPerSecond⟩) = true ∧ t.calls = [.closed] := by decide +kernel
  have ht : t.AtRest := ⟨hloop, hstill⟩
  obtain ⟨hiff, -, hstuck⟩ := stuck_iff_abandoned hmake rfl hfirst (by decide) ht htime
  have habandons : ((fresh.run before).perform .close).AbandonsClose acts :=
    ⟨[.close], .drop 0, [.advance (Duration.ofSeconds 6)], rfl, hclosing, hup, hunbroken⟩
  refine ⟨ht, hpassed, hcalls, fun hclosed => hiff.mp hclosed habandons, ?_⟩
  intro more hmore hunbroken
  exact (hstuck habandons more hmore hunbroken).1

end Switchboard.Scene
