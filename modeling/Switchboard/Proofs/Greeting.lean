import Switchboard.Proofs.Courses
import Switchboard.Proofs.Duplicates
import Switchboard.Proofs.IdAgreement
import Switchboard.Proofs.QueuedFrames

/-!
How a link gets ready. An answer that accepts the handshake makes it ready while it
connects, and nothing else does. Nobody asks whether the handshake has been registered: if
the acceptance comes before `connect` is called, the link is ready without a setup, and
cannot be set up any more. `ready_by_acceptance` tells both ways apart: if `connect` has
registered the handshake at all, the acceptance came afterwards, settled it, and found the
setup at the head of all frames of the run.
-/
namespace Switchboard

open Registry (Sound Staged LeadsTo LeadsBy Change Proper)

namespace Registry

variable {r s : Registry} {op : Op} {granted : Option Handle}

theorem Change.connecting (hc : Change r op s granted) (h : s.lifecycle = .connecting) :
    r.lifecycle = .connecting := by
  rcases hc.lifecycle with hsame | ⟨-, hr, -⟩ | ⟨-, -, hs⟩ | ⟨-, -, hs⟩
  · exact hsame.symm.trans h
  · exact hr
  · exact absurd (hs.symm.trans h) (by decide)
  · exact absurd (hs.symm.trans h) (by decide)

theorem Change.ready (hc : Change r op s granted) (h : s.lifecycle = .ready)
    (hop : op ≠ .markReady) : r.lifecycle = .ready := by
  rcases hc.lifecycle with hsame | ⟨hmark, -, -⟩ | ⟨-, -, hs⟩ | ⟨-, -, hs⟩
  · exact hsame.symm.trans h
  · exact absurd hmark hop
  · exact absurd (hs.symm.trans h) (by decide)
  · exact absurd (hs.symm.trans h) (by decide)

theorem Change.greeted_eq (hc : Change r op s granted) (hop : op ≠ .greet) :
    s.greeted = r.greeted := by
  cases hc with
  | greets _ _ => exact absurd rfl hop
  | fails _ => exact greeted_drain _ _ _
  | waits _ _ => rfl
  | enters _ _ _ => rfl
  | stays _ => rfl
  | notes _ => rfl
  | strikes _ => rfl
  | opens _ => rfl
  | closes _ => rfl
  | failsLate _ => rfl

/-- The handshake is registered once for all. -/
theorem Change.greeted (hc : Change r op s granted) (h : r.greeted = true) :
    s.greeted = true := by
  by_cases hop : op = .greet
  · subst hop
    cases hc with
    | waits _ _ => exact h
    | enters _ _ _ => exact h
    | stays _ => exact h
    | greets _ _ => rfl
  · rw [hc.greeted_eq hop]
    exact h

theorem LeadsTo.connecting (h : r.LeadsTo s) (hs : s.lifecycle = .connecting) :
    r.lifecycle = .connecting := by
  by_contra hr
  exact h.preserves (I := fun s => s.lifecycle ≠ .connecting)
    (fun s op hne heq => hne ((change_of_act s op).connecting heq)) hr hs

theorem LeadsTo.greeted (h : r.LeadsTo s) (hr : r.greeted = true) : s.greeted = true :=
  h.preserves (fun s op hs => (change_of_act s op).greeted hs) hr

theorem Change.mem_of_connecting (hc : Change r op s granted) (hop : Proper r op)
    (hs : s.lifecycle = .connecting) {h : Handle} (hid : h.id = RequestId.handshake)
    (hh : h ∈ r.pending) : h ∈ s.pending := by
  cases hc with
  | waits _ _ => exact hh
  | enters _ _ _ => exact List.mem_append_left _ hh
  | stays _ => exact hh
  | greets _ _ => exact List.mem_append_left _ hh
  | notes _ => exact hh
  | @strikes g o hg =>
    obtain hop | hop | hne := hop
    · cases hop
    · cases hop
    · have hother : h ≠ g := by
        rintro rfl
        exact hne hs hid
      exact (List.mem_erase_of_ne hother).mpr hh
  | opens _ => exact hh
  | closes _ => cases hs
  | fails _ =>
    rw [lifecycle_drain] at hs
    cases hs
  | failsLate _ => exact hh

theorem LeadsBy.mem_of_connecting (hl : LeadsBy Proper r s) (hs : s.lifecycle = .connecting)
    {h : Handle} (hid : h.id = RequestId.handshake) (hh : h ∈ r.pending) : h ∈ s.pending := by
  refine hl.preserves (I := fun s => s.lifecycle = .connecting → h ∈ s.pending) ?_
    (fun _ => hh) hs
  intro s op hop hmem hafter
  have hc := change_of_act s op
  exact hc.mem_of_connecting hop hafter hid (hmem (hc.connecting hafter))

theorem Sound.not_isPending_handshake (hr : Sound r) (h : r.greeted = false) :
    r.isPending RequestId.handshake = false := by
  have hcount := hr.greeting
  rw [h, Bool.toNat_false, Nat.le_zero, List.count_eq_zero] at hcount
  rw [Bool.eq_false_iff]
  intro hpending
  obtain ⟨g, hg, hid⟩ := isPending_iff.mp hpending
  exact hcount (hid ▸ List.mem_map_of_mem hg)

end Registry

namespace Link

/-- The registry after an acceptance. -/
def opened (l : Link) : Registry :=
  ((l.registry.moveTo .ready).settle RequestId.handshake (.ok .ok)).1

theorem registry_onFrame_of_opens {l : Link} {f : Frame} (h : l.Opens f) :
    (l.onFrame f).registry = l.opened := by
  obtain ⟨hc, hf⟩ := h
  have hready : l.registry.markReady.1 = l.registry.moveTo .ready := by
    simp [Registry.markReady, show l.registry.lifecycle = .connecting from hc]
  rw [onFrame, hf]
  dsimp only
  rw [onResponse_handshake, onHandshake, if_neg (not_not_intro hc)]
  simp only [handshakeComplaint, registry_via, hready]
  rfl

theorem lifecycle_opened (l : Link) : l.opened.lifecycle = .ready :=
  Registry.lifecycle_settle _ _ _

theorem outcome?_opened {l : Link} (hl : Sound l.registry) {h : Handle}
    (hid : h.id = RequestId.handshake) (hh : h ∈ l.registry.pending) :
    l.opened.ledger.outcome? h.ticket = some (.ok .ok) := by
  have hmoved : Sound (l.registry.moveTo .ready) := hl.of_eq rfl rfl rfl rfl rfl rfl
  rw [opened, ← hid, Registry.settle_of_mem hmoved hh, Registry.ledger_strike]
  exact Ledger.outcome?_settle (hl.isOpen hh) _

theorem unmatched_opened {l : Link}
    (hnone : l.registry.isPending RequestId.handshake = false) :
    l.opened.unmatched = l.registry.unmatched ++ [RequestId.handshake] := by
  have hmoved : (l.registry.moveTo .ready).isPending RequestId.handshake = false := hnone
  rw [opened, Registry.settle_of_not_isPending hmoved]
  rfl

end Link

namespace Scene

/-- After the actions `before` of a run, `connect` registers the handshake. -/
def Greets (s : Scene) (acts before : List Action) (c : Setup) (h : Handle) : Prop :=
  before ++ [.connect c] <+: acts ∧ ((s.run before).link.connect c).2 = .ok h

theorem run_through (s : Scene) (before rest : List Action) (a : Action) :
    s.run (before ++ [a] ++ rest) = ((s.run before).perform a).run rest := by
  rw [run_append, run_append]
  rfl

theorem registry_perform_of_opens {s : Scene} {a : Action} {f : Frame}
    (ha : s.delivered? a = some f) (hf : s.link.Opens f) :
    (s.perform a).link.registry = s.link.opened := by
  cases a with
  | frame g =>
    obtain rfl : g = f := Option.some.inj ha
    exact Link.registry_onFrame_of_opens hf
  | loop e =>
    cases e with
    | receive =>
      simp only [delivered?] at ha
      cases hitem : s.link.inboundItem with
      | mk item d =>
        simp only [hitem] at ha
        cases item with
        | frame g =>
          split_ifs at ha with hready
          obtain rfl : g = f := Option.some.inj ha
          rw [perform, if_pos hready, Link.handle, Link.receive, hitem]
          exact Link.registry_onFrame_of_opens (l := { s.link with
            deframer := d, stream := { s.link.stream with inbound := .empty } }) hf
        | starved | finished | fault => cases ha
    | send => cases ha
    | continueWriting => cases ha
    | stop => cases ha
    | release => cases ha
  | _ => cases ha

/-! The way to ready -/

/-- Only an acceptance makes a link ready. -/
theorem opens_of_ready {s : Scene} (hquiet : s.Quiet) {a : Action} (hown : a.isOwn = true)
    (hready : (s.perform a).link.lifecycle = .ready) (hnot : s.link.lifecycle ≠ .ready) :
    ∃ f, s.delivered? a = some f ∧ s.link.Opens f := by
  by_contra hnone
  have hroutine : Link.Routine fun _ op => op ≠ .markReady :=
    Link.routine_quiet.mono fun _ _ => Registry.Quiet.ne_markReady
  have hallows : s.Allows (fun _ op => op ≠ .markReady) a :=
    hquiet.allows hown (fun _ _ => Registry.Quiet.ne_markReady) (fun _ _ => Registry.Op.noConfusion)
      fun f hf hopens => absurd ⟨f, hf, hopens⟩ hnone
  refine (leadsBy_perform hroutine s a hallows).preserves
    (I := fun r => r.lifecycle ≠ .ready) ?_ hnot hready
  intro r op hop hne heq
  exact hne ((Registry.change_of_act r op).ready heq hop)

theorem exists_acceptance {s : Scene} (hquiet : s.Quiet) {acts : List Action}
    (hown : ∀ a ∈ acts, a.isOwn = true) (hready : (s.run acts).link.lifecycle = .ready)
    (hnot : s.link.lifecycle ≠ .ready) :
    ∃ before a f, before ++ [a] <+: acts ∧ (s.run before).delivered? a = some f ∧
      (s.run before).link.Opens f := by
  induction acts generalizing s with
  | nil => exact absurd hready hnot
  | cons a acts ih =>
    have ha : a.isOwn = true := hown a List.mem_cons_self
    by_cases hnext : (s.perform a).link.lifecycle = .ready
    · obtain ⟨f, hf, hopens⟩ := opens_of_ready hquiet ha hnext hnot
      exact ⟨[], a, f, List.prefix_append _ _, hf, hopens⟩
    · obtain ⟨before, b, f, hstart, hf, hopens⟩ :=
        ih (hquiet.perform a) (fun b hb => hown b (List.mem_cons_of_mem a hb)) hready hnext
      exact ⟨a :: before, b, f, (List.cons_prefix_cons).mpr ⟨rfl, hstart⟩, hf, hopens⟩

/-! The registration of the handshake -/

theorem greeted_perform {s : Scene} (hquiet : s.Quiet) {a : Action} (hown : a.isOwn = true)
    (hconnect : ∀ c, a ≠ .connect c) :
    (s.perform a).link.registry.greeted = s.link.registry.greeted := by
  have hroutine : Link.Routine fun _ op => op ≠ .greet :=
    Link.routine_quiet.mono fun _ _ => Registry.Quiet.ne_greet
  have hallows : s.Allows (fun _ op => op ≠ .greet) a :=
    hquiet.allows hown (fun _ _ => Registry.Quiet.ne_greet) (fun c hc => absurd hc (hconnect c))
      fun _ _ _ => Registry.Op.noConfusion
  refine (leadsBy_perform hroutine s a hallows).preserves
    (I := fun r => r.greeted = s.link.registry.greeted) ?_ rfl
  intro r op hop hr
  exact ((Registry.change_of_act r op).greeted_eq hop).trans hr

theorem greets_of_greeted {s : Scene} (hquiet : s.Quiet) {acts : List Action}
    (hown : ∀ a ∈ acts, a.isOwn = true) (hnot : s.link.registry.greeted = false)
    (hgreeted : (s.run acts).link.registry.greeted = true) :
    ∃ before c h, s.Greets acts before c h := by
  induction acts generalizing s with
  | nil => exact absurd (hnot.symm.trans hgreeted) (by decide)
  | cons a acts ih =>
    have ha : a.isOwn = true := hown a List.mem_cons_self
    cases hnext : (s.perform a).link.registry.greeted with
    | true =>
      have hconnect : ∃ c, a = .connect c := by
        by_contra hnone
        have hsame := greeted_perform hquiet ha (not_exists.mp hnone)
        exact absurd (hnext.symm.trans (hsame.trans hnot)) (by decide)
      obtain ⟨c, rfl⟩ := hconnect
      rcases s.queues_connect c with ⟨f, hf, hsame, -⟩ | ⟨h, -, hh, -⟩
      · rw [hsame, hnot] at hnext
        cases hnext
      · exact ⟨[], c, h, List.prefix_append _ _, hh⟩
    | false =>
      obtain ⟨before, c, h, hstart, hh⟩ :=
        ih (hquiet.perform a) (fun b hb => hown b (List.mem_cons_of_mem a hb)) hnext hgreeted
      exact ⟨a :: before, c, h, List.cons_prefix_cons.mpr ⟨rfl, hstart⟩, hh⟩

theorem Greets.greet_ok {s : Scene} {acts before : List Action} {c : Setup} {h : Handle}
    (hg : s.Greets acts before c h) : (s.run before).link.registry.greet.2 = .ok h := by
  rcases (s.run before).link.connect_cases c with ⟨f, hf, -⟩ | ⟨h', hgreet, hh, -⟩
  · rw [hg.2] at hf
    cases hf
  · obtain rfl : h = h' := Except.ok.inj (hg.2.symm.trans hh)
    exact hgreet

/-- The registration takes place while the link connects, and is the first. -/
theorem Greets.connecting {s : Scene} {acts before : List Action} {c : Setup} {h : Handle}
    (hg : s.Greets acts before c h) :
    (s.run before).link.lifecycle = .connecting ∧
      (s.run before).link.registry.greeted = false ∧ h.id = RequestId.handshake := by
  obtain ⟨hconnecting, hgreeted, hnext, -⟩ := Registry.greet_of_ok hg.greet_ok
  refine ⟨hconnecting, hgreeted, ?_⟩
  rw [hnext]
  rfl

theorem queuedIn_eq_nil {s : Scene} (hquiet : s.Quiet) {acts : List Action}
    (hconnecting : (s.run acts).link.lifecycle = .connecting)
    (hgreeted : (s.run acts).link.registry.greeted = false) : s.queuedIn acts = [] := by
  induction acts generalizing s with
  | nil => rfl
  | cons a acts ih =>
    have hrest := (s.perform a).leadsTo_run acts
    have hnext : (s.perform a).link.lifecycle = .connecting := hrest.connecting hconnecting
    have hhere : s.link.lifecycle = .connecting := (s.leadsTo_perform a).connecting hnext
    have hnone : s.queues a = [] := by
      by_cases hconnect : ∃ c, a = .connect c
      · obtain ⟨c, rfl⟩ := hconnect
        rcases s.queues_connect c with ⟨-, -, -, hnone⟩ | ⟨h, hgreet, -, ⟨hclosed, -⟩ | ⟨hr, -⟩⟩
        · exact hnone
        · exact absurd (hclosed.symm.trans hnext) (by decide)
        · -- the handshake would stay registered
          have hset : (s.perform (.connect c)).link.registry.greeted = true := by
            rw [hr, (Registry.greet_of_ok hgreet).2.2.2]
          exact absurd ((hrest.greeted hset).symm.trans hgreeted) (by decide)
      · refine queues_eq_nil hquiet ?_ (not_exists.mp hconnect)
        rw [hhere]
        decide
    rw [queuedIn, hnone, ih (hquiet.perform a) hconnecting hgreeted]
    rfl

/-- The setup is the first frame that is put into the queue, unless the link is closed. -/
theorem Greets.first {s : Scene} (hquiet : s.Quiet) {acts before : List Action} {c : Setup}
    {h : Handle} (hg : s.Greets acts before c h)
    (hopen : (s.run acts).link.lifecycle ≠ .closed) :
    ((s.run before).perform (.connect c)).link.registry =
        (s.run before).link.registry.greet.1 ∧
      ∃ g rest, (s.run before).link.codec.serialize RequestId.handshake (.connect c) = .ok g ∧
        s.queuedIn acts = g :: rest := by
  obtain ⟨hconnecting, hgreeted, -⟩ := hg.connecting
  obtain ⟨⟨rest, hacts⟩, hok⟩ := hg
  have hnone : s.queuedIn before = [] := queuedIn_eq_nil hquiet hconnecting hgreeted
  have hrest := ((s.run before).perform (.connect c)).leadsTo_run rest
  rcases (s.run before).queues_connect c with
    ⟨f, hf, -⟩ | ⟨-, -, -, ⟨hclosed, -⟩ | ⟨hr, g, hg, hqueue⟩⟩
  · rw [hok] at hf
    cases hf
  · refine absurd ?_ hopen
    rw [← hacts, run_through]
    exact hrest.closed hclosed
  · refine ⟨hr, g, ((s.run before).perform (.connect c)).queuedIn rest, hg, ?_⟩
    rw [← hacts, List.append_assoc, queuedIn_append, hnone, List.singleton_append, queuedIn, hqueue]
    rfl

theorem Greets.pending {s : Scene} (hquiet : s.Quiet) {acts before : List Action}
    (hown : ∀ a ∈ acts, a.isOwn = true) {c : Setup} {h : Handle}
    (hg : s.Greets acts before c h) (hconnecting : (s.run acts).link.lifecycle = .connecting) :
    h ∈ (s.run acts).link.registry.pending := by
  have hafter := (hg.first hquiet (by rw [hconnecting]; decide)).1
  obtain ⟨-, -, hid⟩ := hg.connecting
  have hmem : h ∈ ((s.run before).perform (.connect c)).link.registry.pending := by
    obtain ⟨-, -, hnext, hr⟩ := Registry.greet_of_ok hg.greet_ok
    rw [hafter, hr, hnext]
    exact List.mem_append_right _ (List.mem_singleton_self _)
  obtain ⟨⟨rest, hacts⟩, -⟩ := hg
  have hrest : ∀ a ∈ rest, a.isOwn = true := by
    intro a ha
    refine hown a ?_
    rw [← hacts]
    exact List.mem_append_right _ ha
  rw [← hacts, run_through] at hconnecting ⊢
  exact (((hquiet.run before).perform _).leadsBy_run hrest).mem_of_connecting hconnecting hid hmem

theorem Greets.length_lt {s : Scene} {acts before later : List Action} {c : Setup} {h : Handle}
    (hg : s.Greets acts before c h) (hlater : later <+: acts)
    (hready : (s.run later).link.lifecycle = .ready) : before.length < later.length := by
  by_contra hge
  have hbefore : before <+: acts := (List.prefix_append _ _).trans hg.1
  obtain ⟨rest, rfl⟩ : later <+: before :=
    List.prefix_of_prefix_length_le hlater hbefore (Nat.le_of_not_lt hge)
  have hconnecting := hg.connecting.1
  rw [run_append] at hconnecting
  have hstill := ((s.run later).leadsTo_run rest).connecting hconnecting
  exact absurd (hready.symm.trans hstill) (by decide)

theorem Greets.earlier {s : Scene} {acts before accepted : List Action} {c : Setup} {h : Handle}
    {a : Action} {f : Frame} (hg : s.Greets acts before c h) (hstart : accepted ++ [a] <+: acts)
    (ha : (s.run accepted).delivered? a = some f) (hf : (s.run accepted).link.Opens f) :
    before ++ [.connect c] <+: accepted := by
  have hready : (s.run (accepted ++ [a])).link.lifecycle = .ready := by
    rw [run_append]
    change ((s.run accepted).perform a).link.registry.lifecycle = .ready
    rw [registry_perform_of_opens ha hf]
    exact Link.lifecycle_opened _
  have hlt := hg.length_lt hstart hready
  rw [List.length_append, List.length_singleton] at hlt
  have hne : before.length ≠ accepted.length := by
    -- one action would be both
    intro heq
    have hsame : before ++ [.connect c] = accepted ++ [a] :=
      (List.prefix_of_prefix_length_le hg.1 hstart (by simp [heq])).eq_of_length (by simp [heq])
    obtain rfl : Action.connect c = a :=
      List.singleton_inj.mp (List.append_inj hsame heq).2
    cases ha
  refine List.prefix_of_prefix_length_le hg.1 ((List.prefix_append _ _).trans hstart) ?_
  rw [List.length_append, List.length_singleton]
  omega

/-- Once the link is ready, the handshake is not registered any more. -/
theorem Greets.of_append {s : Scene} {acts more before : List Action} {c : Setup} {h : Handle}
    (hg : s.Greets (acts ++ more) before c h) (hready : (s.run acts).link.lifecycle = .ready) :
    s.Greets acts before c h := by
  have hwhole : acts <+: acts ++ more := List.prefix_append _ _
  have hlt := hg.length_lt hwhole hready
  refine ⟨List.prefix_of_prefix_length_le hg.1 hwhole ?_, hg.2⟩
  rw [List.length_append, List.length_singleton]
  exact hlt

/-- Whenever a link is ready in a run, an answer that accepts the handshake has made it so.
If `connect` registers the handshake in the run, it does so before that answer comes, which
is its outcome, and the setup is the first of all frames that are put into the queue. If
not, the answer is noted as one to nobody, and the handshake will never be registered. -/
theorem ready_by_acceptance {ceiling : Nat} {policy : Policy} {s : Scene}
    (hmake : Registry.make ceiling policy = .ok s.link.registry) (hcalls : s.calls = [])
    {acts : List Action} (hown : ∀ a ∈ acts, a.isOwn = true)
    (hready : (s.run acts).link.lifecycle = .ready) :
    ∃ accepted a f, accepted ++ [a] <+: acts ∧ (s.run accepted).delivered? a = some f ∧
      (s.run accepted).link.Opens f ∧
      (∀ before c h, s.Greets acts before c h →
        before ++ [.connect c] <+: accepted ∧ h.id = RequestId.handshake ∧
          h ∈ (s.run accepted).link.registry.pending ∧
          (s.run acts).link.outcome? h = some (.ok .ok) ∧
          ∃ g rest, (s.run before).link.codec.serialize RequestId.handshake (.connect c) = .ok g ∧
            s.queuedIn acts = g :: rest) ∧
      ((∀ before c h, ¬ s.Greets acts before c h) →
        (s.run accepted).link.registry.isPending RequestId.handshake = false ∧
          (s.run (accepted ++ [a])).link.registry.unmatched =
            (s.run accepted).link.registry.unmatched ++ [RequestId.handshake] ∧
          ∀ more before c h, ¬ s.Greets (acts ++ more) before c h) := by
  have hquiet := quiet_of_calls hcalls
  have hfresh : s.link.lifecycle ≠ .ready ∧ s.link.registry.greeted = false := by
    obtain ⟨g, -, hr⟩ := Registry.eq_of_make hmake
    rw [Link.lifecycle, hr]
    exact ⟨Lifecycle.noConfusion, rfl⟩
  obtain ⟨accepted, a, f, hstart, ha, hf⟩ := exists_acceptance hquiet hown hready hfresh.1
  have hsound : Sound (s.run accepted).link.registry :=
    (s.leadsTo_run accepted).sound (Registry.sound_of_make hmake)
  obtain ⟨rest, hacts⟩ := hstart
  have hopened : (s.run (accepted ++ [a])).link.registry = (s.run accepted).link.opened := by
    rw [run_append]
    exact registry_perform_of_opens ha hf
  have hrun : s.run acts = (s.run (accepted ++ [a])).run rest := by rw [← hacts, run_append]
  have hlater : (s.run accepted).link.opened.LeadsTo (s.run acts).link.registry := by
    rw [← hopened, hrun]
    exact leadsTo_run _ rest
  have hownBefore : ∀ b ∈ accepted, b.isOwn = true := by
    intro b hb
    refine hown b ?_
    rw [← hacts]
    exact List.mem_append_left _ (List.mem_append_left _ hb)
  refine ⟨accepted, a, f, ⟨rest, hacts⟩, ha, hf, ?_, ?_⟩
  · intro before c h hg
    have hearlier := hg.earlier ⟨rest, hacts⟩ ha hf
    obtain ⟨-, -, hid⟩ := hg.connecting
    have hfirst := (hg.first hquiet (by rw [hready]; decide)).2
    have hmem : h ∈ (s.run accepted).link.registry.pending :=
      Greets.pending hquiet hownBefore ⟨hearlier, hg.2⟩ hf.1
    have hsettled := hlater.outcome? (Link.outcome?_opened hsound hid hmem)
    exact ⟨hearlier, hid, hmem, hsettled, hfirst⟩
  · intro hnever
    have hgreeted : (s.run accepted).link.registry.greeted = false := by
      by_contra hset
      obtain ⟨before, c, h, hbefore, hok⟩ :=
        greets_of_greeted hquiet hownBefore hfresh.2 (Bool.not_eq_false _ ▸ hset)
      have hwhole : accepted <+: acts := (List.prefix_append _ _).trans ⟨rest, hacts⟩
      exact hnever before c h ⟨hbefore.trans hwhole, hok⟩
    have hnone := hsound.not_isPending_handshake hgreeted
    refine ⟨hnone, ?_, fun more before c h hg => hnever before c h (hg.of_append hready)⟩
    rw [hopened]
    exact Link.unmatched_opened hnone

/-- The handshake is accepted, and a request is sent. -/
def greeted : List Action := [.connect {}, .frame acceptance, .trySubmit (.transaction [])]

/-- The same, but nobody has called `connect`. -/
def ungreeted : List Action := [.frame acceptance, .trySubmit (.transaction [])]

theorem ready_with_and_without_setup :
    (fresh.run greeted).link.outcome? ⟨RequestId.handshake, ⟨0⟩⟩ = some (.ok .ok) ∧
      (∃ g rest, Codec.json.serialize RequestId.handshake (.connect {}) = .ok g ∧
        fresh.queuedIn greeted = g :: rest) ∧
      (fresh.run ungreeted).link.lifecycle = .ready ∧ fresh.queuedIn ungreeted ≠ [] ∧
      ∀ more before c h, ¬ fresh.Greets (ungreeted ++ more) before c h := by
  have hmake : Registry.make 2 .block = .ok fresh.link.registry := rfl
  have hgreeted : ∀ a ∈ greeted, a.isOwn = true := by decide
  have hungreeted : ∀ a ∈ ungreeted, a.isOwn = true := by decide
  have hready : (fresh.run ungreeted).link.lifecycle = .ready := by decide +kernel
  obtain ⟨_, _, _, -, -, -, hset, -⟩ :=
    ready_by_acceptance hmake rfl hgreeted (by decide +kernel)
  obtain ⟨_, _, _, -, -, -, -, hunset⟩ := ready_by_acceptance hmake rfl hungreeted hready
  have hgreets : fresh.Greets greeted [] {} ⟨RequestId.handshake, ⟨0⟩⟩ :=
    ⟨List.prefix_append _ _, rfl⟩
  obtain ⟨-, -, -, houtcome, hfirst⟩ := hset _ _ _ hgreets
  have hnever : ∀ before c h, ¬ fresh.Greets ungreeted before c h := by
    rintro before c h ⟨hstart, -⟩
    have hmem : Action.connect c ∈ ungreeted := hstart.mem (List.mem_append_right _ (by simp))
    simp [ungreeted] at hmem
  exact ⟨houtcome, hfirst, hready, by decide +kernel, (hunset hnever).2.2⟩

end Scene

end Switchboard
