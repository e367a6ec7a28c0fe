import Switchboard.Proofs.BlockedWrites
import Switchboard.Proofs.Decisions
import Switchboard.Proofs.Waits

/-!
Attempts to connect. While a call waits that connects a link, nobody else holds the link: all
that happens is what the loop, the peer and the clock do, and the looks of the call itself.
The first thing that is decided then is what the call ends with, and what happens later makes
no difference to it. `Attempts` says so of every moment: it is kept by whatever happens, and
grows by what is decided.
-/
namespace Switchboard

open Registry (Sound Staged LeadsTo LeadsBy)

namespace Registry

theorem LeadsTo.moves_grow {r s : Registry} (h : r.LeadsTo s) : r.moves <+: s.moves := by
  refine h.preserves (I := fun s => r.moves <+: s.moves) ?_ (List.prefix_refl _)
  intro s op hs
  rw [moves_after]
  exact hs.trans (List.prefix_append _ _)

end Registry

/-- The limit and the deadline of a call that waits for the answer to the handshake. -/
def Call.greeting? : Call → Option (Duration × Instant)
  | .greeted _ limit deadline => some (limit, deadline)
  | _ => none

/-- What the look of a call decides. -/
def Call.decision? (now : Instant) (c : Call) : Option Decision :=
  c.greeting?.bind fun terms => Decision.byClock? now terms.1 terms.2

namespace Scene

/-- What can happen while only the call that connects holds the link. -/
def Incident.isAmbient : Incident → Bool
  | .act (.loop _) => true
  | .act (.poll _) => true
  | .act (.advance _) => true
  | .act (.peerWrite _) => true
  | .act .peerRead => true
  | .act .peerClose => true
  | .act _ => false
  | .readError _ => true
  | .writeError _ => true

theorem Incident.isOwn_of_isAmbient {i : Incident} (h : i.isAmbient = true) : i.isOwn = true := by
  cases i with
  | act a =>
    cases a with
    | registry op => cases h
    | _ => rfl
  | readError m => rfl
  | writeError m => rfl

/-- What an incident decides. -/
def decision? (s : Scene) : Incident → Option Decision
  | .act (.loop e) => if e ∈ s.link.ready s.isHeld then s.link.decisionOfEvent? e else none
  | .act (.poll i) => s.calls[i]?.bind (Call.decision? s.now)
  | .readError m => s.link.decisionOfReadError? m
  | .writeError m => s.link.decisionOfWriteError? m
  | _ => none

/-- The peer may read as much as it likes of what there is. -/
def Occurrence.isAmbient : Occurrence → Bool
  | incident i => i.isAmbient
  | _ => true

/-- What an occurrence decides. That the peer reads decides nothing. -/
def decides? (s : Scene) : Occurrence → Option Decision
  | .incident i => s.decision? i
  | .sip _ => none
  | .resize _ => none

/-- The first thing that is decided in a run. -/
def firstDecision? : Scene → List Occurrence → Option Decision
  | _, [] => none
  | s, o :: rest => (s.decides? o).or (firstDecision? (s.onOccurrence o) rest)

variable {s t t' : Scene} {h : Handle} {limit : Duration} {deadline : Instant} {i : Incident}

/-- The call that connects waits, and nothing has been decided. -/
structure Expects (t : Scene) (h : Handle) (limit : Duration) (deadline : Instant) : Prop where
  calls : t.calls = [.greeted h limit deadline]
  answers : t.answers = []
  connecting : t.link.lifecycle = .connecting
  pending : h ∈ t.link.registry.pending
  unasked : t.link.shutdown = false

/-- The call has ended with what has been decided, or will when it looks. -/
structure Decided (t : Scene) (h : Handle) (limit : Duration) (deadline : Instant)
    (d : Decision) : Prop where
  call : t.calls = [] ∧ t.answers = [d.answer] ∨
    t.calls = [.greeted h limit deadline] ∧ t.answers = [] ∧ d.isExpiry = false ∧
      t.link.outcome? h = some d.outcome
  course : d.course <+: t.link.registry.moves
  late : d.isExpiry = true → d = .expired limit ∧ t.now.reached deadline = true

/-- Whether it is decided yet what becomes of the call, and if so, what. -/
def Resolves (t : Scene) (h : Handle) (limit : Duration) (deadline : Instant) :
    Option Decision → Prop
  | none => t.Expects h limit deadline
  | some d => t.Decided h limit deadline d

/-! One incident -/

theorem isExpiry_decision?_of_not_look (hlook : ∀ n, i ≠ .act (.poll n)) {d : Decision}
    (hd : t.decision? i = some d) : d.isExpiry = false := by
  cases i with
  | readError m =>
    simp only [decision?, Link.decisionOfReadError?] at hd
    split at hd <;> cases hd
    rfl
  | writeError m =>
    simp only [decision?, Link.decisionOfWriteError?] at hd
    split at hd <;> cases hd <;> rfl
  | act a =>
    cases a with
    | loop e =>
      simp only [decision?, Option.ite_none_right_eq_some] at hd
      exact Link.isExpiry_decisionOfEvent? hd.2
    | poll n => exact absurd rfl (hlook n)
    | _ => cases hd

theorem calls_onIncident_of_not_look (hi : i.isAmbient = true) (hlook : ∀ n, i ≠ .act (.poll n)) :
    (t.onIncident i).calls = t.calls ∧ (t.onIncident i).answers = t.answers := by
  cases i with
  | readError m => exact ⟨rfl, rfl⟩
  | writeError m => exact ⟨rfl, rfl⟩
  | act a =>
    cases a with
    | loop e =>
      rw [onIncident, perform]
      split <;> exact ⟨rfl, rfl⟩
    | poll n => exact absurd rfl (hlook n)
    | advance d => exact ⟨rfl, rfl⟩
    | peerWrite b => exact ⟨rfl, rfl⟩
    | peerRead => exact ⟨rfl, rfl⟩
    | peerClose => exact ⟨rfl, rfl⟩
    | _ => cases hi

namespace Expects

variable (he : t.Expects h limit deadline)

include he

theorem isHeld : t.isHeld = true := by
  simp [Scene.isHeld, he.calls, Call.holdsLink]

/-- The link heeds what an incident decides. -/
theorem heeds (hl : Sound t.link.registry) (hs : Staged t.link.registry)
    (hi : i.isAmbient = true) (hlook : ∀ n, i ≠ .act (.poll n)) :
    t.link.Heeds (t.decision? i) (t.onIncident i).link := by
  have hc := he.connecting
  cases i with
  | readError m => exact Link.heeds_failRead hl hc m
  | writeError m => exact Link.heeds_failWrite hl hc m
  | act a =>
    cases a with
    | loop e =>
      simp only [decision?, onIncident, perform]
      split_ifs with hready
      · rw [he.isHeld] at hready
        exact Link.heeds_handle hl hc hs he.unasked hready
      · exact ⟨hc, rfl, rfl⟩
    | poll n => exact absurd rfl (hlook n)
    | advance d => exact ⟨hc, rfl, rfl⟩
    | peerWrite b => exact ⟨hc, rfl, rfl⟩
    | peerRead => exact ⟨hc, rfl, rfl⟩
    | peerClose => exact ⟨hc, rfl, rfl⟩
    | _ => cases hi

/-- When the link has heeded what is decided, it is known what becomes of the call. -/
theorem resolves_of_heeds (hl : Sound t.link.registry) (hs : Staged t.link.registry)
    {d : Option Decision} (hheeds : t.link.Heeds d t'.link)
    (hcalls : t'.calls = t.calls ∧ t'.answers = t.answers)
    (htold : ∀ e, d = some e → e.isExpiry = false) (hcourse : t'.link.registry.OnCourse) :
    t'.Resolves h limit deadline d := by
  have hcall := hcalls.1.trans he.calls
  have hnone := hcalls.2.trans he.answers
  cases d with
  | none =>
    obtain ⟨hconnecting, hpending, hshutdown⟩ := hheeds
    exact ⟨hcall, hnone, hconnecting, hpending ▸ he.pending, hshutdown.trans he.unasked⟩
  | some e =>
    have hexpiry := htold e rfl
    have hid : h.id = RequestId.handshake := hs.connecting he.connecting h he.pending
    refine ⟨Or.inr ⟨hcall, hnone, hexpiry, hheeds.told hl hid he.pending⟩, ?_, ?_⟩
    · exact (hheeds.course hcourse).symm ▸ List.prefix_refl _
    · exact fun h => Bool.noConfusion (hexpiry.symm.trans h)

theorem resolves_rejoin {l : Link} {d : Option Decision}
    (hclock : ∀ e, d = some e → e = .expired limit ∧ t.now.reached deadline = true)
    (hheeds : t.link.Heeds d l) (hcourse : l.registry.OnCourse) :
    (t.rejoin 0 (l, (Call.greeted h limit deadline).heeding d)).Resolves h limit deadline d := by
  cases d with
  | none =>
    obtain ⟨hconnecting, hpending, hshutdown⟩ := hheeds
    refine ⟨?_, he.answers, hconnecting, hpending ▸ he.pending, hshutdown.trans he.unasked⟩
    simp [rejoin, Call.heeding, he.calls]
  | some e =>
    refine ⟨Or.inl ⟨?_, ?_⟩, ?_, fun _ => hclock e rfl⟩
    · simp [rejoin, Call.heeding, he.calls]
    · simp [rejoin, Call.heeding, he.answers]
    · rw [link_rejoin]
      exact (hheeds.course hcourse).symm ▸ List.prefix_refl _

theorem resolves_look (hl : Sound t.link.registry) (n : Nat)
    (hcourse : (t.onIncident (.act (.poll n))).link.registry.OnCourse) :
    (t.onIncident (.act (.poll n))).Resolves h limit deadline (t.decision? (.act (.poll n))) := by
  cases n with
  | succ n =>
    have hnobody : t.calls[n + 1]? = none := by simp [he.calls]
    simp only [decision?, onIncident, perform, hnobody]
    exact he
  | zero =>
    have hfirst : t.calls[0]? = some (.greeted h limit deadline) := by simp [he.calls]
    obtain ⟨hheeds, hgoes⟩ := Link.heeds_awaitGreeting hl he.connecting he.pending t.now limit
      deadline
    have hdecision : t.decision? (.act (.poll 0)) = Decision.byClock? t.now limit deadline := by
      rw [decision?, hfirst, Option.bind_some, Call.decision?, Call.greeting?, Option.bind_some]
    have hscene : t.onIncident (.act (.poll 0)) =
        t.rejoin 0 (t.link.awaitGreeting t.now h limit deadline) := by
      simp only [onIncident, perform, hfirst, Call.poll]
    have hclock : ∀ e, Decision.byClock? t.now limit deadline = some e →
        e = .expired limit ∧ t.now.reached deadline = true := fun _ => Decision.of_byClock?
    rw [hdecision]
    rw [hscene] at hcourse ⊢
    rw [link_rejoin] at hcourse
    generalize t.link.awaitGreeting t.now h limit deadline = a at hheeds hgoes hcourse ⊢
    obtain ⟨l, p⟩ := a
    obtain rfl := hgoes
    exact he.resolves_rejoin hclock hheeds hcourse

end Expects

namespace Decided

variable {d : Decision} (hd : t.Decided h limit deadline d)

include hd

theorem look : (t.onIncident (.act (.poll 0))).calls = [] ∧
    (t.onIncident (.act (.poll 0))).answers = [d.answer] := by
  rcases hd.call with ⟨hcalls, hanswers⟩ | ⟨hcalls, hanswers, hexpiry, houtcome⟩
  · simp [onIncident, perform, hcalls, hanswers]
  · have hends := Link.awaitGreeting_of_outcome hexpiry houtcome t.now limit deadline
    simp [onIncident, perform, hcalls, hanswers, Call.poll, hends, rejoin]

/-- What has been decided stands. -/
theorem onIncident (hi : i.isAmbient = true) : (t.onIncident i).Decided h limit deadline d := by
  have hleads := t.leadsTo_onIncident i
  have hlate : d.isExpiry = true →
      d = .expired limit ∧ (t.onIncident i).now.reached deadline = true :=
    fun hexpiry => (hd.late hexpiry).imp_right (Instant.reached_mono · (t.now_le_onIncident i))
  refine ⟨?_, hd.course.trans hleads.moves_grow, hlate⟩
  by_cases hlook : ∃ n, i = .act (.poll n)
  · obtain ⟨n, rfl⟩ := hlook
    cases n with
    | zero => exact Or.inl hd.look
    | succ n =>
      have hnobody : t.calls[n + 1]? = none := by
        rcases hd.call with ⟨hcalls, -⟩ | ⟨hcalls, -⟩
        · simp [hcalls]
        · simp [hcalls]
      simp only [Scene.onIncident, perform, hnobody]
      exact hd.call
  · obtain ⟨hcalls, hanswers⟩ := calls_onIncident_of_not_look (t := t) hi (not_exists.mp hlook)
    rw [hcalls, hanswers]
    rcases hd.call with hended | ⟨hcall, hnone, hexpiry, houtcome⟩
    · exact Or.inl hended
    · exact Or.inr ⟨hcall, hnone, hexpiry, hleads.outcome? houtcome⟩

end Decided

/-! Every run -/

/-- What holds at every moment of an attempt to connect. -/
structure Attempts (t : Scene) (h : Handle) (limit : Duration) (deadline : Instant)
    (d : Option Decision) : Prop where
  sound : Sound t.link.registry
  staged : Staged t.link.registry
  onCourse : t.link.registry.OnCourse
  agrees : t.link.Agrees
  resolves : t.Resolves h limit deadline d

namespace Attempts

variable {d : Option Decision} (ha : t.Attempts h limit deadline d)

include ha

theorem calls_eq : t.calls = [] ∨ t.calls = [.greeted h limit deadline] := by
  obtain ⟨-, -, -, -, hresolves⟩ := ha
  cases d with
  | none => exact Or.inr hresolves.calls
  | some d => exact hresolves.call.imp And.left And.left

theorem eq_of_mem_calls {c : Call} (hc : c ∈ t.calls) : c = .greeted h limit deadline := by
  rcases ha.calls_eq with hcalls | hcalls
  · rw [hcalls] at hc
    exact absurd hc List.not_mem_nil
  · rw [hcalls] at hc
    exact List.mem_singleton.mp hc

/-- The call that connects does nothing to the link but to fail it. -/
theorem quiet : t.Quiet := by
  intro c hc
  rw [ha.eq_of_mem_calls hc]
  trivial

theorem onCourse_onIncident (hi : i.isAmbient = true) :
    (t.onIncident i).link.registry.OnCourse := by
  have hleads : LeadsBy Registry.Proper t.link.registry (t.onIncident i).link.registry := by
    refine leadsBy_incident Link.routine_proper t ?_
    rintro a rfl
    exact ha.quiet.allows (Incident.isOwn_of_isAmbient hi) (fun _ _ hop => Or.inr (Or.inr hop))
      (fun _ _ => Or.inl rfl) fun _ _ _ => Or.inr (Or.inl rfl)
  exact hleads.preserves (I := Registry.OnCourse)
    (fun r op hop hr => (Registry.change_of_act r op).onCourse hop hr) ha.onCourse

/-- Of two decisions the first counts. -/
theorem onIncident (hi : i.isAmbient = true) :
    (t.onIncident i).Attempts h limit deadline (d.or (t.decision? i)) := by
  have hleads := t.leadsTo_onIncident i
  have hcourse := ha.onCourse_onIncident hi
  refine ⟨hleads.sound ha.sound, hleads.staged ha.staged, hcourse,
    agrees_onIncident ha.agrees (Incident.failsAll_of_isOwn (Incident.isOwn_of_isAmbient hi)), ?_⟩
  cases d with
  | some d => exact Decided.onIncident ha.resolves hi
  | none =>
    have he : t.Expects h limit deadline := ha.resolves
    rw [Option.none_or]
    by_cases hlook : ∃ n, i = .act (.poll n)
    · obtain ⟨n, rfl⟩ := hlook
      exact he.resolves_look ha.sound n hcourse
    · have hlook := not_exists.mp hlook
      exact he.resolves_of_heeds ha.sound ha.staged (he.heeds ha.sound ha.staged hi hlook)
        (calls_onIncident_of_not_look hi hlook)
        (fun _ hd => isExpiry_decision?_of_not_look hlook hd) hcourse

theorem of_eq {l : Link} (hregistry : l.registry = t.link.registry)
    (hshutdown : l.shutdown = t.link.shutdown) (hagrees : l.Agrees) :
    Attempts { t with link := l } h limit deadline d := by
  have hsound := hregistry ▸ ha.sound
  have hstaged := hregistry ▸ ha.staged
  have hcourse := hregistry ▸ ha.onCourse
  refine ⟨hsound, hstaged, hcourse, hagrees, ?_⟩
  have hresolves := ha.resolves
  cases d with
  | none =>
    exact ⟨hresolves.calls, hresolves.answers,
      (congrArg Registry.lifecycle hregistry).trans hresolves.connecting,
      (congrArg Registry.pending hregistry).symm ▸ hresolves.pending,
      hshutdown.trans hresolves.unasked⟩
  | some e =>
    have houtcome : l.outcome? h = t.link.outcome? h := by rw [Link.outcome?, hregistry]; rfl
    exact ⟨houtcome ▸ hresolves.call, (congrArg Registry.moves hregistry).symm ▸ hresolves.course,
      hresolves.late⟩

theorem onOccurrence {o : Occurrence} (ho : o.isAmbient = true) :
    (t.onOccurrence o).Attempts h limit deadline (d.or (t.decides? o)) := by
  cases o with
  | incident i => exact ha.onIncident ho
  | sip n =>
    rw [decides?, Option.or_none]
    exact ha.of_eq rfl rfl ⟨ha.agrees.asks, ha.agrees.ends⟩
  | resize capacity =>
    rw [decides?, Option.or_none]
    exact ha.of_eq rfl rfl ⟨ha.agrees.asks, ha.agrees.ends⟩

/-- In every run the first decision counts. -/
theorem runOccurrences {occurrences : List Occurrence}
    (hall : ∀ o ∈ occurrences, o.isAmbient = true) :
    (t.runOccurrences occurrences).Attempts h limit deadline
      (d.or (t.firstDecision? occurrences)) := by
  induction occurrences generalizing t d with
  | nil =>
    rw [firstDecision?, Option.or_none]
    exact ha
  | cons o os ih =>
    obtain ⟨hfirst, hrest⟩ := List.forall_mem_cons.mp hall
    rw [firstDecision?, ← Option.or_assoc]
    exact ih (ha.onOccurrence hfirst) hrest

end Attempts

end Scene

end Switchboard
