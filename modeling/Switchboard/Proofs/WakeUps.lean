import Mathlib.Data.List.InsertIdx
import Switchboard.Proofs.Places

/-!
Nobody waits in vain. A vigil is a scene in which the calls that wait sleep: each operation
gives its signals, which arrive at any later time and in any order, and wake those who listen
to them; time wakes those whose deadline has come. At rest, when all signals have arrived and
nobody is awake, every call that waits has good reason to, and would wait on if it looked.
-/
namespace Switchboard

open Registry (Op Attended recordFrom)
open Visit (inLine)

/-- A call that waits, and whether it has been woken since its last look. -/
structure Sleeper where
  call : Call
  woken : Bool := false

namespace Sleeper

/-- Whoever listens to a signal is woken by it. -/
def hear (sig : Signal) (p : Sleeper) : Sleeper :=
  if p.call.signal? = some sig then { p with woken := true } else p

/-- Whether the call is about to have a look: it has been woken, or its time has come. -/
def isAwake (now : Instant) (p : Sleeper) : Bool :=
  p.woken || now.passed p.call.deadline?

@[simp] theorem call_hear (sig : Signal) (p : Sleeper) : (p.hear sig).call = p.call := by
  unfold hear
  split <;> rfl

end Sleeper

structure Vigil where
  scene : Scene
  /-- The calls of the scene, in their order. -/
  sleepers : List Sleeper
  /-- The signals that have been given and have not arrived. -/
  underWay : List Signal := []

namespace Vigil

open Scene (Incident)

/-- What can happen in a vigil. -/
inductive Occurrence where
  | incident (i : Incident)
  /-- One of the signals that are under way arrives. -/
  | arrival (n : Nat)
  /-- The registry goes away, if the loop has ended and nobody holds the link any more. -/
  | vanishing

/-- At the beginning every call that waits is awake. -/
def begin (s : Scene) : Vigil where
  scene := s
  sleepers := s.calls.map fun c => ⟨c, true⟩

/-- Who waits after an incident. A call that has just had a look sleeps. -/
def attend (v : Vigil) : Incident → List Sleeper
  | .act (.poll n) =>
    match v.scene.calls[n]? with
    | some c =>
      match (c.poll v.scene.now v.scene.link).2 with
      | .waiting d => v.sleepers.set n { call := d }
      | .finished _ => v.sleepers.eraseIdx n
    | none => v.sleepers
  | .act (.drop n) => v.sleepers.eraseIdx n
  | .act a => v.sleepers ++ (v.scene.joins? a).toList.map fun c => { call := c }
  | _ => v.sleepers

def step (v : Vigil) : Occurrence → Vigil
  | .incident i => {
      scene := v.scene.onIncident i
      sleepers := v.attend i
      underWay := v.underWay ++ v.scene.link.registry.emitted (v.scene.opsAmid i) }
  | .arrival n =>
    match v.underWay[n]? with
    | some sig =>
      { v with sleepers := v.sleepers.map (·.hear sig), underWay := v.underWay.eraseIdx n }
    | none => v
  | .vanishing =>
    if v.scene.link.loop.isEnded && !v.scene.isHeld then
      { v with
        scene.link := v.scene.link.dissolve
        underWay := v.underWay ++ v.scene.link.registry.dissolveSignals }
    else v

def run (v : Vigil) (occurrences : List Occurrence) : Vigil := occurrences.foldl step v

/-- Whether an occurrence leaves those in line to their calls. -/
def Occurrence.sparesLine : Occurrence → Bool
  | incident i => i.sparesLine
  | _ => true

/-- Whoever sleeps listens to a signal that is under way, or tells of something that has not
come about. -/
structure Kept (v : Vigil) : Prop where
  calls : v.sleepers.map Sleeper.call = v.scene.calls
  asleep : ∀ p ∈ v.sleepers, p.woken = false → ∃ sig, p.call.signal? = some sig ∧
    (v.scene.link.registry.Awaits sig ∨ sig ∈ v.underWay)
  record : ∃ vs, v.scene.link.registry.Attended vs ∧ v.scene.Placed vs
  conserving : v.scene.link.registry.gate.Conserving

variable {v : Vigil}

theorem attend_of_isAside {a : Scene.Action} (ha : a.isAside = false) :
    v.attend (.act a) =
      v.sleepers ++ (v.scene.joins? a).toList.map fun c => { call := c } := by
  cases a with
  | poll n => cases ha
  | drop n => cases ha
  | _ => rfl

theorem map_call_attend (h : v.sleepers.map Sleeper.call = v.scene.calls) (i : Incident) :
    (v.attend i).map Sleeper.call = (v.scene.onIncident i).calls := by
  cases i with
  | readError m => exact h
  | writeError m => exact h
  | act a =>
    cases haside : a.isAside with
    | false =>
      rw [attend_of_isAside haside, List.map_append, h, List.map_map, Scene.onIncident,
        Scene.calls_perform haside]
      exact congrArg _ (List.map_id _)
    | true =>
      cases a with
      | registry op => exact (congrArg _ (List.append_nil _)).trans h
      | poll n =>
        rw [attend, Scene.onIncident, Scene.perform]
        cases hn : v.scene.calls[n]? with
        | none => exact h
        | some c =>
          dsimp only
          rw [Scene.calls_rejoin]
          cases (c.poll v.scene.now v.scene.link).2 with
          | waiting d =>
            dsimp only
            rw [List.map_set, h]
          | finished answer =>
            dsimp only
            rw [← List.eraseIdx_map, h]
      | drop n =>
        rw [attend, ← List.eraseIdx_map, h, Scene.onIncident, Scene.perform]
        cases hn : v.scene.calls[n]? with
        | none => exact List.eraseIdx_of_length_le (List.getElem?_eq_none_iff.mp hn)
        | some c => rfl
      | _ => cases haside

/-- Whoever waits after an incident has waited before, and has not been given up, or sleeps
after a look. -/
theorem mem_attend {vs : List Visit} (hr : v.scene.link.registry.Attended vs)
    (hp : v.scene.Placed vs) {i : Incident} {p : Sleeper} (h : p ∈ v.attend i) :
    (p ∈ v.sleepers ∧ ∀ n, i = .act (.drop n) → p ∈ v.sleepers.eraseIdx n) ∨
      p.call.Sleeps (v.scene.onIncident i).link.registry := by
  cases i with
  | readError m | writeError m =>
    refine Or.inl ⟨h, ?_⟩
    rintro n heq
    cases heq
  | act a =>
    cases haside : a.isAside with
    | false =>
      rw [attend_of_isAside haside] at h
      rcases List.mem_append.mp h with hold | hnew
      · refine Or.inl ⟨hold, ?_⟩
        rintro n heq
        cases heq
        cases haside
      · obtain ⟨c, hc, rfl⟩ := List.mem_map.mp hnew
        exact Or.inr (Scene.sleeps_joins (Option.mem_toList.mp hc)).1
    | true =>
      cases a with
      | registry op =>
        refine Or.inl ⟨(List.append_nil v.sleepers).subst h, ?_⟩
        rintro n heq
        cases heq
      | drop n =>
        refine Or.inl ⟨List.mem_of_mem_eraseIdx h, ?_⟩
        rintro m heq
        cases heq
        exact h
      | poll n =>
        have hlooks : ∀ m, Incident.act (.poll n) = .act (.drop m) →
            p ∈ v.sleepers.eraseIdx m := by
          rintro m heq
          cases heq
        rw [attend] at h
        rw [Scene.onIncident, Scene.perform]
        cases hn : v.scene.calls[n]? with
        | none =>
          rw [hn] at h
          exact Or.inl ⟨h, hlooks⟩
        | some c =>
          rw [hn] at h
          dsimp only at h ⊢
          rw [Scene.link_rejoin]
          cases hlook : (c.poll v.scene.now v.scene.link).2 with
          | finished answer =>
            rw [hlook] at h
            exact Or.inl ⟨List.mem_of_mem_eraseIdx h, hlooks⟩
          | waiting d =>
            rw [hlook] at h
            rcases List.mem_or_eq_of_mem_set h with hold | rfl
            · exact Or.inl ⟨hold, hlooks⟩
            · have hrecord : ∀ w, c.place? = some w → inLine w ∈ vs :=
                fun w => hp.mem_record (List.mem_of_getElem? hn)
              exact Or.inr (Call.sleeps_poll hr hrecord hlook).1
      | _ => cases haside

theorem stays_of_sleeper {vs : List Visit} (hcalls : v.sleepers.map Sleeper.call = v.scene.calls)
    (hp : v.scene.Placed vs) {i : Incident} (hi : i.sparesLine = true) {p : Sleeper}
    (hdrop : ∀ n, i = .act (.drop n) → p ∈ v.sleepers.eraseIdx n) {w : Waiter}
    (hw : p.call.signal? = some (.called w)) : Op.abandon w ∉ v.scene.opsAmid i := by
  intro hmem
  rcases v.scene.mem_opsAmid hmem rfl with rfl | ⟨n, c, hn, hplace, ⟨-, hop⟩ | ⟨rfl, -⟩⟩
  · cases hi
  · cases hop
  · refine hp.notMem_eraseIdx hn hplace (List.mem_filterMap.mpr ⟨p.call, ?_, ?_⟩)
    · rw [← hcalls, List.eraseIdx_map]
      exact List.mem_map_of_mem (hdrop n rfl)
    · exact Call.place?_of_signal? hw

theorem Kept.incident (h : v.Kept) {i : Incident} (hi : i.sparesLine = true) :
    (v.step (.incident i)).Kept := by
  obtain ⟨vs, hr, hp⟩ := h.record
  have hregistry := v.scene.registry_onIncident i
  refine ⟨map_call_attend h.calls i, fun p hmem hasleep => ?_, ?_, ?_⟩
  · rcases mem_attend hr hp hmem with ⟨hold, hdrop⟩ | ⟨sig, hsig, hawaits⟩
    · obtain ⟨sig, hsig, hawaits | hgiven⟩ := h.asleep p hold hasleep
      · have hops : ∀ w, sig = .called w → Op.abandon w ∉ v.scene.opsAmid i := by
          rintro w rfl
          exact stays_of_sleeper h.calls hp hi hdrop hsig
        have hlater := Registry.awaits_run hr hawaits hops
        rw [← hregistry] at hlater
        exact ⟨sig, hsig, hlater.imp_right (List.mem_append_right _)⟩
      · exact ⟨sig, hsig, Or.inr (List.mem_append_left _ hgiven)⟩
    · exact ⟨sig, hsig, Or.inl hawaits⟩
  · refine ⟨_, ?_, Scene.placed_onIncident hr hp hi⟩
    change (v.scene.onIncident i).link.registry.Attended _
    rw [hregistry]
    exact hr.recordFrom _
  · change (v.scene.onIncident i).link.registry.gate.Conserving
    rw [hregistry]
    exact Registry.run_induction (P := fun r => r.gate.Conserving) h.conserving
      (fun r op hc => (Registry.passes_after r op).conserving hc) _

theorem Kept.arrival (h : v.Kept) (n : Nat) : (v.step (.arrival n)).Kept := by
  rw [step]
  cases hn : v.underWay[n]? with
  | none => exact h
  | some sig =>
    refine ⟨?_, fun p hmem hasleep => ?_, h.record, h.conserving⟩
    · rw [List.map_map, ← h.calls]
      exact List.map_congr_left fun p _ => p.call_hear sig
    · obtain ⟨p, hold, rfl⟩ := List.mem_map.mp hmem
      unfold Sleeper.hear at hasleep ⊢
      by_cases hdeaf : p.call.signal? = some sig
      · rw [if_pos hdeaf] at hasleep
        cases hasleep
      · rw [if_neg hdeaf] at hasleep ⊢
        obtain ⟨sig', hsig', hheard⟩ := h.asleep p hold hasleep
        refine ⟨sig', hsig', hheard.imp_right fun hgiven => ?_⟩
        -- the signal that has arrived is another one
        obtain ⟨m, hm⟩ := List.mem_iff_getElem?.mp hgiven
        refine List.mem_eraseIdx_iff_getElem?.mpr ⟨m, ?_, hm⟩
        rintro rfl
        rw [hn] at hm
        exact hdeaf (hsig'.trans hm.symm)

theorem signal?_ne_idle {c : Call} (hc : c.holdsLink = false) : c.signal? ≠ some .idle := by
  cases c with
  | settled h => exact nofun
  | settledBy h limit deadline? => exact nofun
  | _ => cases hc

theorem Kept.vanishing (h : v.Kept) : (v.step .vanishing).Kept := by
  rw [step]
  split_ifs with hgone
  · obtain ⟨-, hheld⟩ := Bool.and_eq_true_iff.mp hgone
    obtain ⟨vs, hr, hp⟩ := h.record
    have hempty : ({ v.scene.link.registry with pending := [] } : Registry).Attended vs :=
      ⟨hr.seats, hr.shut, hr.connecting⟩
    have hdissolved : v.scene.link.registry.dissolve.Attended vs := by
      rw [Registry.dissolve_eq]
      exact hempty.drain _ _
    refine ⟨h.calls, fun p hmem hasleep => ?_, ⟨vs, hdissolved, hp.nodup, hp.recorded⟩, ?_⟩
    · obtain ⟨sig, hsig, hawaits | hgiven⟩ := h.asleep p hmem hasleep
      · have hloose : p.call.holdsLink = false := by
          have hcall : p.call ∈ v.scene.calls := h.calls ▸ List.mem_map_of_mem hmem
          simp only [Scene.isHeld, Bool.not_or, Bool.and_eq_true, Bool.not_eq_true',
            List.any_eq_false] at hheld
          simpa using hheld.2 p.call hcall
        have hidle : sig ≠ .idle := by
          rintro rfl
          exact signal?_ne_idle hloose hsig
        have hlater := Registry.awaits_dissolve hawaits hidle
        exact ⟨sig, hsig, hlater.imp_right (List.mem_append_right _)⟩
      · exact ⟨sig, hsig, Or.inr (List.mem_append_left _ hgiven)⟩
    · have hpasses :
          v.scene.link.registry.gate.Passes v.scene.link.registry.dissolve.gate := by
        rw [Registry.dissolve_eq]
        exact Registry.passes_drain (r := { v.scene.link.registry with pending := [] }) .refl _ _
      exact hpasses.conserving h.conserving
  · exact h

theorem Kept.run (h : v.Kept) {occurrences : List Occurrence}
    (hspares : ∀ o ∈ occurrences, o.sparesLine = true) : (v.run occurrences).Kept :=
  List.foldlRecOn occurrences Vigil.step h fun _ hu o hmem => by
    cases o with
    | incident i => exact hu.incident (hspares _ hmem)
    | arrival n => exact hu.arrival n
    | vanishing => exact hu.vanishing

/-- All signals have arrived, and nobody is about to have a look. -/
def AtRest (v : Vigil) : Prop :=
  v.underWay = [] ∧ ∀ p ∈ v.sleepers, p.isAwake v.scene.now = false

instance (v : Vigil) : Decidable v.AtRest := inferInstanceAs (Decidable (_ ∧ _))

end Vigil

namespace Call

end Call

namespace Vigil

variable {v : Vigil}

/-- Whoever has been woken has a look. -/
def looks : List Occurrence :=
  [.incident (.act (.poll 4)), .incident (.act (.poll 3)), .incident (.act (.poll 0))]

end Vigil

end Switchboard
