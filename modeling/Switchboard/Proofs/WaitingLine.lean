import Mathlib.Data.List.Perm.Subperm
import Switchboard.Proofs.RegistryRuns

/-!
Those who wait at the gate. A waiter stands in line or has been handed a slot, never both
and never twice, and its place is known by a number that is not given again. `Passes` is
everything that the users of a gate can do to it; whatever a registry does to its gate is
done in this way. So an `Invariant` of the single steps, such as `Orderly`, holds in every run
of a registry.
-/
namespace Switchboard

namespace Gate

/-- The waiters of a gate, those in line before those with a slot. -/
def waiters (g : Gate) : List Waiter := g.line ++ g.handed

/-- No waiter has two places, and the next place is a new one. -/
structure Orderly (g : Gate) : Prop where
  nodup : g.waiters.Nodup
  serial_lt : ∀ w ∈ g.waiters, w.serial < g.serial

/-- The users of a gate lead it from one state to the other. -/
inductive Passes (g : Gate) : Gate → Prop
  | refl : Passes g g
  | enter {g' : Gate} : Passes g g' → Passes g g'.enter.1
  | tryEnter {g' g'' : Gate} : Passes g g' → g'.tryEnter = .ok g'' → Passes g g''
  | leave {g' : Gate} : Passes g g' → Passes g g'.leave
  | withdraw {g' : Gate} (w : Waiter) : Passes g g' → Passes g (g'.withdraw w)
  | claim {g' : Gate} (w : Waiter) : Passes g g' → Passes g (g'.claim w).1
  | shutDown {g' : Gate} : Passes g g' → Passes g g'.shutDown

/-- A property of gates that each step of their users keeps: whoever comes takes a free slot, or
joins the line if there is none, and whoever goes is struck off. -/
structure Invariant (P : Gate → Prop) : Prop where
  take : ∀ {g : Gate}, P g → g.free ≠ 0 → P { g with free := g.free - 1 }
  joinLine : ∀ {g : Gate}, P g → g.free = 0 → g.policy = .block → P g.joinLine.1
  leave : ∀ {g : Gate}, P g → P g.leave
  eraseLine : ∀ {g : Gate} (w : Waiter), P g → P { g with line := g.line.erase w }
  eraseHanded : ∀ {g : Gate} (w : Waiter), P g → P { g with handed := g.handed.erase w }
  shutDown : ∀ {g : Gate}, P g → P g.shutDown

namespace Invariant

variable {P : Gate → Prop} (hP : Invariant P) {g g' : Gate}

include hP

theorem tryEnter (h : P g) (hg : g.tryEnter = .ok g') : P g' := by
  obtain ⟨hfree, rfl⟩ := eq_of_tryEnter hg
  exact hP.take h hfree

theorem enter (h : P g) : P g.enter.1 := by
  rcases g.enter_cases with ⟨g', hg, henter⟩ | ⟨-, hfree, hblock, henter⟩ | ⟨f, -, henter⟩
  · rw [henter]
    exact hP.tryEnter h hg
  · rw [henter]
    exact hP.joinLine h hfree hblock
  · rw [henter]
    exact h

theorem withdraw (h : P g) (w : Waiter) : P (g.withdraw w) := by
  unfold Gate.withdraw
  split
  · exact hP.leave (hP.eraseHanded w h)
  · exact hP.eraseLine w h

theorem claim (h : P g) (w : Waiter) : P (g.claim w).1 := by
  unfold Gate.claim
  split
  · exact hP.withdraw h w
  · split
    · exact hP.eraseHanded w h
    · exact h

theorem passes (hp : g.Passes g') (h : P g) : P g' := by
  induction hp with
  | refl => exact h
  | enter _ ih => exact hP.enter ih
  | tryEnter _ htry ih => exact hP.tryEnter ih htry
  | leave _ ih => exact hP.leave ih
  | withdraw w _ ih => exact hP.withdraw ih w
  | claim w _ ih => exact hP.claim ih w
  | shutDown _ ih => exact hP.shutDown ih

end Invariant

theorem Orderly.of_subperm {g g' : Gate} (h : Orderly g) (hw : g'.waiters.Subperm g.waiters)
    (hs : g'.serial = g.serial) : Orderly g' := by
  obtain ⟨ws, hperm, hsub⟩ := hw
  refine ⟨hperm.nodup_iff.mp (h.nodup.sublist hsub), ?_⟩
  intro w hmem
  rw [hs]
  exact h.serial_lt w (hsub.subset (hperm.mem_iff.mpr hmem))

@[simp] theorem serial_leave (g : Gate) : g.leave.serial = g.serial := by
  unfold leave
  split <;> rfl

/-- A slot that is given back moves the first in line to those with a slot. -/
theorem waiters_leave (g : Gate) : g.leave.waiters.Perm g.waiters := by
  unfold leave waiters
  cases hline : g.line with
  | nil => simp
  | cons w rest =>
    simp only [List.cons_append]
    rw [← List.append_assoc]
    exact List.perm_append_singleton w (rest ++ g.handed)

theorem Orderly.leave {g : Gate} (h : Orderly g) : Orderly g.leave :=
  h.of_subperm g.waiters_leave.subperm g.serial_leave

theorem Orderly.joinLine {g : Gate} (h : Orderly g) : Orderly g.joinLine.1 := by
  have hperm : g.joinLine.1.waiters.Perm (⟨g.serial⟩ :: g.waiters) := by
    simp only [Gate.joinLine, waiters]
    rw [List.append_assoc, List.singleton_append]
    exact List.perm_middle
  have hnew : (⟨g.serial⟩ : Waiter) ∉ g.waiters := by
    intro hmem
    exact absurd (h.serial_lt _ hmem) (Nat.lt_irrefl _)
  constructor
  · rw [hperm.nodup_iff]
    exact List.nodup_cons.mpr ⟨hnew, h.nodup⟩
  · intro w hmem
    change w.serial < g.serial + 1
    rcases List.mem_cons.mp (hperm.mem_iff.mp hmem) with rfl | hold
    · exact Nat.lt_succ_self _
    · exact Nat.lt_succ_of_lt (h.serial_lt w hold)

theorem invariant_orderly : Invariant Orderly where
  take h _ := ⟨h.nodup, h.serial_lt⟩
  joinLine h _ _ := h.joinLine
  leave h := h.leave
  eraseLine {g} w h := by
    have hsub : (g.line.erase w ++ g.handed).Sublist (g.line ++ g.handed) :=
      List.erase_sublist.append (List.Sublist.refl _)
    exact h.of_subperm hsub.subperm rfl
  eraseHanded {g} w h := by
    have hsub : (g.line ++ g.handed.erase w).Sublist (g.line ++ g.handed) :=
      (List.Sublist.refl _).append List.erase_sublist
    exact h.of_subperm hsub.subperm rfl
  shutDown {g} h := by
    have hsub : g.handed.Sublist (g.line ++ g.handed) := List.sublist_append_right _ _
    exact h.of_subperm hsub.subperm rfl

theorem Passes.orderly {g g' : Gate} (hp : Passes g g') (h : Orderly g) : Orderly g' :=
  invariant_orderly.passes hp h

theorem orderly_of_make {ceiling : Nat} {policy : Policy} {g : Gate}
    (h : make ceiling policy = .ok g) : Orderly g := by
  obtain ⟨-, -, rfl⟩ := eq_of_make h
  exact ⟨List.nodup_nil, fun _ hw => absurd hw List.not_mem_nil⟩

end Gate

namespace Registry

theorem passes_enroll {r : Registry} {g : Gate} (h : g.Passes r.gate) :
    g.Passes r.enroll.1.gate := by
  cases hrej : r.rejection with
  | none =>
    have hready : r.lifecycle = .ready := (rejection_eq_none_iff r).mp hrej
    rw [enroll_of_ready hready]
    exact h
  | some f =>
    rw [enroll_of_rejection hrej]
    exact h.leave

theorem passes_onAdmission {r : Registry} {g : Gate} (a : Gate × Admission)
    (h : g.Passes a.1) : g.Passes (r.onAdmission a).1.gate := by
  obtain ⟨g', a⟩ := a
  cases a with
  | admitted => exact passes_enroll (r := { r with gate := g' }) h
  | waiting w => exact h
  | refused f => exact h

theorem passes_discharge {r : Registry} {g : Gate} (h : g.Passes r.gate) (o : Outcome)
    (a : Handle) : g.Passes (discharge o r a).gate := by
  simp only [discharge_eq]
  split
  · exact h
  · exact h.leave

theorem passes_drain {r : Registry} {g : Gate} (h : g.Passes r.gate) (o : Outcome)
    (hs : List Handle) : g.Passes (hs.foldl (discharge o) r).gate := by
  induction hs generalizing r with
  | nil => exact h
  | cons a hs ih => exact ih (passes_discharge h o a)

theorem passes_after (r : Registry) (op : Op) : r.gate.Passes (r.after op).gate := by
  have hrefl : r.gate.Passes r.gate := .refl
  cases op with
  | greet =>
    simp only [after, act, greet]
    split
    · exact hrefl
    · split
      · exact hrefl
      · exact hrefl
  | register =>
    simp only [after, act, register]
    split
    · exact hrefl
    · exact passes_onAdmission _ hrefl.enter
  | tryRegister =>
    simp only [after, act, tryRegister]
    cases r.rejection with
    | some f => exact hrefl
    | none =>
      cases htry : r.gate.tryEnter with
      | ok g => exact passes_enroll (r := { r with gate := g }) (hrefl.tryEnter htry)
      | error f => exact hrefl
  | resume w => exact passes_onAdmission _ (hrefl.claim w)
  | abandon w => exact hrefl.withdraw w
  | settle id o =>
    simp only [after, act, settle]
    split
    · exact passes_discharge (r := { r with pending := _ }) hrefl o _
    · exact hrefl
  | markReady =>
    simp only [after, act, markReady]
    split
    · exact hrefl
    · exact hrefl
  | beginClosing =>
    simp only [after, act, beginClosing]
    split
    · exact hrefl
    · exact hrefl.shutDown
  | failAll f =>
    simp only [after, act, failAll]
    split
    · exact hrefl
    · exact passes_drain hrefl.shutDown _ _

theorem orderly_run {r : Registry} (h : r.gate.Orderly) (ops : List Op) :
    (r.run ops).gate.Orderly :=
  run_induction (P := fun s => s.gate.Orderly) h
    (fun s op hs => (passes_after s op).orderly hs) ops

end Registry

end Switchboard
