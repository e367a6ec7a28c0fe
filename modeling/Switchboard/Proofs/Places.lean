import Switchboard.Proofs.Sleepers

/-!
The calls of a scene and their places in line. An action makes one call at most, which sleeps
if it has to wait. Those who stand in line have different places, and each place is on record
from the registration that was told to wait until its call has ended or been given up.
-/
namespace Switchboard

open Registry (Op Attended recordFrom)
open Visit (inLine)

namespace Scene

/-- The call that an action makes, if it has to wait. -/
def joins? (s : Scene) : Action → Option Call
  | .start e => (s.link.start s.now e).2.call?
  | .close => (s.link.close s.now).2.call?
  | .closed => (Call.closed.poll s.now s.link).2.call?
  | .drained => (Call.drained.poll s.now s.link).2.call?
  | .settled h => ((Call.settled h).poll s.now s.link).2.call?
  | .waitFor h limit => (s.link.waitFor s.now h limit).2.call?
  | _ => none

/-- The places in line that the calls hold. -/
def places (s : Scene) : List Waiter := s.calls.filterMap Call.place?

/-- Those in line have different places, which are on record. -/
structure Placed (s : Scene) (vs : List Visit) : Prop where
  nodup : s.places.Nodup
  recorded : ∀ w ∈ s.places, inLine w ∈ vs

/-- Whether an incident leaves those in line to their calls. -/
def Incident.sparesLine : Incident → Bool
  | .act (.registry op) => op.waiter?.isNone
  | _ => true

variable {s : Scene} {vs : List Visit}

theorem calls_join (s : Scene) (a : Link × Progress) :
    (s.join a).calls = s.calls ++ a.2.call?.toList := by
  obtain ⟨l, p⟩ := a
  cases p with
  | waiting c => rfl
  | finished answer => exact (List.append_nil _).symm

theorem calls_perform {a : Action} (ha : a.isAside = false) :
    (s.perform a).calls = s.calls ++ (s.joins? a).toList := by
  cases a with
  | registry op => cases ha
  | poll i => cases ha
  | drop i => cases ha
  | start e => exact s.calls_join _
  | close => exact s.calls_join _
  | closed => exact s.calls_join _
  | drained => exact s.calls_join _
  | settled h => exact s.calls_join _
  | waitFor h limit => exact s.calls_join _
  | loop e =>
    rw [perform]
    split <;> exact (List.append_nil _).symm
  | _ => exact (List.append_nil _).symm

theorem calls_rejoin (s : Scene) (i : Nat) (a : Link × Progress) :
    (s.rejoin i a).calls = match a.2 with
      | .waiting d => s.calls.set i d
      | .finished _ => s.calls.eraseIdx i := by
  obtain ⟨l, p⟩ := a
  cases p <;> rfl

theorem waiting_of_call? {p : Progress} {d : Call} (h : p.call? = some d) : p = .waiting d := by
  cases p with
  | waiting c => rw [Option.some.inj h]
  | finished a => cases h

/-- A call that has just been made sleeps. If it stands in line, it has just been told to. -/
theorem sleeps_joins {a : Action} {d : Call} (hd : s.joins? a = some d) :
    d.Sleeps (s.perform a).link.registry ∧
      ∀ w, d.place? = some w → s.link.registry.register.2 = .waiting w ∧
        s.opsOf a = [.register] := by
  have hlook : ∀ c : Call, c.isPatient = true →
      (c.poll s.now s.link).2.call? = some d →
      d.Sleeps (s.join (c.poll s.now s.link)).link.registry ∧ d.place? = none := by
    intro c hc hd
    obtain ⟨hsame, rfl, hsleeps⟩ := Call.sleeps_of_isPatient hc (waiting_of_call? hd)
    rw [link_join, hsame]
    exact ⟨hsleeps, Call.place?_of_isPatient hc⟩
  have hplace : d.Sleeps (s.perform a).link.registry ∧ d.place? = none →
      d.Sleeps (s.perform a).link.registry ∧
        ∀ w, d.place? = some w → s.link.registry.register.2 = .waiting w ∧
          s.opsOf a = [.register] := by
    rintro ⟨hsleeps, hnone⟩
    refine ⟨hsleeps, fun w hw => ?_⟩
    rw [hnone] at hw
    cases hw
  cases a with
  | start e =>
    rw [perform, link_join]
    exact Link.sleeps_start (waiting_of_call? hd)
  | close =>
    have hclose := Call.sleeps_close (waiting_of_call? hd)
    rw [perform, link_join] at hplace ⊢
    exact hplace hclose.symm
  | closed => exact hplace (hlook .closed rfl hd)
  | drained => exact hplace (hlook .drained rfl hd)
  | settled h => exact hplace (hlook (.settled h) rfl hd)
  | waitFor h limit => exact hplace (hlook (.settledBy h limit (s.now.add? limit)) rfl hd)
  | _ => cases hd

/-! Places in line -/

theorem Placed.mem_record (h : s.Placed vs) {c : Call} (hc : c ∈ s.calls) {w : Waiter}
    (hw : c.place? = some w) : inLine w ∈ vs :=
  h.recorded w (List.mem_filterMap.mpr ⟨c, hc, hw⟩)

theorem Placed.of_sublist (h : s.Placed vs) {t : Scene} (hsub : t.places.Sublist s.places)
    {ops : List Op} (hops : ∀ w ∈ t.places, ∀ op ∈ ops, op.waiter? ≠ some w) :
    t.Placed (recordFrom vs s.link.registry ops) where
  nodup := h.nodup.sublist hsub
  recorded w hw := Registry.mem_recordFrom (h.recorded w (hsub.subset hw)) (hops w hw)

theorem Placed.of_quiet (h : s.Placed vs) {t : Scene} (hsub : t.places.Sublist s.places)
    {ops : List Op} (hops : ∀ op ∈ ops, op.waiter? = none) :
    t.Placed (recordFrom vs s.link.registry ops) := by
  refine h.of_sublist hsub fun w _ op hop => ?_
  rw [hops op hop]
  exact nofun

theorem places_eraseIdx {n : Nat} {c : Call} (hn : s.calls[n]? = some c) :
    ((s.calls.eraseIdx n).filterMap Call.place?).Sublist s.places ∧
      ∀ d : Call, d.place? = none → (s.calls.set n d).filterMap Call.place? =
        (s.calls.eraseIdx n).filterMap Call.place? := by
  obtain ⟨xs, ys, hsplit, herase, hset⟩ := exists_split_at hn
  rw [herase, places, hsplit]
  refine ⟨((List.sublist_cons_self c ys).append_left xs).filterMap _, fun d hd => ?_⟩
  rw [← hsplit, hset]
  simp [hd]

theorem Placed.notMem_eraseIdx (h : s.Placed vs) {n : Nat} {c : Call}
    (hn : s.calls[n]? = some c) {w : Waiter} (hw : c.place? = some w) :
    w ∉ (s.calls.eraseIdx n).filterMap Call.place? := by
  obtain ⟨xs, ys, hsplit, herase, -⟩ := exists_split_at hn
  have hnodup := h.nodup
  rw [places, hsplit, List.filterMap_append, List.filterMap_cons_some hw] at hnodup
  rw [herase, List.filterMap_append]
  exact (List.nodup_middle.mp hnodup).notMem

/-- When a call is taken out, the others keep their places, whatever is done for the waiter
of the call. -/
theorem Placed.of_eraseIdx (h : s.Placed vs) {n : Nat} {c : Call} (hn : s.calls[n]? = some c)
    {t : Scene} (ht : t.places = (s.calls.eraseIdx n).filterMap Call.place?) {ops : List Op}
    (hops : ∀ op ∈ ops, ∀ w, op.waiter? = some w → c.place? = some w) :
    t.Placed (recordFrom vs s.link.registry ops) := by
  refine h.of_sublist (ht ▸ (places_eraseIdx hn).1) fun w hw op hop hwaiter => ?_
  rw [ht] at hw
  exact h.notMem_eraseIdx hn (hops op hop w hwaiter) hw

theorem placed_perform (hr : s.link.registry.Attended vs) (h : s.Placed vs) {a : Action}
    (ha : a.isAside = false) :
    (s.perform a).Placed (recordFrom vs s.link.registry (s.opsOf a)) := by
  have hquiet := (s.does_perform ha).waiter?
  have hcalls := calls_perform (s := s) ha
  cases hd : s.joins? a with
  | none =>
    rw [hd] at hcalls
    refine h.of_quiet ?_ hquiet
    simp [places, hcalls]
  | some d =>
    rw [hd] at hcalls
    have hplaces : (s.perform a).places = s.places ++ d.place?.toList := by
      rw [places, hcalls, List.filterMap_append]
      cases hplace : d.place? <;> simp [places, hplace]
    obtain ⟨-, hregister⟩ := sleeps_joins hd
    cases hplace : d.place? with
    | none =>
      rw [hplace] at hplaces
      exact h.of_quiet (by simp [hplaces]) hquiet
    | some w =>
      -- a registration that is told to wait is put down behind all others
      obtain ⟨hwaiting, hops⟩ := hregister w hplace
      have hafter := (hr.after .register).seats.nodup
      rw [hplace] at hplaces
      rw [hops]
      change (s.perform a).Placed (s.link.registry.note vs .register)
      rw [(Registry.register_waiting hwaiting vs).2] at hafter ⊢
      have hnew : w ∉ vs.map Visit.waiter := by
        rw [List.map_append] at hafter
        exact fun hmem => (List.nodup_append.mp hafter).2.2 w hmem w (by simp [inLine]) rfl
      constructor
      · rw [hplaces]
        refine List.nodup_append.mpr ⟨h.nodup, List.nodup_singleton w, ?_⟩
        rintro u hu v hv rfl
        obtain rfl := List.mem_singleton.mp hv
        exact hnew (List.mem_map_of_mem (h.recorded u hu))
      · intro u hu
        rw [hplaces] at hu
        rcases List.mem_append.mp hu with hold | hnewest
        · exact List.mem_append_left _ (h.recorded u hold)
        · obtain rfl := List.mem_singleton.mp hnewest
          exact List.mem_append_right _ (List.mem_singleton_self _)

theorem placed_poll (hr : s.link.registry.Attended vs) (h : s.Placed vs) {n : Nat} {c : Call}
    (hn : s.calls[n]? = some c) :
    (s.rejoin n (c.poll s.now s.link)).Placed
      (recordFrom vs s.link.registry (c.lookOps s.now s.link)) := by
  have hops : ∀ op ∈ c.lookOps s.now s.link, ∀ w, op.waiter? = some w → c.place? = some w :=
    fun op hop w hw => (Call.resume_of_mem_lookOps hop hw).2
  have hcalls := s.calls_rejoin n (c.poll s.now s.link)
  cases hlook : (c.poll s.now s.link).2 with
  | finished answer =>
    rw [hlook] at hcalls
    exact h.of_eraseIdx hn (by rw [places, hcalls]) hops
  | waiting d =>
    rw [hlook] at hcalls
    have hrecord : ∀ w, c.place? = some w → inLine w ∈ vs :=
      fun w => h.mem_record (List.mem_of_getElem? hn)
    obtain ⟨-, hstays⟩ := Call.sleeps_poll hr hrecord hlook
    cases hplace : d.place? with
    | none =>
      exact h.of_eraseIdx hn (by rw [places, hcalls, (places_eraseIdx hn).2 d hplace]) hops
    | some w =>
      obtain ⟨rfl, hwaiting, hlookOps⟩ := hstays w hplace
      have hsame : recordFrom vs s.link.registry (d.lookOps s.now s.link) = vs := by
        rw [hlookOps]
        simp [recordFrom, Registry.note, hwaiting]
      have hplaces : (s.rejoin n (d.poll s.now s.link)).places = s.places := by
        obtain ⟨xs, ys, hsplit, -, hset⟩ := exists_split_at hn
        rw [places, hcalls]
        change (s.calls.set n d).filterMap Call.place? = s.places
        rw [hset, ← hsplit, places]
      rw [hsame]
      exact ⟨hplaces ▸ h.nodup, hplaces ▸ h.recorded⟩

/-- In whatever happens to a link, those in line keep their places while their calls wait. -/
theorem placed_onIncident (hr : s.link.registry.Attended vs) (h : s.Placed vs) {i : Incident}
    (hi : i.sparesLine = true) :
    (s.onIncident i).Placed (recordFrom vs s.link.registry (s.opsAmid i)) := by
  cases i with
  | readError m =>
    have hsame : (s.onIncident (.readError m)).places.Sublist s.places := List.Sublist.refl _
    exact h.of_quiet hsame (s.link.does_failRead m).waiter?
  | writeError m =>
    have hsame : (s.onIncident (.writeError m)).places.Sublist s.places := List.Sublist.refl _
    exact h.of_quiet hsame (s.link.does_failWrite m).waiter?
  | act a =>
    cases haside : a.isAside with
    | false => exact placed_perform hr h haside
    | true =>
      cases a with
      | registry op =>
        have hop : op.waiter? = none := Option.isNone_iff_eq_none.mp hi
        have hsame : (s.perform (.registry op)).places.Sublist s.places := List.Sublist.refl _
        exact h.of_quiet hsame (List.forall_mem_singleton.mpr hop)
      | poll n =>
        rw [onIncident, perform, opsAmid, opsOf]
        cases hn : s.calls[n]? with
        | none => exact h
        | some c => exact placed_poll hr h hn
      | drop n =>
        rw [onIncident, perform, opsAmid, opsOf]
        cases hn : s.calls[n]? with
        | none => exact h
        | some c =>
          refine h.of_eraseIdx hn rfl fun op hop w hw => ?_
          cases c with
          | inLine u e =>
            obtain rfl := List.mem_singleton.mp hop
            exact hw
          | _ => cases hop
      | _ => cases haside

end Scene

end Switchboard
