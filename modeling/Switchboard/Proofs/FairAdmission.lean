import Switchboard.Proofs.Duplicates
import Switchboard.Proofs.SlotAccounts
import Switchboard.Proofs.WaitingCalls

/-!
Who is admitted next. Registrations that have to wait are admitted in the order in which
they began to: those who were not given up are the ones that have been admitted, followed by
those who wait without a slot. Nobody waits without a slot while one is free, and while
somebody does, nobody who comes later is admitted. A slot that is given back, by a request
that is settled or by a waiter that is given up with it, admits the first in line and nobody
else. Once the registry shuts down, nobody is admitted any more.
-/
namespace Switchboard

open Visit

namespace Gate

/-- Whoever stands in line has been allowed to wait, and no slot is free. -/
structure Conserving (g : Gate) : Prop where
  free : g.line ≠ [] → g.free = 0
  policy : g.line ≠ [] → g.policy = .block

variable {g g' : Gate}

namespace Conserving

theorem of_line_nil (h : g.line = []) : g.Conserving :=
  ⟨fun hne => absurd h hne, fun hne => absurd h hne⟩

theorem leave (h : g.Conserving) : g.leave.Conserving := by
  cases hline : g.line with
  | nil =>
    rw [leave_of_line_nil hline]
    exact of_line_nil hline
  | cons w rest =>
    have hne : g.line ≠ [] := by
      rw [hline]
      exact List.cons_ne_nil _ _
    rw [leave_of_line_cons hline]
    exact ⟨fun _ => h.free hne, fun _ => h.policy hne⟩

end Conserving

theorem invariant_conserving : Invariant Conserving where
  take h hfree := Conserving.of_line_nil (by_contra fun hne => hfree (h.free hne))
  joinLine _ hfree hblock := ⟨fun _ => hfree, fun _ => hblock⟩
  leave h := h.leave
  eraseLine {g} w h := by
    have hline : g.line.erase w ≠ [] → g.line ≠ [] := by
      intro hne hnil
      rw [hnil] at hne
      exact hne rfl
    exact ⟨fun hne => h.free (hline hne), fun hne => h.policy (hline hne)⟩
  eraseHanded _ h := ⟨h.free, h.policy⟩
  shutDown _ := Conserving.of_line_nil rfl

theorem Passes.conserving (hp : g.Passes g') (h : g.Conserving) : g'.Conserving :=
  invariant_conserving.passes hp h

theorem Conserving.tryEnter_eq (h : g.Conserving) (hopen : g.shut = false)
    (hline : g.line ≠ []) :
    g.tryEnter = .error (.admissionRejected g.ceiling g.ceiling) := by
  simp [Gate.tryEnter, hopen, h.free hline, inflight]

theorem Conserving.enter_eq (h : g.Conserving) (hopen : g.shut = false)
    (hline : g.line ≠ []) : g.enter = (g.joinLine.1, .waiting g.joinLine.2) := by
  have hwait : g.mayWait = true := by simp [mayWait, hopen, h.policy hline]
  simp [Gate.enter, h.tryEnter_eq hopen hline, hwait]

/-- A slot that is given back is one less in flight if nobody is in line for it. -/
theorem inflight_leave (hroom : g.free < g.ceiling) :
    g.leave.inflight + (if g.line = [] then 1 else 0) = g.inflight := by
  cases hline : g.line with
  | nil =>
    rw [leave_of_line_nil hline]
    simp only [inflight, if_true]
    omega
  | cons w rest =>
    rw [leave_of_line_cons hline]
    simp [inflight]

end Gate

namespace Registry

/-- Whether a registration that had to wait has been admitted: it has its handle, or would
get it if it came back now. -/
def isAdmitted (r : Registry) (v : Visit) : Bool :=
  match v.fate with
  | .ended (.granted _) => true
  | .waits => (r.resume v.waiter).2.handle?.isSome
  | _ => false

/-- Whether a registration waits, and would go on waiting if it came back now. -/
def isQueued (r : Registry) (v : Visit) : Bool :=
  decide (v.fate = .waits ∧ (r.resume v.waiter).2 = .waiting v.waiter)

/-- Those that had to wait and have been admitted, in the order of their arrival. -/
def admitted (r : Registry) (vs : List Visit) : List Visit := vs.filter r.isAdmitted

/-- Those that wait without a slot, in the order of their arrival. -/
def queued (r : Registry) (vs : List Visit) : List Visit := vs.filter r.isQueued

/-- A slot has been given back: it has gone to the first of those who waited, and if there
was none, there is one less in flight. The others wait on. -/
structure HandsOn (r s : Registry) (vs vs' kept : List Visit) : Prop where
  admitted : s.admitted vs' = kept ++ (r.queued vs).head?.toList
  queued : s.queued vs' = (r.queued vs).tail
  inflight : s.gate.inflight + (if r.queued vs = [] then 1 else 0) = r.gate.inflight

variable {r : Registry} {vs front : List Visit}

namespace Attended

theorem gate_open (h : r.Attended vs) (hready : r.lifecycle = .ready) :
    r.gate.shut = false := by
  rw [h.shut, hready]
  rfl

theorem isAdmitted_of_hasSlot (h : r.Attended vs) (hready : r.lifecycle = .ready) {v : Visit}
    (hv : v.HasSlot r.gate) : r.isAdmitted v = true ∧ r.isQueued v = false := by
  rcases hv with ⟨a, ha⟩ | ⟨hwaits, hhanded⟩
  · simp [isAdmitted, isQueued, ha]
  · obtain ⟨-, a, ha⟩ := resume_of_handed hready (h.gate_open hready) hhanded
    simp [isAdmitted, isQueued, hwaits, ha, Registration.handle?]

theorem isQueued_of_mem_line (h : r.Attended vs) (hready : r.lifecycle = .ready) {w : Waiter}
    (hw : w ∈ r.gate.line) :
    r.isAdmitted (inLine w) = false ∧ r.isQueued (inLine w) = true := by
  have hnot : w ∉ r.gate.handed := fun hmem => h.seats.orderly.notMem_line hmem hw
  have hwaits := resume_of_notMem (h.gate_open hready) hnot
  have hfate : (inLine w).fate = .waits := rfl
  have hwaiter : (inLine w).waiter = w := rfl
  simp [isAdmitted, isQueued, hfate, hwaiter, hwaits, Registration.handle?]

/-- What the answers to those who come back say is where they are at the gate. -/
theorem eq_of_serves (h : r.Attended vs) (hready : r.lifecycle = .ready)
    (hs : r.gate.Serves vs front) :
    r.admitted vs = front ∧ r.queued vs = r.gate.line.map inLine := by
  have hstayed : ∀ v, (r.isAdmitted v = true ∨ r.isQueued v = true) →
      Visit.stayed v = true := by
    intro v hv
    cases hfate : v.fate with
    | givenUp => simp [isAdmitted, isQueued, hfate] at hv
    | waits => simp [Visit.stayed, hfate]
    | ended a => simp [Visit.stayed, hfate]
  have hsplit : ∀ p : Visit → Bool, (∀ v, p v = true → Visit.stayed v = true) →
      vs.filter p = front.filter p ++ (r.gate.line.map inLine).filter p := by
    intro p hp
    rw [← List.filter_append, ← hs.stayed, List.filter_filter]
    apply List.filter_congr
    intro v _
    cases hpv : p v with
    | false => rfl
    | true => rw [hp v hpv]; rfl
  have hfront := fun v hv => h.isAdmitted_of_hasSlot hready (hs.front v hv)
  have hline : ∀ v ∈ r.gate.line.map inLine, r.isAdmitted v = false ∧ r.isQueued v = true := by
    intro v hv
    obtain ⟨w, hw, rfl⟩ := List.mem_map.mp hv
    exact h.isQueued_of_mem_line hready hw
  constructor
  · rw [admitted, hsplit _ fun v hv => hstayed v (Or.inl hv),
      List.filter_eq_self.mpr fun v hv => (hfront v hv).1,
      List.filter_eq_nil_iff.mpr fun v hv => by simp [(hline v hv).1], List.append_nil]
  · rw [queued, hsplit _ fun v hv => hstayed v (Or.inr hv),
      List.filter_eq_self.mpr fun v hv => (hline v hv).2,
      List.filter_eq_nil_iff.mpr fun v hv => by simp [(hfront v hv).2], List.nil_append]

theorem serves (h : r.Attended vs) (hready : r.lifecycle = .ready) :
    r.gate.Serves vs (r.admitted vs) ∧ r.queued vs = r.gate.line.map inLine := by
  obtain ⟨front, hs⟩ := h.seats.serves (h.gate_open hready)
  obtain ⟨hadmitted, hqueued⟩ := h.eq_of_serves hready hs
  exact ⟨hadmitted ▸ hs, hqueued⟩

theorem handsOn_leave (h : r.Attended vs) (hready : r.lifecycle = .ready) {s : Registry}
    {g : Gate} {vs' kept : List Visit} (hs : s.Attended vs') (hsready : s.lifecycle = .ready)
    (hgate : s.gate = g.leave) (hline : g.line = r.gate.line) (hfree : g.free = r.gate.free)
    (hceiling : g.ceiling = r.gate.ceiling) (hroom : r.gate.free < r.gate.ceiling)
    (hserves : g.Serves vs' kept) : HandsOn r s vs vs' kept := by
  obtain ⟨-, hqueued⟩ := h.serves hready
  obtain ⟨hfront, hrest⟩ := hserves.leave
  rw [← hgate] at hfront hrest
  obtain ⟨hadmitted, hqueued'⟩ := hs.eq_of_serves hsready hfront
  refine ⟨?_, ?_, ?_⟩
  · rw [hadmitted, hqueued, hline, List.head?_map]
  · rw [hqueued', hqueued, hrest, hline, List.map_tail]
  · have hroom' : g.free < g.ceiling := by omega
    have hinflight := Gate.inflight_leave hroom'
    rw [hline] at hinflight
    have hsame : g.inflight = r.gate.inflight := by
      rw [Gate.inflight, Gate.inflight, hfree, hceiling]
    simp only [hgate, hqueued, List.map_eq_nil_iff]
    exact hinflight.trans hsame

end Attended

theorem gate_settle (hr : Sound r) {h : Handle} (hh : h ∈ r.pending)
    (hid : h.id ≠ RequestId.handshake) (o : Outcome) :
    (r.after (.settle h.id o)).gate = r.gate.leave := by
  have hafter : r.after (.settle h.id o) = r.strike h o := settle_of_mem hr hh o
  have hordinary : h.id.isHandshake = false := by simp [RequestId.isHandshake, hid]
  rw [hafter]
  simp [strike, discharge_eq, hordinary]

theorem Sound.free_lt_of_mem (hr : Sound r) {h : Handle} (hh : h ∈ r.pending)
    (hid : h.id ≠ RequestId.handshake) : r.gate.free < r.gate.ceiling := by
  have hmem : h.id ∈ r.ordinaryIds :=
    List.mem_filter.mpr ⟨List.mem_map_of_mem hh, by simp [RequestId.isHandshake, hid]⟩
  have hpos : 0 < r.ordinaryIds.length := List.length_pos_of_mem hmem
  have hslots := hr.slots
  simp only [Gate.slots] at hslots
  omega

theorem Sound.free_lt_of_handed (hr : Sound r) {w : Waiter} (hw : w ∈ r.gate.handed) :
    r.gate.free < r.gate.ceiling := by
  have hpos : 0 < r.gate.handed.length := List.length_pos_of_mem hw
  have hslots := hr.slots
  simp only [Gate.slots] at hslots
  omega

/-! Who comes, who goes, and whose request is settled -/

/-- With somebody waiting without a slot, whoever comes later joins the end of the line, or
is turned away. -/
theorem Attended.register_of_queued (h : r.Attended vs) (hready : r.lifecycle = .ready)
    (hc : r.gate.Conserving) (hne : r.queued vs ≠ []) :
    r.gate.inflight = r.gate.ceiling ∧
      r.tryRegister =
        (r, .error (.admissionRejected r.gate.ceiling r.gate.ceiling)) ∧
      ∃ w, r.register.2 = .waiting w ∧
        (r.after .register).admitted (r.note vs .register) = r.admitted vs ∧
        (r.after .register).queued (r.note vs .register) = r.queued vs ++ [inLine w] := by
  have hopen := h.gate_open hready
  have hrej : r.rejection = none := (rejection_eq_none_iff r).mpr hready
  obtain ⟨hserves, hqueued⟩ := h.serves hready
  have hline : r.gate.line ≠ [] := by
    intro hnil
    rw [hqueued, hnil] at hne
    exact hne rfl
  have hregister : r.register =
      ({ r with gate := r.gate.joinLine.1 }, .waiting r.gate.joinLine.2) := by
    simp only [register, hrej, hc.enter_eq hopen hline, onAdmission]
  have hnote : r.note vs .register = vs ++ [inLine r.gate.joinLine.2] := by
    simp only [note, hregister]
  have hafter : (r.after .register).gate = r.gate.joinLine.1 := by
    simp only [Registry.after, act, hregister]
  have hattended := h.after .register
  have hlife : (r.after .register).lifecycle = .ready := by
    simp only [Registry.after, act, hregister]
    exact hready
  rw [hnote] at hattended ⊢
  obtain ⟨hadmitted, hqueued'⟩ :=
    hattended.eq_of_serves hlife (hafter ▸ hserves.joinLine)
  refine ⟨by simp [Gate.inflight, hc.free hline], ?_, r.gate.joinLine.2, by rw [hregister],
    hadmitted, ?_⟩
  · simp [tryRegister, hrej, hc.tryEnter_eq hopen hline]
  · rw [hqueued', hqueued, hafter]
    simp [Gate.joinLine]

theorem Attended.handsOn_settle (h : r.Attended vs) (hready : r.lifecycle = .ready)
    (hr : Sound r) {a : Handle} (ha : a ∈ r.pending) (hid : a.id ≠ RequestId.handshake)
    (o : Outcome) :
    HandsOn r (r.after (.settle a.id o)) vs (r.note vs (.settle a.id o)) (r.admitted vs) := by
  have hlife : (r.after (.settle a.id o)).lifecycle = .ready :=
    (lifecycle_settle r a.id o).trans hready
  exact h.handsOn_leave hready (h.after _) hlife (gate_settle hr ha hid o) rfl rfl rfl
    (hr.free_lt_of_mem ha hid) (h.serves hready).1

theorem Attended.handsOn_abandon (h : r.Attended vs) (hready : r.lifecycle = .ready)
    (hr : Sound r) {w : Waiter} (hw : inLine w ∈ r.admitted vs) :
    HandsOn r (r.after (.abandon w)) vs (r.note vs (.abandon w))
      ((r.admitted vs).filter (· ≠ inLine w)) := by
  obtain ⟨hserves, -⟩ := h.serves hready
  have hhanded : w ∈ r.gate.handed := by
    rcases hserves.front _ hw with ⟨a, ha⟩ | ⟨-, hmem⟩
    · cases ha
    · exact hmem
  have hgate : (r.after (.abandon w)).gate = (r.gate.without w).leave := by
    change r.gate.withdraw w = _
    rw [h.seats.orderly.withdraw_eq, if_pos hhanded]
  exact h.handsOn_leave hready (h.after _) hready hgate
    (List.erase_of_not_mem (h.seats.orderly.notMem_line hhanded)) rfl rfl
    (hr.free_lt_of_handed hhanded) (hserves.giveUp h.seats.orderly w)

theorem Attended.abandon_of_queued (h : r.Attended vs) (hready : r.lifecycle = .ready)
    {w : Waiter} (hw : inLine w ∈ r.queued vs) :
    (r.after (.abandon w)).admitted (r.note vs (.abandon w)) = r.admitted vs ∧
      (r.after (.abandon w)).queued (r.note vs (.abandon w)) =
        (r.queued vs).filter (· ≠ inLine w) := by
  obtain ⟨hserves, hqueued⟩ := h.serves hready
  have ho := h.seats.orderly
  have hline : w ∈ r.gate.line := by
    rw [hqueued] at hw
    obtain ⟨u, hu, heq⟩ := List.mem_map.mp hw
    exact inLine_injective heq ▸ hu
  have hnot : w ∉ r.gate.handed := fun hmem => ho.notMem_line hmem hline
  have hgate : (r.after (.abandon w)).gate = r.gate.without w := by
    change r.gate.withdraw w = _
    rw [ho.withdraw_eq, if_neg hnot]
  have hsame : (r.admitted vs).filter (· ≠ inLine w) = r.admitted vs := by
    refine List.filter_eq_self.mpr fun v hv => decide_eq_true ?_
    rintro rfl
    rcases hserves.front _ hv with ⟨a, ha⟩ | ⟨-, hmem⟩
    · cases ha
    · exact hnot hmem
  have hgone := hserves.giveUp ho w
  rw [← hgate, hsame] at hgone
  obtain ⟨hadmitted, hqueued'⟩ := (h.after (.abandon w)).eq_of_serves hready hgone
  refine ⟨hadmitted, ?_⟩
  rw [hqueued', hqueued, hgate, Gate.Serves.filter_map_inLine ho w]
  rfl

/-! Shutting down -/

theorem granted_of_isShuttingDown (h : r.lifecycle.isShuttingDown = true) (ops : List Op) :
    r.granted ops = [] := by
  induction ops generalizing r with
  | nil => rfl
  | cons op ops ih =>
    rw [granted, grants_of_isShuttingDown h op, ih ((change_of_act r op).isShuttingDown h)]
    rfl

/-- From the beginning of the end on nobody is admitted, and whoever waits fails. -/
theorem Attended.turns_away (h : r.Attended vs) (hshut : r.lifecycle.isShuttingDown = true)
    (more : List Op) :
    r.granted more = [] ∧ ∀ w, ∃ f, ((r.run more).resume w).2 = .refused f := by
  refine ⟨granted_of_isShuttingDown hshut more, fun w => ?_⟩
  have hleads : r.LeadsTo (r.run more) := ⟨more, rfl⟩
  have hlater := (h.recordFrom more).shut
  rw [hleads.isShuttingDown hshut] at hlater
  exact (resume_of_shut hlater w).2

/-- As long as a registry with a line is ready, those who had to wait and were not given up
are admitted in the order of their arrival. While somebody waits without a slot, all slots
are in flight, and whoever comes waits behind the others or is turned away. A slot that is
given back goes to the first who waits for one. When the close begins or the end comes,
nobody is admitted any more, and whoever waits fails, also with a slot in hand. -/
theorem admitted_in_order {ceiling : Nat} (hmake : make ceiling .block = .ok r) (ops : List Op)
    (hready : (r.run ops).lifecycle = .ready) :
    let s := r.run ops
    let vs := r.visits ops
    let next := fun op => r.visits (ops ++ [op])
    vs.filter Visit.stayed = s.admitted vs ++ s.queued vs ∧
      (s.queued vs ≠ [] → s.gate.inflight = ceiling ∧
        s.tryRegister = (s, .error (.admissionRejected ceiling ceiling)) ∧
        ∃ w, s.register.2 = .waiting w ∧
          (s.after .register).admitted (next .register) = s.admitted vs ∧
          (s.after .register).queued (next .register) = s.queued vs ++ [inLine w]) ∧
      (∀ h ∈ s.pending, h.id ≠ RequestId.handshake → ∀ o,
        HandsOn s (s.after (.settle h.id o)) vs (next (.settle h.id o)) (s.admitted vs)) ∧
      (∀ w, inLine w ∈ s.admitted vs →
        HandsOn s (s.after (.abandon w)) vs (next (.abandon w))
          ((s.admitted vs).filter (· ≠ inLine w))) ∧
      (∀ w, inLine w ∈ s.queued vs →
        (s.after (.abandon w)).admitted (next (.abandon w)) = s.admitted vs ∧
        (s.after (.abandon w)).queued (next (.abandon w)) =
          (s.queued vs).filter (· ≠ inLine w)) ∧
      ∀ op, (op = .beginClosing ∨ ∃ f, op = .failAll f) → ∀ more,
        (s.after op).granted more = [] ∧
          ∀ w, ∃ f, (((s.after op).run more).resume w).2 = .refused f := by
  intro s vs next
  have hattended : s.Attended vs := attended_visits hmake ops
  have hsound : Sound s := sound_run (sound_of_make hmake) ops
  have hconserving : s.gate.Conserving := by
    obtain ⟨g, hgate, rfl⟩ := eq_of_make hmake
    have hstart : g.Conserving := Gate.Conserving.of_line_nil (Gate.line_of_make hgate)
    exact run_induction (P := fun s => s.gate.Conserving) hstart
      (fun s op hs => (passes_after s op).conserving hs) ops
  have hceiling : s.gate.ceiling = ceiling :=
    (ceiling_run r ops).trans (ceiling_of_make hmake).1
  have hnext : ∀ op, next op = s.note vs op := visits_concat r ops
  simp only [hnext]
  refine ⟨?_, ?_, fun h hh hid o => hattended.handsOn_settle hready hsound hh hid o,
    fun w hw => hattended.handsOn_abandon hready hsound hw,
    fun w hw => hattended.abandon_of_queued hready hw, ?_⟩
  · obtain ⟨hserves, hqueued⟩ := hattended.serves hready
    rw [hqueued]
    exact hserves.stayed
  · intro hne
    have hregister := hattended.register_of_queued hready hconserving hne
    rwa [hceiling] at hregister
  · intro op hop more
    refine (hattended.after op).turns_away ?_ more
    rcases hop with rfl | ⟨f, rfl⟩
    · exact isShuttingDown_beginClosing s
    · change (s.failAll f).1.lifecycle.isShuttingDown = true
      rw [lifecycle_failAll]
      rfl

/-- Two slots and six requests. The first two have been settled; of the four that had to wait,
one has come for its slot, one was given up with its slot in hand, one has that slot now, and
one is in line. -/
def queue : List Op :=
  [.markReady, .register, .register, .register, .register, .register, .register,
    .settle ⟨1⟩ (.ok .nil), .resume ⟨0⟩, .settle ⟨2⟩ (.ok .nil), .abandon ⟨1⟩]

theorem order_of_queue :
    ∃ r, make 2 .block = .ok r ∧
      let s := r.run queue
      let vs := r.visits queue
      s.admitted vs = [⟨⟨0⟩, .ended (.granted ⟨⟨1⟩, ⟨2⟩⟩)⟩, inLine ⟨2⟩] ∧
        s.queued vs = [inLine ⟨3⟩] ∧ s.gate.inflight = 2 ∧
        s.tryRegister.2 = .error (.admissionRejected 2 2) ∧
        (s.after (.abandon ⟨2⟩)).admitted (r.visits (queue ++ [.abandon ⟨2⟩])) =
          [⟨⟨0⟩, .ended (.granted ⟨⟨1⟩, ⟨2⟩⟩)⟩, inLine ⟨3⟩] ∧
        ∀ more, (s.after .beginClosing).granted more = [] := by
  have hmake : make 2 .block = .ok { gate := { ceiling := 2, policy := .block, free := 2 } } :=
    rfl
  obtain ⟨-, hfull, -, habandon, -, hshut⟩ := admitted_in_order hmake queue (by decide)
  obtain ⟨hinflight, htry, -⟩ := hfull (by decide)
  refine ⟨_, hmake, by decide, by decide, hinflight, by rw [htry], ?_,
    fun more => (hshut _ (Or.inl rfl) more).1⟩
  rw [(habandon ⟨2⟩ (by decide)).admitted]
  decide

end Registry

end Switchboard
