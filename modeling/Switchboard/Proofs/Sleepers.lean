import Switchboard.Proofs.Operations
import Switchboard.Proofs.Signals

/-!
Calls that sleep. A call that has had a look and waits on listens to one signal, and what
this signal tells of has not come about. Whoever stands in line has a place of its own, on
record since it came, for as long as its call waits.
-/
namespace Switchboard

open Registry (Op Attended)
open Visit (inLine turn)

namespace Call

/-- The signal a call listens to. Who waits for a socket hears of it from elsewhere. -/
def signal? : Call → Option Signal
  | inLine w _ => some (.called w)
  | drained => some .idle
  | closed => some .moved
  | closing _ => some .idle
  | settled h => some (.settled h.ticket)
  | settledBy h _ _ => some (.settled h.ticket)
  | answered h _ _ => some (.settled h.ticket)
  | greeted h _ _ => some (.settled h.ticket)
  | linking => none
  | dialling _ _ _ => none

/-- The deadline at which a call has a look without a signal. -/
def deadline? : Call → Option Instant
  | closing deadline? => deadline?
  | settledBy _ _ deadline? => deadline?
  | answered _ _ deadline? => deadline?
  | greeted _ _ deadline => some deadline
  | _ => none

/-- What the call listens for has not come about. -/
def Sleeps (r : Registry) (c : Call) : Prop := ∃ sig, c.signal? = some sig ∧ r.Awaits sig

theorem place?_of_signal? {c : Call} {w : Waiter} (h : c.signal? = some (.called w)) :
    c.place? = some w := by
  cases c with
  | inLine u e => exact congrArg some (Signal.called.inj (Option.some.inj h))
  | _ => cases h

end Call

/-- The call that waits on, if it does. -/
def Progress.call? : Progress → Option Call
  | waiting c => some c
  | finished _ => none

namespace Registry

variable {r : Registry} {vs : List Visit} {w : Waiter}

/-! The record -/

/-- Whoever waits stays on record while it neither comes back nor is given up. -/
theorem mem_note (h : inLine w ∈ vs) {op : Op} (hop : op.waiter? ≠ some w) :
    inLine w ∈ r.note vs op := by
  have hturn : ∀ {u : Waiter} (f : Fate), u ≠ w → inLine w ∈ vs.map (turn u f) := by
    intro u f hne
    refine List.mem_map.mpr ⟨inLine w, h, Visit.turn_of_ne ?_ f⟩
    exact fun heq => hne (Visit.inLine_injective heq).symm
  have hne : ∀ u, op.waiter? = some u → u ≠ w := by
    rintro u hu rfl
    exact hop hu
  cases op with
  | register =>
    rw [note]
    split
    · exact List.mem_append_left _ h
    · exact h
  | resume u =>
    rw [note]
    split
    · exact h
    · exact hturn _ (hne u rfl)
  | abandon u => exact hturn _ (hne u rfl)
  | _ => exact h

theorem mem_recordFrom (h : inLine w ∈ vs) {ops : List Op}
    (hops : ∀ op ∈ ops, op.waiter? ≠ some w) : inLine w ∈ recordFrom vs r ops := by
  induction ops generalizing r vs with
  | nil => exact h
  | cons op ops ih =>
    exact ih (mem_note h (hops op List.mem_cons_self))
      fun op' hop' => hops op' (List.mem_cons_of_mem _ hop')

namespace Attended

theorem discharge (h : r.Attended vs) (o : Outcome) (a : Handle) :
    (Registry.discharge o r a).Attended vs where
  seats := by
    rw [Registry.discharge_eq]
    dsimp only
    split
    · exact h.seats
    · exact h.seats.leave
  shut := by
    rw [Registry.discharge_eq]
    dsimp only
    split
    · exact h.shut
    · rw [Gate.shut_leave]
      exact h.shut
  connecting := h.connecting

theorem drain (h : r.Attended vs) (o : Outcome) (hs : List Handle) :
    (hs.foldl (Registry.discharge o) r).Attended vs := by
  induction hs generalizing r with
  | nil => exact h
  | cons a hs ih => exact ih (h.discharge o a)

/-- Whoever is on record and has no slot stands in line, as long as the gate is open. -/
theorem mem_line (h : r.Attended vs) (hopen : r.gate.shut = false) (hw : inLine w ∈ vs)
    (hslot : w ∉ r.gate.handed) : w ∈ r.gate.line := by
  obtain ⟨front, hserves⟩ := h.seats.serves hopen
  have hmem : inLine w ∈ front ++ r.gate.line.map inLine := by
    rw [← hserves.stayed]
    exact List.mem_filter.mpr ⟨hw, rfl⟩
  rcases List.mem_append.mp hmem with hfront | hline
  · rcases hserves.front _ hfront with ⟨a, ha⟩ | ⟨-, hhanded⟩
    · cases ha
    · exact absurd hhanded hslot
  · obtain ⟨u, hu, heq⟩ := List.mem_map.mp hline
    rwa [← Visit.inLine_injective heq]

theorem of_resume_waiting (h : r.Attended vs) {u : Waiter} (hw : (r.resume w).2 = .waiting u) :
    u = w ∧ (r.resume w).1 = r ∧ r.gate.shut = false ∧ w ∉ r.gate.handed := by
  cases hshut : r.gate.shut with
  | true =>
    obtain ⟨-, f, hf⟩ := resume_of_shut hshut w
    rw [hf] at hw
    cases hw
  | false =>
    by_cases hslot : w ∈ r.gate.handed
    · obtain ⟨-, a, ha⟩ := resume_of_handed (h.ready_of_handed hshut hslot) hshut hslot
      rw [ha] at hw
      cases hw
    · rw [resume_of_notMem hshut hslot] at hw ⊢
      exact ⟨(Registration.waiting.inj hw).symm, rfl, rfl, hslot⟩

end Attended

/-- Whoever is told to wait when it comes stands in line, and goes on record. -/
theorem register_waiting (hw : r.register.2 = .waiting w) (vs : List Visit) :
    w ∈ r.register.1.gate.line ∧ r.note vs .register = vs ++ [inLine w] := by
  refine ⟨?_, by simp [note, hw]⟩
  unfold register at hw ⊢
  cases hrej : r.rejection with
  | some f =>
    rw [hrej] at hw
    cases hw
  | none =>
    rw [hrej] at hw
    rcases r.gate.enter_cases with ⟨g, -, henter⟩ | ⟨-, -, -, henter⟩ | ⟨f, -, henter⟩
    · have hready : r.lifecycle = .ready := (rejection_eq_none_iff r).mp hrej
      obtain ⟨-, a, ha⟩ := gate_enroll_of_ready (g := g) hready
      simp [henter, onAdmission, ha, Registration.ofExcept] at hw
    · simp only [henter, onAdmission, Registration.waiting.injEq] at hw ⊢
      rw [← hw]
      exact List.mem_append_right _ (List.mem_singleton_self _)
    · simp [henter, onAdmission] at hw

end Registry

/-! What a look leaves behind -/

namespace Link

variable {l : Link} {now : Instant} {c d : Call}

theorem sleeps_awaitGreeting {h : Handle} {limit : Duration} {deadline : Instant}
    (hd : (l.awaitGreeting now h limit deadline).2 = .waiting d) :
    l.awaitGreeting now h limit deadline = (l, .waiting d) ∧ d.place? = none ∧
      d.Sleeps l.registry := by
  obtain rfl := waiting_awaitGreeting hd
  unfold awaitGreeting at hd ⊢
  cases houtcome : l.outcome? h with
  | some o =>
    rw [houtcome] at hd
    cases o <;> cases hd
  | none =>
    rw [houtcome] at hd
    dsimp only at hd ⊢
    split_ifs at hd with hlate
    rw [if_neg hlate]
    exact ⟨rfl, rfl, _, rfl, houtcome⟩

theorem sleeps_establish {s : Setup} {limit : Duration} {deadline : Instant}
    (hd : (l.establish now s limit deadline).2 = .waiting d) :
    d.place? = none ∧ d.Sleeps (l.establish now s limit deadline).1.registry := by
  obtain ⟨h, l', hconnect, -⟩ := waiting_establish hd
  unfold establish at hd ⊢
  rw [hconnect] at hd ⊢
  obtain ⟨hsame, hplace, hsleeps⟩ := sleeps_awaitGreeting hd
  dsimp only
  rw [hsame]
  exact ⟨hplace, hsleeps⟩

/-- Whoever goes on with an errand waits in line as before, or sleeps until its answer. -/
theorem sleeps_proceed {e : Errand} {a : Link × Registration}
    (hd : (proceed now e a).2 = .waiting d) :
    (∃ w, a.2 = .waiting w ∧ d = .inLine w e ∧ (proceed now e a).1 = a.1 ∧
        proceedOps e a = []) ∨
      d.place? = none ∧ d.Sleeps (proceed now e a).1.registry := by
  rcases waiting_proceed hd with ⟨w, hwaiting, rfl, hsame⟩ |
    ⟨g, p, limit, h, l', -, -, -, hafter, hnone, rfl⟩
  · refine Or.inl ⟨w, hwaiting, rfl, hsame, ?_⟩
    obtain ⟨l, a⟩ := a
    obtain rfl : a = .waiting w := hwaiting
    rfl
  · rw [hafter]
    exact Or.inr ⟨rfl, _, rfl, hnone⟩

/-- Whoever registers and has to wait goes on record, and stands in line. -/
theorem sleeps_start {e : Errand} (hd : (l.start now e).2 = .waiting d) :
    d.Sleeps (l.start now e).1.registry ∧
      ∀ w, d.place? = some w → l.registry.register.2 = .waiting w ∧
        l.startOps e = [.register] := by
  rcases sleeps_proceed hd with ⟨w, hwaiting, rfl, hsame, hops⟩ | ⟨hplace, hsleeps⟩
  · have hline := (Registry.register_waiting hwaiting []).1
    refine ⟨⟨.called w, rfl, ?_⟩, ?_⟩
    · change w ∈ (proceed now e (l.via Registry.register)).1.registry.gate.line
      rw [hsame]
      exact hline
    · rintro u hu
      obtain rfl : w = u := Option.some.inj hu
      exact ⟨hwaiting, congrArg (Op.register :: ·) hops⟩
  · refine ⟨hsleeps, fun w hw => ?_⟩
    rw [hplace] at hw
    cases hw

end Link

namespace Call

variable {l : Link} {now : Instant} {c d : Call} {vs : List Visit}

/-- Whether the call waits on just as it is, if it does. -/
def isPatient : Call → Bool
  | inLine _ _ => false
  | linking => false
  | dialling _ _ _ => false
  | _ => true

theorem place?_of_isPatient (hc : c.isPatient = true) : c.place? = none := by
  cases c with
  | inLine w e => cases hc
  | _ => rfl

/-- A patient call that waits on sleeps, and has left the link alone. -/
theorem sleeps_of_isPatient (hc : c.isPatient = true) (hd : (c.poll now l).2 = .waiting d) :
    c.poll now l = (l, .waiting c) ∧ d = c ∧ c.Sleeps l.registry := by
  have hwait : ∀ (h : Handle) (limit : Duration) (deadline? : Option Instant),
      l.awaitBy now h limit deadline? c = .waiting d → c.signal? = some (.settled h.ticket) →
      l.awaitBy now h limit deadline? c = .waiting c ∧ d = c ∧ c.Sleeps l.registry := by
    intro h limit deadline? hwaits hsignal
    obtain rfl := Link.waiting_awaitBy hwaits
    exact ⟨hwaits, rfl, _, hsignal, Link.outcome?_of_awaitBy hwaits⟩
  cases c with
  | inLine w e => cases hc
  | linking => cases hc
  | dialling s limit deadline => cases hc
  | drained =>
    simp only [poll] at hd ⊢
    split_ifs at hd with hdrained
    rw [if_neg hdrained]
    refine ⟨rfl, (Progress.waiting.inj hd).symm, .idle, rfl, ?_⟩
    exact Registry.awaits_idle_iff.mpr (by simpa using hdrained)
  | closed =>
    simp only [poll] at hd ⊢
    split_ifs at hd with hclosed
    rw [if_neg hclosed]
    refine ⟨rfl, (Progress.waiting.inj hd).symm, .moved, rfl, ?_⟩
    exact Registry.awaits_moved_iff.mpr (by simpa using hclosed)
  | closing deadline? =>
    simp only [poll] at hd ⊢
    split_ifs at hd with hdone
    rw [if_neg hdone]
    refine ⟨rfl, (Progress.waiting.inj hd).symm, .idle, rfl, ?_⟩
    rw [Bool.or_eq_true, not_or] at hdone
    exact Registry.awaits_idle_iff.mpr (by simpa using hdone.1)
  | settled h =>
    simp only [poll] at hd ⊢
    cases houtcome : l.outcome? h with
    | none =>
      rw [houtcome] at hd
      exact ⟨rfl, (Progress.waiting.inj hd).symm, _, rfl, houtcome⟩
    | some o =>
      rw [houtcome] at hd
      cases hd
  | settledBy h limit deadline? =>
    obtain ⟨hsame, heq, hsleeps⟩ := hwait h limit deadline? hd rfl
    exact ⟨congrArg (Prod.mk l) hsame, heq, hsleeps⟩
  | answered h limit deadline? =>
    obtain ⟨hsame, heq, hsleeps⟩ := hwait h limit deadline? hd rfl
    exact ⟨congrArg (Prod.mk l) hsame, heq, hsleeps⟩
  | greeted h limit deadline =>
    obtain ⟨hsame, -, hsleeps⟩ := Link.sleeps_awaitGreeting hd
    obtain rfl := Link.waiting_awaitGreeting hd
    exact ⟨hsame, rfl, hsleeps⟩

theorem sleeps_close (hd : (l.close now).2 = .waiting d) :
    d.place? = none ∧ d.Sleeps (l.close now).1.registry := by
  obtain ⟨hlate, hlook⟩ := Link.waiting_close hd
  have hpatient : d.isPatient = true := by
    rcases hlate with rfl | rfl
    · rfl
    · rfl
  rw [hlook] at hd ⊢
  obtain ⟨hsame, -, hsleeps⟩ := sleeps_of_isPatient hpatient hd
  rw [hsame]
  exact ⟨place?_of_isPatient hpatient, hsleeps⟩

/-- A call that waits on after a look sleeps. If it stands in line, it has stood there
before. -/
theorem sleeps_poll (hr : l.registry.Attended vs)
    (hc : ∀ w, c.place? = some w → Visit.inLine w ∈ vs) (hd : (c.poll now l).2 = .waiting d) :
    d.Sleeps (c.poll now l).1.registry ∧
      ∀ w, d.place? = some w → d = c ∧ (l.registry.resume w).2 = .waiting w ∧
        c.lookOps now l = [.resume w] := by
  have hnone : d.place? = none → ∀ w, d.place? = some w → d = c ∧
      (l.registry.resume w).2 = .waiting w ∧ c.lookOps now l = [.resume w] := by
    intro hplace w hw
    rw [hplace] at hw
    cases hw
  cases hpatient : c.isPatient with
  | true =>
    obtain ⟨hsame, rfl, hsleeps⟩ := sleeps_of_isPatient hpatient hd
    rw [hsame]
    exact ⟨hsleeps, hnone (place?_of_isPatient hpatient)⟩
  | false =>
    cases c with
    | linking => cases hd
    | dialling s limit deadline =>
      obtain ⟨hplace, hsleeps⟩ := Link.sleeps_establish hd
      exact ⟨hsleeps, hnone hplace⟩
    | inLine w e =>
      rcases Link.sleeps_proceed hd with ⟨u, hwaiting, rfl, hsame, hops⟩ | ⟨hplace, hsleeps⟩
      · obtain ⟨rfl, hstays, hopen, hslot⟩ := hr.of_resume_waiting hwaiting
        refine ⟨⟨.called u, rfl, ?_⟩, ?_⟩
        · change u ∈ (Link.proceed now e (l.via (·.resume u))).1.registry.gate.line
          rw [hsame, Link.registry_via, hstays]
          exact hr.mem_line hopen (hc u rfl) hslot
        · intro v hv
          obtain rfl : u = v := Option.some.inj hv
          exact ⟨rfl, hwaiting, congrArg (Op.resume u :: ·) hops⟩
      · exact ⟨hsleeps, hnone hplace⟩
    | _ => cases hpatient

end Call

end Switchboard
