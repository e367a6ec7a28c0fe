import Switchboard.Proofs.FairAdmission

/-!
The signals of a registry. Whoever waits for something sleeps until a signal comes: that the
lifecycle has moved, that nothing is pending any more, that a request has its outcome, or
that a place in line is called up. `signals` says which signals an operation gives, and
`Awaits` that what a signal tells of has not come about. It never comes about without its
signal.
-/
namespace Switchboard

inductive Signal where
  /-- The lifecycle has moved. -/
  | moved
  /-- Nothing is pending. -/
  | idle
  /-- The request with this ticket has its outcome. -/
  | settled (t : Ticket)
  /-- The waiter has a slot, or nobody will have one any more. -/
  | called (w : Waiter)
deriving DecidableEq

namespace Gate

/-- A slot that is given back calls up the first in line. -/
def callNext (g : Gate) : List Signal := (g.line.head?.map Signal.called).toList

/-- A gate that shuts calls up everybody in line. -/
def callAll (g : Gate) : List Signal := g.line.map Signal.called

/-- Whoever withdraws passes on the slot it has. -/
def withdrawSignals (g : Gate) (w : Waiter) : List Signal :=
  if w ∈ g.handed then g.callNext else []

variable {g : Gate} {w : Waiter}

theorem mem_line_leave (h : w ∈ g.line) : w ∈ g.leave.line ∨ .called w ∈ g.callNext := by
  cases hline : g.line with
  | nil =>
    rw [hline] at h
    exact absurd h List.not_mem_nil
  | cons u rest =>
    rw [hline] at h
    rw [leave_of_line_cons hline]
    rcases List.mem_cons.mp h with rfl | hrest
    · exact Or.inr (by simp [callNext, hline])
    · exact Or.inl hrest

theorem line_tryEnter {g' : Gate} (h : g.tryEnter = .ok g') : g'.line = g.line := by
  rw [(eq_of_tryEnter h).2]

theorem mem_line_withdraw {u : Waiter} (h : w ∈ g.line) (hne : u ≠ w) :
    w ∈ (g.withdraw u).line ∨ .called w ∈ g.withdrawSignals u := by
  unfold withdraw withdrawSignals
  split
  · exact mem_line_leave (g := { g with handed := g.handed.erase u }) h
  · exact Or.inl ((List.mem_erase_of_ne hne.symm).mpr h)

end Gate

namespace Registry

/-- The outcome of a request is announced, unless it has one, and its slot is passed on. -/
def dischargeSignals (r : Registry) (h : Handle) : List Signal :=
  (if r.ledger.isSettled h.ticket then [] else [.settled h.ticket]) ++
    if h.id.isHandshake then [] else r.gate.callNext

def drainSignals (o : Outcome) : Registry → List Handle → List Signal
  | _, [] => []
  | r, h :: hs => r.dischargeSignals h ++ drainSignals o (discharge o r h) hs

def settleSignals (r : Registry) (id : RequestId) : List Signal :=
  match r.pending.find? fun h => h.id = id with
  | some h => (if (r.pending.erase h).isEmpty then [.idle] else []) ++ r.dischargeSignals h
  | none => []

/-- A waiter that comes back and is turned away passes on the slot it has. -/
def resumeSignals (r : Registry) (w : Waiter) : List Signal :=
  if r.gate.shut then r.gate.withdrawSignals w
  else if w ∈ r.gate.handed ∧ r.rejection.isSome then r.gate.callNext
  else []

/-- The signals that an operation gives. -/
def signals (r : Registry) : Op → List Signal
  | .greet => []
  | .register => []
  | .tryRegister => []
  | .resume w => r.resumeSignals w
  | .abandon w => r.gate.withdrawSignals w
  | .settle id _ => r.settleSignals id
  | .markReady => if r.lifecycle = .connecting then [.moved] else []
  | .beginClosing => if r.lifecycle.isShuttingDown then [] else .moved :: r.gate.callAll
  | .failAll f =>
    if r.isClosed then []
    else
      [.moved, .idle] ++ r.gate.callAll ++ drainSignals (.error f) (r.shutDown f) r.pending

/-- The signals of a list of operations. -/
def emitted : Registry → List Op → List Signal
  | _, [] => []
  | r, op :: ops => r.signals op ++ emitted (r.after op) ops

/-- A registry that goes away tells those whose requests are pending. -/
def dissolveSignals (r : Registry) : List Signal :=
  drainSignals (.error abandoned) { r with pending := [] } r.pending

/-- What the signal tells of has not come about. -/
def Awaits (r : Registry) : Signal → Prop
  | .moved => r.lifecycle ≠ .closed
  | .idle => r.pending ≠ []
  | .settled t => r.ledger.outcome? t = none
  | .called w => w ∈ r.gate.line

variable {r s : Registry} {vs : List Visit} {sig : Signal}

theorem awaits_idle_iff : r.Awaits .idle ↔ r.isDrained = false := by
  simp [Awaits, isDrained]

theorem awaits_moved_iff : r.Awaits .moved ↔ r.isClosed = false := by
  simp [Awaits, isClosed, Lifecycle.isClosed]

theorem awaits_discharge (h : r.Awaits sig) (o : Outcome) (a : Handle) :
    (discharge o r a).Awaits sig ∨ sig ∈ r.dischargeSignals a := by
  cases sig with
  | moved => exact Or.inl h
  | idle => exact Or.inl h
  | settled t =>
    by_cases heq : a.ticket = t
    · subst heq
      have hopen : r.ledger.isSettled a.ticket = false := by
        rw [Ledger.isSettled, show r.ledger.outcome? a.ticket = none from h]
        rfl
      rw [dischargeSignals, hopen]
      exact Or.inr (List.mem_append_left _ (List.mem_singleton_self _))
    · left
      rw [Awaits, ledger_discharge]
      exact (Ledger.outcome?_settle_ne o heq).trans h
  | called w =>
    cases hid : a.id.isHandshake with
    | true => exact Or.inl (by simpa [Awaits, discharge_eq, hid] using h)
    | false =>
      have hleave := Gate.mem_line_leave (g := r.gate) h
      rw [dischargeSignals, hid, Awaits, discharge_eq, hid]
      exact hleave.imp_right (List.mem_append_right _)

theorem awaits_drain (h : r.Awaits sig) (o : Outcome) (hs : List Handle) :
    (hs.foldl (discharge o) r).Awaits sig ∨ sig ∈ drainSignals o r hs := by
  induction hs generalizing r with
  | nil => exact Or.inl h
  | cons a hs ih =>
    rcases awaits_discharge h o a with hstill | hgiven
    · exact (ih hstill).imp_right (List.mem_append_right _)
    · exact Or.inr (List.mem_append_left _ hgiven)

/-- At the gate nothing comes about but that somebody is called up. -/
theorem awaits_of_isAtGate {op : Op} (hop : op.isAtGate = true) (h : r.Awaits sig)
    (hsig : ∀ w, sig ≠ .called w) : (r.after op).Awaits sig := by
  have hc := change_of_act r op
  generalize r.after op = s at hc
  generalize r.grants op = granted at hc
  cases hc with
  | waits _ _ =>
    cases sig with
    | called w => exact absurd rfl (hsig w)
    | _ => exact h
  | enters _ _ _ =>
    cases sig with
    | moved => exact h
    | idle => exact List.append_ne_nil_of_right_ne_nil _ (List.cons_ne_nil _ _)
    | settled t => exact (Ledger.outcome?_issue t).trans h
    | called w => exact absurd rfl (hsig w)
  | stays htimed =>
    cases op with
    | greet => cases hop
    | markReady => cases hop
    | beginClosing => cases hop
    | _ => cases htimed
  | greets _ _ => cases hop
  | notes _ => cases hop
  | strikes _ => cases hop
  | opens _ => cases hop
  | closes _ => cases hop
  | fails _ => cases hop
  | failsLate _ => cases hop

theorem mem_line_register {w : Waiter} (h : w ∈ r.gate.line) :
    w ∈ r.register.1.gate.line := by
  unfold register
  cases hrej : r.rejection with
  | some f => exact h
  | none =>
    have hready : r.lifecycle = .ready := (rejection_eq_none_iff r).mp hrej
    rcases r.gate.enter_cases with ⟨g, hg, henter⟩ | ⟨-, -, -, henter⟩ | ⟨f, -, henter⟩
    · simp only [henter, onAdmission]
      rw [(gate_enroll_of_ready hready).1, Gate.line_tryEnter hg]
      exact h
    · rw [henter]
      exact List.mem_append_left _ h
    · rw [henter]
      exact h

theorem line_tryRegister (r : Registry) : r.tryRegister.1.gate.line = r.gate.line := by
  unfold tryRegister
  cases hrej : r.rejection with
  | some f => rfl
  | none =>
    have hready : r.lifecycle = .ready := (rejection_eq_none_iff r).mp hrej
    cases htry : r.gate.tryEnter with
    | ok g =>
      dsimp only
      rw [(gate_enroll_of_ready hready).1, Gate.line_tryEnter htry]
    | error f => rfl

/-- Whoever stands in line stays there when somebody comes back: the gate is open, and who
comes back has a slot or waits on. -/
theorem line_resume (hr : r.Attended vs) (hne : r.gate.line ≠ []) (u : Waiter) :
    (r.resume u).1.gate.line = r.gate.line := by
  have hopen : r.gate.shut = false := by
    rw [Bool.eq_false_iff]
    exact fun hshut => hne (hr.seats.line_of_shut hshut)
  by_cases hu : u ∈ r.gate.handed
  · rw [(resume_of_handed (hr.ready_of_handed hopen hu) hopen hu).1]
  · rw [resume_of_notMem hopen hu]

theorem awaits_settle (h : r.Awaits sig) (id : RequestId) (o : Outcome) :
    (r.settle id o).1.Awaits sig ∨ sig ∈ r.settleSignals id := by
  unfold settle settleSignals
  cases hfind : r.pending.find? fun g => g.id = id with
  | none =>
    left
    cases sig <;> exact h
  | some g =>
    by_cases hidle : sig = .idle ∧ r.pending.erase g = []
    · obtain ⟨rfl, hempty⟩ := hidle
      exact Or.inr (List.mem_append_left _ (by simp [hempty]))
    · have hbefore : ({ r with pending := r.pending.erase g } : Registry).Awaits sig := by
        cases sig with
        | idle => exact fun hempty => hidle ⟨rfl, hempty⟩
        | _ => exact h
      exact (awaits_discharge hbefore o g).imp_right (List.mem_append_right _)

theorem awaits_failAll (h : r.Awaits sig) (f : Failure) :
    (r.failAll f).1.Awaits sig ∨ sig ∈ r.signals (.failAll f) := by
  by_cases hclosed : r.lifecycle = .closed
  · rw [failAll_of_closed hclosed]
    exact Or.inl h
  · have hopen : r.isClosed = false := by simp [isClosed, Lifecycle.isClosed, hclosed]
    simp only [signals, hopen, Bool.false_eq_true, if_false, failAll_of_open hclosed]
    cases sig with
    | moved => exact Or.inr (by simp)
    | idle => exact Or.inr (by simp)
    | settled t =>
      have hbefore : (r.shutDown f).Awaits (.settled t) := h
      exact (awaits_drain hbefore (.error f) r.pending).imp_right (List.mem_append_right _)
    | called w =>
      have hcalled : Signal.called w ∈ r.gate.callAll := List.mem_map_of_mem h
      exact Or.inr (List.mem_append_left _ (List.mem_append_right _ hcalled))

/-- What is done at the gate takes nobody out of line who is not called up, apart from the
waiter that is given up. -/
theorem awaits_at_gate (hr : r.Attended vs) (h : r.Awaits sig) {op : Op}
    (hgate : op.isAtGate = true) (hop : ∀ w, sig = .called w → op ≠ .abandon w) :
    (r.after op).Awaits sig ∨ sig ∈ r.signals op := by
  cases sig with
  | called w =>
    cases op with
    | register => exact Or.inl (mem_line_register h)
    | tryRegister =>
      have hsame : (r.after .tryRegister).gate.line = r.gate.line := r.line_tryRegister
      exact Or.inl (by rwa [Awaits, hsame])
    | resume u =>
      have hsame : (r.after (.resume u)).gate.line = r.gate.line :=
        line_resume hr (List.ne_nil_of_mem h) u
      exact Or.inl (by rwa [Awaits, hsame])
    | abandon u =>
      refine Gate.mem_line_withdraw h ?_
      rintro rfl
      exact hop u rfl rfl
    | _ => cases hgate
  | moved => exact Or.inl (awaits_of_isAtGate hgate h fun _ => nofun)
  | idle => exact Or.inl (awaits_of_isAtGate hgate h fun _ => nofun)
  | settled t => exact Or.inl (awaits_of_isAtGate hgate h fun _ => nofun)

theorem awaits_greet (h : r.Awaits sig) : r.greet.1.Awaits sig := by
  unfold greet
  split
  · exact h
  · split
    · exact h
    · cases sig with
      | idle => exact List.append_ne_nil_of_right_ne_nil _ (List.cons_ne_nil _ _)
      | settled t => exact (Ledger.outcome?_issue t).trans h
      | moved => exact h
      | called w => exact h

theorem awaits_markReady (h : r.Awaits sig) : r.markReady.1.Awaits sig := by
  unfold markReady
  split
  · cases sig with
    | moved => exact Lifecycle.noConfusion
    | _ => exact h
  · exact h

theorem awaits_beginClosing (h : r.Awaits sig) :
    r.beginClosing.1.Awaits sig ∨ sig ∈ r.signals .beginClosing := by
  simp only [signals, beginClosing]
  split
  · exact Or.inl h
  · cases sig with
    | moved => exact Or.inr List.mem_cons_self
    | called w => exact Or.inr (List.mem_cons_of_mem _ (List.mem_map_of_mem h))
    | _ => exact Or.inl h

/-- Nothing that somebody waits for comes about without its signal, as long as the waiter
itself is not given up. -/
theorem awaits_after (hr : r.Attended vs) (h : r.Awaits sig) {op : Op}
    (hop : ∀ w, sig = .called w → op ≠ .abandon w) :
    (r.after op).Awaits sig ∨ sig ∈ r.signals op := by
  cases op with
  | greet => exact Or.inl (awaits_greet h)
  | markReady => exact Or.inl (awaits_markReady h)
  | beginClosing => exact awaits_beginClosing h
  | settle id o => exact awaits_settle h id o
  | failAll f => exact awaits_failAll h f
  | register => exact awaits_at_gate hr h rfl hop
  | tryRegister => exact awaits_at_gate hr h rfl hop
  | resume u => exact awaits_at_gate hr h rfl hop
  | abandon u => exact awaits_at_gate hr h rfl hop

theorem awaits_run (hr : r.Attended vs) (h : r.Awaits sig) {ops : List Op}
    (hops : ∀ w, sig = .called w → Op.abandon w ∉ ops) :
    (r.run ops).Awaits sig ∨ sig ∈ r.emitted ops := by
  induction ops generalizing r vs with
  | nil => exact Or.inl h
  | cons op ops ih =>
    have hop : ∀ w, sig = .called w → op ≠ .abandon w := by
      rintro w hw rfl
      exact hops w hw List.mem_cons_self
    rcases awaits_after hr h hop with hstill | hgiven
    · have hrest : ∀ w, sig = .called w → Op.abandon w ∉ ops :=
        fun w hw hmem => hops w hw (List.mem_cons_of_mem _ hmem)
      exact (ih (hr.after op) hstill hrest).imp_right (List.mem_append_right _)
    · exact Or.inr (List.mem_append_left _ hgiven)

/-- A registry that goes away tells everybody who waits for a request or in line. -/
theorem awaits_dissolve (h : r.Awaits sig) (hsig : sig ≠ .idle) :
    r.dissolve.Awaits sig ∨ sig ∈ r.dissolveSignals := by
  have hbefore : ({ r with pending := [] } : Registry).Awaits sig := by
    cases sig with
    | idle => exact absurd rfl hsig
    | _ => exact h
  rw [dissolve_eq]
  exact awaits_drain hbefore (.error abandoned) r.pending

end Registry

end Switchboard
