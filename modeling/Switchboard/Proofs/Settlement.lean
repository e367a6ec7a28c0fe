import Switchboard.Call
import Switchboard.Proofs.RegistryBooks

/-!
How a request comes by its outcome. From the moment its handle is granted, a request is
in the table until the first operation that is meant for it: an answer under its
identifier, or the failure of all. The argument of that operation is its outcome, and
every look at the handle shows this outcome from then on, also after the identifier has
been issued again and settled again. `settled_once` is the main result.
-/
namespace Switchboard

/-- What an operation has to say to the pending request with this identifier. -/
def Registry.Op.outcomeFor (id : RequestId) : Registry.Op → Option Outcome
  | .settle i o => if i = id then some o else none
  | .failAll f => some (.error f)
  | _ => none

/-- The first thing that a list of operations says to the request with this identifier. -/
def Registry.firstOutcome (id : RequestId) (ops : List Registry.Op) : Option Outcome :=
  ops.findSome? (Op.outcomeFor id)

/-- Every way of looking at a handle shows the same outcome at once. -/
structure Link.Shows (l : Link) (h : Handle) (o : Outcome) : Prop where
  poll : l.outcome? h = some o
  isDone : l.registry.ledger.isSettled h.ticket = true
  wait : ∀ now, (Call.settled h).poll now l = (l, .finished (.outcome o))
  waitFor : ∀ now limit, l.waitFor now h limit = (l, .finished (.outcome o))
  resumeWait : ∀ now limit deadline?,
    (Call.settledBy h limit deadline?).poll now l = (l, .finished (.outcome o))
  blockingWait : ∀ limit, l.blockingWait h limit = o

theorem Link.shows_of_outcome? {l : Link} {h : Handle} {o : Outcome}
    (ho : l.registry.ledger.outcome? h.ticket = some o) : l.Shows h o := by
  have hpoll : l.outcome? h = some o := ho
  refine ⟨hpoll, ?_, ?_, ?_, ?_, ?_⟩
  · simp [Ledger.isSettled, ho]
  · intro now
    simp [Call.poll, hpoll]
  · intro now limit
    simp [Link.waitFor, Call.poll, Link.awaitBy, hpoll]
  · intro now limit deadline?
    simp [Call.poll, Link.awaitBy, hpoll]
  · intro limit
    simp [Link.blockingWait, hpoll]

namespace Registry

theorem Op.outcomeFor_of_isAtGate {op : Op} (h : op.isAtGate = true) (id : RequestId) :
    op.outcomeFor id = none := by
  cases op <;> simp_all [Op.isAtGate, Op.outcomeFor]

theorem Op.outcomeFor_of_isTimed {op : Op} (h : op.isTimed = true) (id : RequestId) :
    op.outcomeFor id = none := by
  cases op <;> simp_all [Op.isTimed, Op.outcomeFor]

theorem outcome?_drain_of_settled {hs : List Handle} {r : Registry} {t : Ticket}
    {p : Outcome} (o : Outcome) (hp : r.ledger.outcome? t = some p) :
    (hs.foldl (discharge o) r).ledger.outcome? t = some p := by
  induction hs generalizing r with
  | nil => exact hp
  | cons h hs ih =>
    refine ih ?_
    rw [ledger_discharge]
    exact Ledger.outcome?_settle_of_settled h.ticket o hp

theorem outcome?_drain {hs : List Handle} {r : Registry} {h : Handle} (o : Outcome)
    (hh : h ∈ hs) (hopen : r.ledger.IsOpen h.ticket) :
    (hs.foldl (discharge o) r).ledger.outcome? h.ticket = some o := by
  induction hs generalizing r with
  | nil => exact absurd hh List.not_mem_nil
  | cons g hs ih =>
    by_cases heq : h.ticket = g.ticket
    · have hfirst : (discharge o r g).ledger.outcome? h.ticket = some o := by
        rw [ledger_discharge, heq]
        exact Ledger.outcome?_settle (heq ▸ hopen) o
      rw [List.foldl_cons]
      exact outcome?_drain_of_settled o hfirst
    · have hlater : h ∈ hs := by
        rcases List.mem_cons.mp hh with rfl | hmem
        · exact absurd rfl heq
        · exact hmem
      refine ih hlater ?_
      rw [ledger_discharge]
      exact Ledger.isOpen_settle.mpr ⟨hopen, heq⟩

/-- An outcome stands, whatever is done afterwards. -/
theorem Change.outcome?_of_settled {r s : Registry} {op : Op} {granted : Option Handle}
    {t : Ticket} {p : Outcome} (hc : Change r op s granted)
    (hp : r.ledger.outcome? t = some p) : s.ledger.outcome? t = some p := by
  cases hc with
  | enters _ _ _ => exact (Ledger.outcome?_issue t).trans hp
  | greets _ _ => exact (Ledger.outcome?_issue t).trans hp
  | strikes _ =>
    rw [ledger_strike]
    exact Ledger.outcome?_settle_of_settled _ _ hp
  | fails _ => exact outcome?_drain_of_settled _ hp
  | waits _ _ => exact hp
  | stays _ => exact hp
  | notes _ => exact hp
  | opens _ => exact hp
  | closes _ => exact hp
  | failsLate _ => exact hp

theorem outcome?_run_of_settled {r : Registry} {t : Ticket} {p : Outcome}
    (hp : r.ledger.outcome? t = some p) (ops : List Op) :
    (r.run ops).ledger.outcome? t = some p :=
  run_induction (P := fun s => s.ledger.outcome? t = some p) hp
    (fun s op hs => (change_of_act s op).outcome?_of_settled hs) ops

/-- A pending request stays in the table under an operation that is not meant for it. -/
theorem Change.mem_of_not_meant {r s : Registry} {op : Op} {granted : Option Handle}
    {h : Handle} (hc : Change r op s granted) (hh : h ∈ r.pending)
    (hop : op.outcomeFor h.id = none) : h ∈ s.pending := by
  cases hc with
  | enters _ _ _ => exact List.mem_append_left _ hh
  | greets _ _ => exact List.mem_append_left _ hh
  | @strikes g o hg =>
    have hne : g ≠ h := by
      rintro rfl
      simp [Op.outcomeFor] at hop
    exact (List.mem_erase_of_ne (Ne.symm hne)).mpr hh
  | fails _ => simp [Op.outcomeFor] at hop
  | failsLate _ => simp [Op.outcomeFor] at hop
  | waits _ _ => exact hh
  | stays _ => exact hh
  | notes _ => exact hh
  | opens _ => exact hh
  | closes _ => exact hh

/-- The operation that is meant for a pending request gives it its outcome. -/
theorem Change.outcome?_of_meant {r s : Registry} {op : Op} {granted : Option Handle}
    {h : Handle} {o : Outcome} (hc : Change r op s granted) (hr : Sound r)
    (hstaged : Staged r) (hh : h ∈ r.pending) (hop : op.outcomeFor h.id = some o) :
    s.ledger.outcome? h.ticket = some o := by
  cases hc with
  | waits hgate _ => simp [Op.outcomeFor_of_isAtGate hgate] at hop
  | enters hgate _ _ => simp [Op.outcomeFor_of_isAtGate hgate] at hop
  | stays htimed => simp [Op.outcomeFor_of_isTimed htimed] at hop
  | greets _ _ => simp [Op.outcomeFor] at hop
  | opens _ => simp [Op.outcomeFor] at hop
  | closes _ => simp [Op.outcomeFor] at hop
  | @notes id p hnone =>
    have hid : id = h.id := by
      by_contra hne
      simp [Op.outcomeFor, hne] at hop
    have hpending : r.isPending id = true := isPending_iff.mpr ⟨h, hh, hid.symm⟩
    rw [hnone] at hpending
    cases hpending
  | @strikes g p hg =>
    have hid : g.id = h.id := by
      by_contra hne
      simp [Op.outcomeFor, hne] at hop
    have hgh : g = h := hr.eq_of_id hh hg hid
    subst hgh
    simp only [Op.outcomeFor, if_true, Option.some.injEq] at hop
    subst hop
    rw [ledger_strike]
    exact Ledger.outcome?_settle (hr.isOpen hg) p
  | fails _ =>
    simp only [Op.outcomeFor, Option.some.injEq] at hop
    subst hop
    exact outcome?_drain _ hh (hr.isOpen hh)
  | failsLate hclosed =>
    rw [hstaged.closed hclosed] at hh
    exact absurd hh List.not_mem_nil

/-- A pending request ends with the first thing that is said to it, and is in the table
until then. -/
theorem outcome?_run_of_pending {r : Registry} {h : Handle} (hr : Sound r)
    (hstaged : Staged r) (hh : h ∈ r.pending) (ops : List Op) :
    (r.run ops).ledger.outcome? h.ticket = firstOutcome h.id ops ∧
      (firstOutcome h.id ops = none → h ∈ (r.run ops).pending) := by
  induction ops generalizing r with
  | nil => exact ⟨hr.outcome?_eq_none hh, fun _ => hh⟩
  | cons op ops ih =>
    have hc := change_of_act r op
    cases hop : op.outcomeFor h.id with
    | none =>
      have hfirst : firstOutcome h.id (op :: ops) = firstOutcome h.id ops := by
        simp [firstOutcome, hop]
      rw [hfirst]
      exact ih (hc.sound hr) (hc.staged hstaged) (hc.mem_of_not_meant hh hop)
    | some o =>
      have hfirst : firstOutcome h.id (op :: ops) = some o := by
        simp [firstOutcome, hop]
      have hafter := hc.outcome?_of_meant hr hstaged hh hop
      rw [hfirst]
      exact ⟨outcome?_run_of_settled hafter ops, nofun⟩

theorem Change.mem_of_granted {r s : Registry} {op : Op} {h : Handle}
    (hc : Change r op s (some h)) : h ∈ s.pending := by
  cases hc with
  | enters _ _ _ => exact List.mem_append_right _ (List.mem_singleton_self _)
  | greets _ _ => exact List.mem_append_right _ (List.mem_singleton_self _)

/-- A handle is without an outcome just as long as its own request is in the table. It
gets its outcome from one operation, the first after the grant that is meant for it: the
outcome is the argument of that operation, and it is what every look at the handle shows
from then on. -/
theorem settled_once {ceiling : Nat} {policy : Policy} {r : Registry}
    (hmake : make ceiling policy = .ok r) (before : List Op) (op : Op) (h : Handle)
    (hgrant : (r.run before).grants op = some h) (ops : List Op) :
    let s := r.run (before ++ op :: ops)
    s.ledger.outcome? h.ticket = firstOutcome h.id ops ∧
      (s.ledger.outcome? h.ticket = none ↔ h ∈ s.pending) ∧
      (h ∈ s.pending → ∀ next,
        (s.after next).ledger.outcome? h.ticket = next.outcomeFor h.id) ∧
      ∀ o, firstOutcome h.id ops = some o →
        ∀ more (l : Link), l.registry = s.run more → l.Shows h o := by
  intro s
  have hsound := sound_run (sound_of_make hmake) before
  have hstaged := staged_run (staged_of_make hmake) before
  have hc := change_of_act (r.run before) op
  rw [hgrant] at hc
  have hs : s = ((r.run before).after op).run ops := by simp [s]
  have hend : Sound s := hs ▸ sound_run (hc.sound hsound) ops
  have hstagedEnd : Staged s := hs ▸ staged_run (hc.staged hstaged) ops
  obtain ⟨houtcome, hpending⟩ :=
    outcome?_run_of_pending (hc.sound hsound) (hc.staged hstaged) hc.mem_of_granted ops
  rw [← hs] at houtcome hpending
  refine ⟨houtcome, ?_, ?_, ?_⟩
  · constructor
    · intro hnone
      exact hpending (houtcome ▸ hnone)
    · intro hmem
      exact hend.outcome?_eq_none hmem
  · intro hmem next
    have hnext := (outcome?_run_of_pending hend hstagedEnd hmem [next]).1
    rw [run_cons, run_nil] at hnext
    rw [hnext, firstOutcome, List.findSome?_singleton]
  · intro o ho more l hl
    apply Link.shows_of_outcome?
    rw [hl]
    exact outcome?_run_of_settled (houtcome.trans ho) more

/-- An answer, a second request under the same identifier and its answer, and the end. -/
def answeredAndReissued : List Op :=
  [.settle ⟨1⟩ (.ok .nil), .tryRegister, .settle ⟨1⟩ (.ok .ok), .failAll (.closing "gone")]

theorem settled_once_across_reissue :
    ∃ r h, make 1 .reject = .ok r ∧ (r.run [.markReady]).grants .tryRegister = some h ∧
      (r.run ([.markReady] ++ .tryRegister :: answeredAndReissued)).ledger.outcome? h.ticket =
        some (.ok .nil) := by
  have hmake : make 1 .reject = .ok { gate := { ceiling := 1, policy := .reject, free := 1 } } :=
    rfl
  exact ⟨_, _, hmake, rfl,
    (settled_once hmake [.markReady] .tryRegister _ rfl answeredAndReissued).1⟩

end Registry

end Switchboard
