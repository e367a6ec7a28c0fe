import Switchboard.Proofs.Attendance
import Switchboard.Proofs.CalmActions
import Switchboard.Proofs.RefusedPayloads

/-!
Why a submission is refused. The registry refuses for the state that it is in, the gate for
lack of a slot or because it is shut, the codec because it cannot encode the payload, and the
clock when nobody has answered in time. Of these only a registry that shuts down, whose gate
is shut, blames the connection; so a submission that fails with a connection error has met a
link that shuts down.
-/
namespace Switchboard

open Registry (Sound Change)

/-- The failure with which a call has ended. -/
def Progress.failure? : Progress → Option Failure
  | .finished (.failed f) => some f
  | .finished (.outcome (.error f)) => some f
  | _ => none

/-- The codec refuses payloads only as ones that cannot be encoded. -/
def Codec.RefusesToEncode (c : Codec) : Prop :=
  ∀ id p e, c.serialize id p = .error e → ∃ m, e = .encode m

namespace Registry

/-- The operation does not close the registry, or closes it with a connection error. -/
def BlamesConnection (_ : Registry) (op : Op) : Prop :=
  ∀ f, op = .failAll f → f.isConnectionError = true

/-- A registry that has been closed names a connection error as the reason. -/
def ClosedByLoss (r : Registry) : Prop := ∀ f, r.closedWith = some f → f.isConnectionError = true

variable {r s : Registry}

theorem Change.closedByLoss {op : Op} {granted : Option Handle} (hc : Change r op s granted)
    (hop : r.BlamesConnection op) (h : r.ClosedByLoss) : s.ClosedByLoss := by
  cases hc with
  | @fails f hopen =>
    intro e he
    rw [closedWith_drain] at he
    cases he
    exact hop _ rfl
  | waits _ _ => exact h
  | enters _ _ _ => exact h
  | stays _ => exact h
  | greets _ _ => exact h
  | notes _ => exact h
  | strikes _ => exact h
  | opens _ => exact h
  | closes _ => exact h
  | failsLate _ => exact h

/-- The state of the registry explains a refusal by a connection error just if it shuts
down. -/
theorem isConnectionError_of_rejection (h : r.ClosedByLoss) {f : Failure}
    (hf : r.rejection = some f) : f.isConnectionError = r.lifecycle.isShuttingDown := by
  unfold rejection at hf
  cases hlife : r.lifecycle with
  | ready => simp [hlife] at hf
  | connecting =>
    simp only [hlife, Option.some.injEq] at hf
    rw [← hf]
    rfl
  | closing =>
    simp only [hlife, Option.some.injEq] at hf
    rw [← hf]
    rfl
  | closed =>
    simp only [hlife, Option.some.injEq] at hf
    rw [← hf]
    cases hwith : r.closedWith with
    | none => rfl
    | some e => exact h e hwith

/-- What a registry is about to admit or refuse agrees with its state: its gate is shut just
if it shuts down, and it blames the connection if it is closed. -/
structure Candid (r : Registry) : Prop where
  sound : Sound r
  shut : r.gate.shut = r.lifecycle.isShuttingDown
  closedByLoss : r.ClosedByLoss

/-- A refusal of the gate is a connection error only if the gate is shut. -/
theorem shut_of_tryEnter {g : Gate} {f : Failure} (hg : g.tryEnter = .error f)
    (hf : f.isConnectionError = true) : g.shut = true := by
  rcases Gate.error_of_tryEnter hg with ⟨hshut, -⟩ | ⟨-, -, rfl⟩
  · exact hshut
  · cases hf

theorem shut_of_refused {a : Gate × Admission} {g : Gate}
    (ha : a = g.enter ∨ ∃ w, a = g.claim w) {f : Failure} (href : a.2 = .refused f)
    (hf : f.isConnectionError = true) : g.shut = true := by
  rcases ha with rfl | ⟨w, rfl⟩
  · rcases g.enter_cases with ⟨g', -, henter⟩ | ⟨-, -, -, henter⟩ | ⟨e, htry, henter⟩
    · rw [henter] at href
      cases href
    · rw [henter] at href
      cases href
    · rw [henter] at href
      cases href
      exact shut_of_tryEnter htry hf
  · unfold Gate.claim at href
    split_ifs at href with hshut
    exact hshut

namespace Candid

variable (h : r.Candid)

include h

/-- What the gate says is a connection error only if the registry shuts down, and the state
of the registry explains it better. -/
theorem shuttingDown_of_getD {f : Failure} (hgate : f.isConnectionError = true → r.gate.shut = true)
    (hf : (r.rejection.getD f).isConnectionError = true) : r.lifecycle.isShuttingDown = true := by
  cases hrej : r.rejection with
  | some e =>
    rw [hrej] at hf
    rw [← isConnectionError_of_rejection h.closedByLoss hrej]
    exact hf
  | none =>
    rw [hrej] at hf
    rw [← h.shut]
    exact hgate hf

theorem shuttingDown_of_onAdmission {a : Gate × Admission}
    (ha : a = r.gate.enter ∨ ∃ w, a = r.gate.claim w) {f : Failure}
    (hrefused : (r.onAdmission a).2 = .refused f) (hf : f.isConnectionError = true) :
    r.lifecycle.isShuttingDown = true := by
  have hgate : ∀ e, a.2 = .refused e → e.isConnectionError = true → r.gate.shut = true :=
    fun e he herror => shut_of_refused ha he herror
  obtain ⟨g, a⟩ := a
  cases a with
  | waiting w => cases hrefused
  | refused e =>
    have hgetD : r.rejection.getD e = f := Registration.refused.inj hrefused
    exact h.shuttingDown_of_getD (hgate e rfl) (hgetD ▸ hf)
  | admitted =>
    cases hrej : r.rejection with
    | none =>
      have hready : r.lifecycle = .ready := (rejection_eq_none_iff r).mp hrej
      simp only [onAdmission, enroll_of_ready (r := { r with gate := g }) hready] at hrefused
      cases hrefused
    | some e =>
      simp only [onAdmission, enroll_of_rejection (r := { r with gate := g }) hrej] at hrefused
      cases hrefused
      rw [← isConnectionError_of_rejection h.closedByLoss hrej]
      exact hf

theorem shuttingDown_of_register {f : Failure} (hrefused : r.register.2 = .refused f)
    (hf : f.isConnectionError = true) : r.lifecycle.isShuttingDown = true := by
  unfold register at hrefused
  cases hrej : r.rejection with
  | none =>
    rw [hrej] at hrefused
    exact h.shuttingDown_of_onAdmission (Or.inl rfl) hrefused hf
  | some e =>
    rw [hrej] at hrefused
    cases hrefused
    rw [← isConnectionError_of_rejection h.closedByLoss hrej]
    exact hf

theorem shuttingDown_of_tryRegister {f : Failure} (hrefused : r.tryRegister.2 = .error f)
    (hf : f.isConnectionError = true) : r.lifecycle.isShuttingDown = true := by
  unfold tryRegister at hrefused
  cases hrej : r.rejection with
  | some e =>
    rw [hrej] at hrefused
    cases hrefused
    rw [← isConnectionError_of_rejection h.closedByLoss hrej]
    exact hf
  | none =>
    have hready : r.lifecycle = .ready := (rejection_eq_none_iff r).mp hrej
    cases htry : r.gate.tryEnter with
    | ok g =>
      simp only [hrej, htry, enroll_of_ready (r := { r with gate := g }) hready] at hrefused
      cases hrefused
    | error e =>
      have hgetD : r.rejection.getD e = f := by simpa [hrej, htry] using hrefused
      exact h.shuttingDown_of_getD (shut_of_tryEnter htry) (hgetD ▸ hf)

end Candid

end Registry

namespace Link

variable {l : Link}

/-- A link whose loop is there sends what can be encoded while it is ready. -/
theorem transmit_of_ready (hready : l.lifecycle = .ready) (hloop : l.loop.isEnded = false)
    (h : Handle) (p : Payload) :
    (∃ e, l.codec.serialize h.id p = .error e ∧ (l.transmit h p).2 = .error e) ∨
      (l.transmit h p).2 = .ok h ∧ (l.transmit h p).1.registry = l.registry := by
  unfold transmit
  cases hframe : l.codec.serialize h.id p with
  | error e => exact Or.inl ⟨e, rfl, rfl⟩
  | ok f =>
    have hnone : l.registry.rejection = none := Registry.rejection_ready hready
    right
    simp [send, hnone, enqueue, hloop]

/-- A wait that is not answered yet ends with the caller's limit if at all. -/
theorem failure_awaitBy {h : Handle} (hnone : l.outcome? h = none) {now : Instant}
    {limit : Duration} {deadline? : Option Instant} {c : Call} {f : Failure}
    (hf : (l.awaitBy now h limit deadline? c).failure? = some f) :
    f = responseTimeout h limit := by
  unfold awaitBy at hf
  rw [hnone] at hf
  dsimp only at hf
  split at hf
  · exact (Option.some.inj hf).symm
  · cases hf

/-- An errand that has its slot fails as one that cannot be encoded, or for lack of time. -/
theorem failure_proceed_of_granted (hl : Sound l.registry) (hready : l.lifecycle = .ready)
    (hloop : l.loop.isEnded = false) (hcodec : l.codec.RefusesToEncode) {h : Handle}
    (hh : h ∈ l.registry.pending) {now : Instant} {e : Errand} {f : Failure}
    (hf : (proceed now e (l, .granted h)).2.failure? = some f) :
    f.isConnectionError = false := by
  cases e with
  | register => cases hf
  | submit p =>
    simp only [proceed] at hf
    rcases transmit_of_ready hready hloop h p with ⟨e, hrefused, hfails⟩ | ⟨hsent, -⟩
    · obtain ⟨m, rfl⟩ := hcodec h.id p e hrefused
      rw [hfails] at hf
      cases hf
      rfl
    · rw [hsent] at hf
      cases hf
  | execute p limit =>
    simp only [proceed] at hf
    rcases transmit_of_ready hready hloop h p with ⟨e, hrefused, hfails⟩ | ⟨hsent, hsame⟩
    · obtain ⟨m, rfl⟩ := hcodec h.id p e hrefused
      generalize l.transmit h p = sending at hf hfails
      obtain ⟨k, answer⟩ := sending
      cases hfails
      cases hf
      rfl
    · generalize l.transmit h p = sending at hf hsent hsame
      obtain ⟨k, answer⟩ := sending
      cases hsent
      have hnone : k.outcome? h = none := by
        rw [outcome?, hsame]
        exact hl.outcome?_eq_none hh
      rw [failure_awaitBy hnone hf]
      rfl

/-- A link in which a request has just been registered is ready, and its loop is there. -/
theorem going_of_granted {op : Registry.Op} {r : Registry} {h : Handle}
    (hc : Change l.registry op r (some h)) (hop : op.isAtGate = true)
    (hloop : l.loop.isEnded = true → l.lifecycle = .closed) :
    r.lifecycle = .ready ∧ l.loop.isEnded = false ∧ h ∈ r.pending := by
  obtain ⟨hp, -, hready⟩ := hc.of_granted hop
  refine ⟨hready, ?_, Registry.mem_last hp⟩
  by_contra hended
  have hclosed : r.lifecycle = .closed := hc.closed (hloop (by simpa using hended))
  rw [hready] at hclosed
  cases hclosed

theorem shuttingDown_of_proceed (hl : Sound l.registry) {op : Registry.Op} {r : Registry}
    {a : Registration} (hc : Change l.registry op r a.handle?) (hop : op.isAtGate = true)
    (hloop : l.loop.isEnded = true → l.lifecycle = .closed) (hcodec : l.codec.RefusesToEncode)
    (hrefused : ∀ f, a = .refused f → f.isConnectionError = true →
      l.lifecycle.isShuttingDown = true)
    {now : Instant} {e : Errand} {f : Failure}
    (hf : (proceed now e ({ l with registry := r }, a)).2.failure? = some f)
    (herror : f.isConnectionError = true) : l.lifecycle.isShuttingDown = true := by
  cases a with
  | waiting w => cases hf
  | refused g =>
    cases hf
    exact hrefused f rfl herror
  | granted h =>
    obtain ⟨hready, hgoing, hh⟩ := going_of_granted hc hop hloop
    have hmild := failure_proceed_of_granted (l := { l with registry := r }) (hc.sound hl) hready
      hgoing hcodec hh hf
    rw [herror] at hmild
    cases hmild

/-- A submission that fails with a connection error meets a link that shuts down. -/
theorem shuttingDown_of_attempt (hl : l.registry.Candid)
    (hloop : l.loop.isEnded = true → l.lifecycle = .closed) (hcodec : l.codec.RefusesToEncode)
    {a : Attempt} {now : Instant} {f : Failure} (hf : (a.make now l).2.failure? = some f)
    (herror : f.isConnectionError = true) : l.lifecycle.isShuttingDown = true := by
  cases a with
  | start e =>
    exact shuttingDown_of_proceed hl.sound (Registry.change_of_act l.registry .register) rfl
      hloop hcodec (fun g hg hgerror => hl.shuttingDown_of_register hg hgerror) hf herror
  | resume w e =>
    exact shuttingDown_of_proceed hl.sound (Registry.change_of_act l.registry (.resume w)) rfl
      hloop hcodec
      (fun g hg hgerror => hl.shuttingDown_of_onAdmission (Or.inr ⟨w, rfl⟩) hg hgerror)
      hf herror
  | trySubmit p =>
    have hc := Registry.change_of_tryRegister l.registry
    have hrefused := fun g => hl.shuttingDown_of_tryRegister (f := g)
    simp only [Attempt.make, trySubmit, via] at hf
    generalize l.registry.tryRegister = a at hc hrefused hf
    obtain ⟨r, answer⟩ := a
    cases answer with
    | error g =>
      cases hf
      exact hrefused f rfl herror
    | ok h =>
      obtain ⟨hready, hgoing, -⟩ := going_of_granted hc rfl hloop
      rcases transmit_of_ready (l := { l with registry := r }) hready hgoing h p with
        ⟨g, hg, hfails⟩ | ⟨hsent, -⟩
      · obtain ⟨m, rfl⟩ := hcodec h.id p g hg
        rw [hfails] at hf
        cases hf
        cases herror
      · rw [hsent] at hf
        cases hf

theorem lifecycle_attempt (a : Attempt) (now : Instant) :
    (a.make now l).1.lifecycle = l.lifecycle := by
  cases a with
  | start e =>
    exact (lifecycle_proceed now e _).trans (l.registry.lifecycle_of_isAtGate .register rfl)
  | trySubmit p => exact l.lifecycle_trySubmit p
  | resume w e =>
    exact (lifecycle_proceed now e _).trans (l.registry.lifecycle_of_isAtGate (.resume w) rfl)

end Link

end Switchboard
