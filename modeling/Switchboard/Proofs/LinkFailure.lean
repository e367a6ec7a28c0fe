import Switchboard.Proofs.SceneRuns

/-!
The end of a link. Whatever fails a link closes it for good and leaves nothing pending; the
requests that were pending have the failure for their outcome.
-/
namespace Switchboard

namespace Registry

variable {r : Registry}

theorem failAll_of_open (h : r.lifecycle ≠ .closed) (f : Failure) :
    (r.failAll f).1 = r.pending.foldl (discharge (.error f)) (r.shutDown f) := by
  have hopen : r.isClosed = false := by simp [isClosed, Lifecycle.isClosed, h]
  simp [failAll, hopen, shutDown]

theorem failAll_of_closed (h : r.lifecycle = .closed) (f : Failure) :
    (r.failAll f).1 = r := by
  simp [failAll, isClosed, Lifecycle.isClosed, h]

theorem lifecycle_failAll (r : Registry) (f : Failure) :
    (r.failAll f).1.lifecycle = .closed := by
  by_cases h : r.lifecycle = .closed
  · rw [failAll_of_closed h]
    exact h
  · rw [failAll_of_open h, lifecycle_drain, lifecycle_shutDown]

theorem pending_failAll (h : r.lifecycle ≠ .closed) (f : Failure) :
    (r.failAll f).1.pending = [] := by
  rw [failAll_of_open h, pending_drain]
  rfl

theorem ledger_failAll (h : r.pending = []) (f : Failure) :
    (r.failAll f).1.ledger = r.ledger := by
  by_cases hclosed : r.lifecycle = .closed
  · rw [failAll_of_closed hclosed]
  · rw [failAll_of_open hclosed, h]
    rfl

theorem pending_beginClosing (r : Registry) : r.beginClosing.1.pending = r.pending := by
  unfold beginClosing
  split <;> rfl

theorem ledger_beginClosing (r : Registry) : r.beginClosing.1.ledger = r.ledger := by
  unfold beginClosing
  split <;> rfl

theorem unmatched_beginClosing (r : Registry) :
    r.beginClosing.1.unmatched = r.unmatched := by
  unfold beginClosing
  split <;> rfl

theorem lifecycle_beginClosing_ne (h : r.lifecycle ≠ .closed) :
    r.beginClosing.1.lifecycle ≠ .closed := by
  unfold beginClosing
  split
  · exact h
  · exact Lifecycle.noConfusion

/-- All that an operation can do to the lifecycle. -/
theorem Change.lifecycle {s : Registry} {op : Op} {granted : Option Handle}
    (hc : Change r op s granted) :
    s.lifecycle = r.lifecycle ∨
      (op = .markReady ∧ r.lifecycle = .connecting ∧ s.lifecycle = .ready) ∨
      (op = .beginClosing ∧ r.lifecycle.isShuttingDown = false ∧ s.lifecycle = .closing) ∨
      (∃ f, op = .failAll f) ∧ r.lifecycle ≠ .closed ∧ s.lifecycle = .closed := by
  cases hc with
  | waits _ _ => exact Or.inl rfl
  | enters _ _ _ => exact Or.inl rfl
  | stays _ => exact Or.inl rfl
  | greets _ _ => exact Or.inl rfl
  | notes _ => exact Or.inl rfl
  | strikes _ => exact Or.inl rfl
  | failsLate _ => exact Or.inl rfl
  | opens hconnecting => exact Or.inr (Or.inl ⟨rfl, hconnecting, rfl⟩)
  | closes hshut => exact Or.inr (Or.inr (Or.inl ⟨rfl, hshut, rfl⟩))
  | fails hopen =>
    refine Or.inr (Or.inr (Or.inr ⟨⟨_, rfl⟩, hopen, ?_⟩))
    rw [lifecycle_drain, lifecycle_shutDown]

/-- Closed is for good. -/
theorem Change.closed {s : Registry} {op : Op} {granted : Option Handle}
    (hc : Change r op s granted) (h : r.lifecycle = .closed) : s.lifecycle = .closed := by
  rcases hc.lifecycle with hsame | ⟨-, hr, -⟩ | ⟨-, hr, -⟩ | ⟨-, -, hs⟩
  · exact hsame.trans h
  · exact absurd (h.symm.trans hr) (by decide)
  · simp [h, Lifecycle.isShuttingDown] at hr
  · exact hs

theorem Change.closed_iff {s : Registry} {op : Op} {granted : Option Handle}
    (hc : Change r op s granted) (hop : ∀ f, op ≠ .failAll f) :
    s.lifecycle = .closed ↔ r.lifecycle = .closed := by
  refine ⟨fun hs => ?_, hc.closed⟩
  rcases hc.lifecycle with hsame | ⟨-, -, hready⟩ | ⟨-, -, hclosing⟩ | ⟨⟨f, hf⟩, -⟩
  · exact hsame.symm.trans hs
  · exact absurd (hs.symm.trans hready) (by decide)
  · exact absurd (hs.symm.trans hclosing) (by decide)
  · exact absurd hf (hop f)

theorem LeadsTo.closed {s : Registry} (h : r.LeadsTo s) (hr : r.lifecycle = .closed) :
    s.lifecycle = .closed :=
  h.preserves (fun s op hs => (change_of_act s op).closed hs) hr

end Registry

namespace Link

open Registry (LeadsTo)

/-- The registry of a link that is about to fail. -/
def failing (l : Link) : Registry :=
  if l.lifecycle = .connecting then l.registry else l.registry.beginClosing.1

theorem registry_fail_eq (l : Link) (f : Failure) :
    (l.fail f).registry = (l.failing.failAll f).1 := by
  rw [registry_fail, registry_via, failing]
  split <;> rfl

theorem lifecycle_failing_ne {l : Link} (h : l.lifecycle ≠ .closed) :
    l.failing.lifecycle ≠ .closed := by
  unfold failing
  split
  · exact h
  · exact Registry.lifecycle_beginClosing_ne h

theorem pending_failing (l : Link) : l.failing.pending = l.registry.pending := by
  unfold failing
  split
  · rfl
  · exact Registry.pending_beginClosing _

theorem ledger_failing (l : Link) : l.failing.ledger = l.registry.ledger := by
  unfold failing
  split
  · rfl
  · exact Registry.ledger_beginClosing _

theorem lifecycle_fail (l : Link) (f : Failure) : (l.fail f).lifecycle = .closed := by
  rw [lifecycle, registry_fail_eq]
  exact Registry.lifecycle_failAll _ f

theorem pending_fail {l : Link} (h : l.lifecycle ≠ .closed) (f : Failure) :
    (l.fail f).registry.pending = [] := by
  rw [registry_fail_eq]
  exact Registry.pending_failAll (lifecycle_failing_ne h) f

theorem ledger_fail {l : Link} (h : l.registry.pending = []) (f : Failure) :
    (l.fail f).registry.ledger = l.registry.ledger := by
  rw [registry_fail_eq, Registry.ledger_failAll (l.pending_failing.trans h), ledger_failing]

theorem onTransportError_of_open {l : Link} (h : l.lifecycle ≠ .closed) (f : Failure) :
    l.onTransportError f = l.fail (lossOf l.lifecycle f) := by
  have hopen : l.lifecycle.isClosed = false := by simp [Lifecycle.isClosed, h]
  simp [onTransportError, hopen]

theorem lifecycle_onTransportError (l : Link) (f : Failure) :
    (l.onTransportError f).lifecycle = .closed := by
  by_cases h : l.lifecycle = .closed
  · exact (l.leadsTo_onTransportError f).closed h
  · rw [onTransportError_of_open h]
    exact l.lifecycle_fail _

theorem lifecycle_endLoop (l : Link) : l.endLoop.lifecycle = .closed :=
  l.lifecycle_onTransportError loopGone

theorem onResponse_handshake (l : Link) (b : Body) :
    l.onResponse ⟨RequestId.handshake, b⟩ = l.onHandshake b := rfl

/-- An answer under an ordinary identifier settles its request, and breaks the link if it
announces that the peer closes. -/
theorem onResponse_of_ordinary (l : Link) {id : RequestId} (hid : id ≠ RequestId.handshake)
    (b : Body) :
    (∃ m, b = .closingError m ∧
        l.onResponse ⟨id, b⟩ = (l.via (·.settle id b.outcome)).1.onTransportError (.closing m)) ∨
      (∀ m, b ≠ .closingError m) ∧
        l.onResponse ⟨id, b⟩ = (l.via (·.settle id b.outcome)).1 := by
  have hordinary : id.isHandshake = false := by simp [RequestId.isHandshake, hid]
  simp only [onResponse, hordinary, Bool.false_eq_true, if_false]
  cases b with
  | closingError m => exact Or.inl ⟨m, rfl, rfl⟩
  | ok => exact Or.inr ⟨fun _ => Body.noConfusion, rfl⟩
  | nil => exact Or.inr ⟨fun _ => Body.noConfusion, rfl⟩
  | value v => exact Or.inr ⟨fun _ => Body.noConfusion, rfl⟩
  | requestError k m => exact Or.inr ⟨fun _ => Body.noConfusion, rfl⟩

theorem lifecycle_finishClose (l : Link) : l.finishClose.lifecycle = .closed :=
  Registry.lifecycle_failAll _ _

end Link

end Switchboard
