import Switchboard.Message.Response

/-!
The ledger of requests. Every request has a ticket of its own, under which its outcome
is entered once; the first entry stands. A handle is what a caller keeps of a request:
the identifier it travels under and its ticket. Identifiers are issued again, tickets
never are.
-/
namespace Switchboard

structure Ticket where
  serial : Nat
deriving DecidableEq

structure Handle where
  id : RequestId
  ticket : Ticket
deriving DecidableEq

/-- How a handle shows itself. -/
def Handle.text (h : Handle) (done : Bool) : String :=
  "ResultHandle \x7b id: RequestId(" ++ h.id.text ++ "), done: " ++
    (if done then "true" else "false") ++ " \x7d"

structure Ledger where
  /-- The outcomes by ticket; `none` stands for a request without an outcome so far. -/
  outcomes : Array (Option Outcome) := #[]

namespace Ledger

/-- Opens a new ticket. -/
def issue (l : Ledger) : Ticket × Ledger := (⟨l.outcomes.size⟩, ⟨l.outcomes.push none⟩)

def outcome? (l : Ledger) (t : Ticket) : Option Outcome := l.outcomes[t.serial]?.join

def isSettled (l : Ledger) (t : Ticket) : Bool := (l.outcome? t).isSome

/-- Enters an outcome; a ticket that has one keeps it. -/
def settle (l : Ledger) (t : Ticket) (o : Outcome) : Ledger :=
  if l.isSettled t then l else ⟨l.outcomes.setIfInBounds t.serial (some o)⟩

/-- The second entry for a ticket changes nothing. -/
@[simp] theorem settle_settle (l : Ledger) (t : Ticket) (o p : Outcome) :
    (l.settle t o).settle t p = l.settle t o := by
  cases hsettled : l.isSettled t with
  | true => simp [settle, hsettled]
  | false =>
    have hfirst : l.settle t o = ⟨l.outcomes.setIfInBounds t.serial (some o)⟩ := by
      simp [settle, hsettled]
    by_cases hlt : t.serial < l.outcomes.size
    · have hsecond : (l.settle t o).isSettled t = true := by
        simp [hfirst, isSettled, outcome?, hlt]
      rw [settle, if_pos hsecond]
    · -- a ticket that was never issued has no place for an entry
      have hnone : ∀ m : Ledger, m.outcomes.size = l.outcomes.size → m.settle t p = m := by
        intro m hm
        simp [settle, Array.setIfInBounds, hm, hlt]
      exact hnone _ (by simp [hfirst])

theorem outcome?_settle_of_settled {l : Ledger} {t : Ticket} (u : Ticket) (o : Outcome)
    {p : Outcome} (h : l.outcome? t = some p) : (l.settle u o).outcome? t = some p := by
  by_cases hu : l.isSettled u
  · rwa [settle, if_pos hu]
  · rw [settle, if_neg hu]
    by_cases e : u = t
    · subst e
      simp [isSettled, h] at hu
    · have hs : u.serial ≠ t.serial := fun hs => e (by cases u; cases t; simp_all)
      simpa [outcome?, Array.getElem?_setIfInBounds, hs] using h

theorem outcome?_settle_ne {l : Ledger} {t u : Ticket} (o : Outcome) (h : u ≠ t) :
    (l.settle u o).outcome? t = l.outcome? t := by
  unfold settle
  split
  · rfl
  · have hs : u.serial ≠ t.serial := fun hs => h (by cases u; cases t; simp_all)
    simp [outcome?, hs]

end Ledger

end Switchboard
