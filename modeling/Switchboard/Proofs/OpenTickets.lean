import Switchboard.Ledger

/-!
Which tickets of a ledger still wait for an outcome. A ticket is open from its issue on;
the first outcome closes it, and a closed ticket keeps its outcome whatever is entered
afterwards.
-/
namespace Switchboard.Ledger

/-- The ticket has been issued, and no outcome has been entered under it. -/
def IsOpen (l : Ledger) (t : Ticket) : Prop := l.outcomes[t.serial]? = some none

theorem IsOpen.outcome? {l : Ledger} {t : Ticket} (h : l.IsOpen t) : l.outcome? t = none := by
  simp [Ledger.outcome?, show l.outcomes[t.serial]? = some none from h]

theorem IsOpen.serial_lt {l : Ledger} {t : Ticket} (h : l.IsOpen t) :
    t.serial < l.outcomes.size :=
  (Array.getElem?_eq_some_iff.mp h).1

theorem serial_ne {t u : Ticket} (h : t ≠ u) : t.serial ≠ u.serial := by
  intro hs
  cases t
  cases u
  exact h (congrArg Ticket.mk hs)

theorem isOpen_issue {l : Ledger} {t : Ticket} :
    l.issue.2.IsOpen t ↔ t = l.issue.1 ∨ l.IsOpen t := by
  simp only [IsOpen, issue, Array.getElem?_push]
  by_cases h : t = ⟨l.outcomes.size⟩
  · simp [h]
  · have hs : t.serial ≠ l.outcomes.size := serial_ne h
    simp [h, hs]

theorem outcome?_issue {l : Ledger} (t : Ticket) : l.issue.2.outcome? t = l.outcome? t := by
  simp only [Ledger.outcome?, issue, Array.getElem?_push]
  by_cases hs : t.serial = l.outcomes.size
  · simp [hs]
  · rw [if_neg hs]

theorem issue_not_isOpen (l : Ledger) : ¬ l.IsOpen l.issue.1 := by
  simp [IsOpen, issue]

theorem isOpen_settle {l : Ledger} {t u : Ticket} {o : Outcome} :
    (l.settle u o).IsOpen t ↔ l.IsOpen t ∧ t ≠ u := by
  by_cases h : t = u
  · subst h
    simp only [ne_eq, not_true_eq_false, and_false, iff_false]
    unfold settle
    by_cases hs : l.isSettled t
    · rw [if_pos hs]
      intro hopen
      simp [isSettled, hopen.outcome?] at hs
    · rw [if_neg hs]
      simp [IsOpen, Array.getElem?_setIfInBounds]
  · have hs : u.serial ≠ t.serial := fun e => serial_ne h e.symm
    unfold settle
    split
    · simp [h]
    · simp [IsOpen, hs, h]

theorem outcome?_settle {l : Ledger} {t : Ticket} (h : l.IsOpen t) (o : Outcome) :
    (l.settle t o).outcome? t = some o := by
  have hs : l.isSettled t = false := by simp [isSettled, h.outcome?]
  simp [settle, hs, Ledger.outcome?, h.serial_lt]

@[simp] theorem size_settle (l : Ledger) (t : Ticket) (o : Outcome) :
    (l.settle t o).outcomes.size = l.outcomes.size := by
  unfold settle
  split <;> simp

end Switchboard.Ledger
