import Switchboard.Proofs.CloseSequence
import Switchboard.Proofs.FailureKinds

/-!
Waiting for the outcome of a request up to a limit. A wait looks at the outcome first and at
the clock then, and leaves the link alone. It looks when it begins and whenever it is woken;
what happens between two looks is a stretch of a run. Timers know whole milliseconds only; a
thread that sleeps knows every nanosecond.
-/
namespace Switchboard

open Registry (LeadsTo)

/-- The outcome that a call ends with. -/
def Progress.outcome? : Progress → Option Outcome
  | .finished (.outcome o) => some o
  | _ => none

/-- The ways to wait for the outcome of a request up to a limit. -/
inductive Wait where
  /-- A call that was given the handle. -/
  | timed
  /-- A call that has sent the request itself. -/
  | executing
  /-- A thread that sleeps. -/
  | blocking
deriving DecidableEq

namespace Wait

/-- The call that waits, if it is one. -/
def call? (start : Instant) (h : Handle) (d : Duration) : Wait → Option Call
  | timed => some (.settledBy h d (start.add? d))
  | executing => some (.answered h d (start.add? d))
  | blocking => none

/-- Whether the time of a wait is over that began at `start`. -/
def isOver (start : Instant) (d : Duration) (now : Instant) : Wait → Bool
  | blocking =>
    match start.add? d with
    | some deadline => decide (deadline.nanos ≤ now.nanos)
    | none => false
  | _ => now.passed (start.add? d)

/-- What a wait that began at `start` ends with when it has a look. A thread that is woken
sleeps on unless there is an outcome or its time is over. -/
def look (start : Instant) (h : Handle) (d : Duration) (now : Instant) (l : Link) :
    Wait → Option Outcome
  | timed => ((Call.settledBy h d (start.add? d)).poll now l).2.outcome?
  | executing => ((Call.answered h d (start.add? d)).poll now l).2.outcome?
  | blocking =>
    if (l.outcome? h).isSome || isOver start d now blocking then some (l.blockingWait h d)
    else none

variable {k : Wait} {start now : Instant} {h : Handle} {d : Duration} {l : Link}

/-- A call that waits leaves the link alone, and ends with what its look finds. -/
theorem poll_of_call {c : Call} (hc : k.call? start h d = some c) (now : Instant) (l : Link) :
    c.poll now l =
      (l, match k.look start h d now l with
        | some o => .finished (.outcome o)
        | none => .waiting c) := by
  have hawait : ∀ c, l.awaitBy now h d (start.add? d) c =
      match (l.awaitBy now h d (start.add? d) c).outcome? with
      | some o => .finished (.outcome o)
      | none => .waiting c := by
    intro c
    unfold Link.awaitBy
    split
    · rfl
    · split <;> rfl
  cases k with
  | timed =>
    cases hc
    exact congrArg (l, ·) (hawait _)
  | executing =>
    cases hc
    exact congrArg (l, ·) (hawait _)
  | blocking => cases hc

/-- All waits look in the same way; they differ in when their time is over. -/
theorem look_eq (k : Wait) (start : Instant) (h : Handle) (d : Duration) (now : Instant)
    (l : Link) :
    k.look start h d now l =
      if (l.outcome? h).isSome || k.isOver start d now then some (l.blockingWait h d)
      else none := by
  have hawait : ∀ c, (l.awaitBy now h d (start.add? d) c).outcome? =
      if (l.outcome? h).isSome || now.passed (start.add? d) then some (l.blockingWait h d)
      else none := by
    intro c
    unfold Link.awaitBy Link.blockingWait
    cases l.outcome? h with
    | some o => rfl
    | none => cases now.passed (start.add? d) <;> rfl
  cases k with
  | timed => exact hawait _
  | executing => exact hawait _
  | blocking => rfl

theorem look_of_settled {o : Outcome} (ho : l.outcome? h = some o) :
    k.look start h d now l = some o := by
  simp [look_eq, Link.blockingWait, ho]

theorem look_of_over (hnone : l.outcome? h = none) (hover : k.isOver start d now = true) :
    k.look start h d now l = some (.error (.responseTimeout h.id d.wholeMillis)) := by
  simp [look_eq, Link.blockingWait, hnone, hover, Link.responseTimeout]

theorem look_eq_none_iff :
    k.look start h d now l = none ↔ l.outcome? h = none ∧ k.isOver start d now = false := by
  simp [look_eq]

theorem look_eq_some {o : Outcome} (hlook : k.look start h d now l = some o) :
    l.outcome? h = some o ∨ l.outcome? h = none ∧ k.isOver start d now = true ∧
      o = .error (.responseTimeout h.id d.wholeMillis) := by
  cases houtcome : l.outcome? h with
  | some p => exact Or.inl ((look_of_settled houtcome).symm.trans hlook)
  | none =>
    cases hover : k.isOver start d now with
    | false => exact nomatch hlook.symm.trans (look_eq_none_iff.mpr ⟨houtcome, hover⟩)
    | true =>
      have hsame := hlook.symm.trans (look_of_over houtcome hover)
      exact Or.inr ⟨rfl, rfl, Option.some.inj hsame⟩

theorem isOver_mono {later : Instant} (hover : k.isOver start d now = true)
    (hle : now.nanos ≤ later.nanos) : k.isOver start d later = true := by
  cases k with
  | timed => exact Instant.passed_mono hover hle
  | executing => exact Instant.passed_mono hover hle
  | blocking =>
    simp only [isOver] at hover ⊢
    cases hadd : start.add? d with
    | none =>
      rw [hadd] at hover
      cases hover
    | some deadline =>
      rw [hadd] at hover
      exact decide_eq_true ((of_decide_eq_true hover).trans hle)

theorem isOver_blocking_iff : blocking.isOver start d now = true ↔
    start.nanos + d.nanos < Instant.limit ∧ start.nanos + d.nanos ≤ now.nanos := by
  simp only [isOver, Instant.add?]
  by_cases hlimit : start.nanos + d.nanos < Instant.limit <;> simp [hlimit]

end Wait

namespace Link

/-- The second half of a call that sends a request is a wait for the answer, which begins when
the request has been sent. -/
theorem proceed_execute {l l' : Link} {g h : Handle} {p : Payload} {d : Duration}
    (hsent : l.transmit g p = (l', .ok h)) (now : Instant) :
    proceed now (.execute p d) (l, .granted g) =
      (l', match Wait.executing.look now h d now l' with
        | some o => .finished (.outcome o)
        | none => .waiting (.answered h d (now.add? d))) := by
  have hcall : Wait.executing.call? now h d = some (.answered h d (now.add? d)) := rfl
  simp only [proceed, hsent]
  exact Wait.poll_of_call hcall now l'

end Link

namespace Scene

variable {s t : Scene} {k : Wait} {h : Handle} {d : Duration}

theorem now_le_onIncident (s : Scene) (i : Incident) :
    s.now.nanos ≤ (s.onIncident i).now.nanos := by
  have hjoin : ∀ a, (s.join a).now = s.now := by
    rintro ⟨l, p⟩
    cases p <;> rfl
  have hrejoin : ∀ i a, (s.rejoin i a).now = s.now := by
    rintro i ⟨l, p⟩
    cases p <;> rfl
  cases i with
  | readError m => exact Nat.le_refl _
  | writeError m => exact Nat.le_refl _
  | act a =>
    cases a with
    | advance d => exact Nat.le_add_right _ _
    | start e => exact (congrArg Instant.nanos (hjoin _)).ge
    | close => exact (congrArg Instant.nanos (hjoin _)).ge
    | closed => exact (congrArg Instant.nanos (hjoin _)).ge
    | drained => exact (congrArg Instant.nanos (hjoin _)).ge
    | settled h => exact (congrArg Instant.nanos (hjoin _)).ge
    | waitFor h limit => exact (congrArg Instant.nanos (hjoin _)).ge
    | poll i =>
      simp only [onIncident, perform]
      cases s.calls[i]? with
      | none => exact Nat.le_refl _
      | some c => exact (congrArg Instant.nanos (hrejoin i _)).ge
    | drop i =>
      simp only [onIncident, perform]
      cases s.calls[i]? <;> exact Nat.le_refl _
    | loop e =>
      simp only [onIncident, perform]
      split <;> exact Nat.le_refl _
    | _ => exact Nat.le_refl _

theorem now_le_runIncidents (s : Scene) (incidents : List Incident) :
    s.now.nanos ≤ (s.runIncidents incidents).now.nanos :=
  List.foldlRecOn (motive := fun t => s.now.nanos ≤ t.now.nanos) incidents onIncident
    (Nat.le_refl _) fun t ht i _ => ht.trans (t.now_le_onIncident i)

/-! A wait among the calls of a scene -/

/-- A call that waits has another look: it ends and leaves everything else as it is, or it
waits on. -/
theorem perform_poll_of_wait {start : Instant} {c : Call} {i : Nat}
    (hc : k.call? start h d = some c) (hi : t.calls[i]? = some c) :
    t.perform (.poll i) =
      match k.look start h d t.now t.link with
      | some o => { t with calls := t.calls.eraseIdx i, answers := t.answers ++ [.outcome o] }
      | none => t := by
  simp only [perform, hi, Wait.poll_of_call hc]
  cases k.look start h d t.now t.link with
  | some o => rfl
  | none =>
    obtain ⟨hlt, hget⟩ := List.getElem?_eq_some_iff.mp hi
    have hsame : t.calls.set i c = t.calls := by rw [← hget, List.set_getElem_self]
    simp [rejoin, hsame]

/-! The looks of a wait -/

/-- The scene at the beginning of a run and after each of its stretches. -/
def moments (s : Scene) : List (List Incident) → List Scene
  | [] => [s]
  | stretch :: rest => s :: (s.runIncidents stretch).moments rest

/-- What a wait that begins now ends with in a run of which it sees these moments. -/
def awaits (s : Scene) (k : Wait) (h : Handle) (d : Duration)
    (stretches : List (List Incident)) : Option Outcome :=
  (s.moments stretches).findSome? fun t => k.look s.now h d t.now t.link

theorem mem_moments_iff {stretches : List (List Incident)} :
    t ∈ s.moments stretches ↔ ∃ seen, seen <+: stretches ∧ t = s.runIncidents seen.flatten := by
  induction stretches generalizing s with
  | nil => simp [moments, runIncidents]
  | cons stretch rest ih =>
    simp only [moments, List.mem_cons, ih, List.prefix_cons_iff]
    constructor
    · rintro (rfl | ⟨seen, hseen, rfl⟩)
      · exact ⟨[], Or.inl rfl, rfl⟩
      · exact ⟨stretch :: seen, Or.inr ⟨seen, rfl, hseen⟩, by simp⟩
    · rintro ⟨seen, rfl | ⟨seen, rfl, hseen⟩, rfl⟩
      · exact Or.inl rfl
      · exact Or.inr ⟨seen, hseen, by simp⟩

/-- The first look that finds something ends a wait, and those before it find nothing, or the
same. -/
theorem findSome?_moments {look : Scene → Option Outcome} {o : Outcome}
    {before after : List (List Incident)}
    (hearlier : ∀ seen, seen <+: before →
      look (s.runIncidents seen.flatten) = none ∨ look (s.runIncidents seen.flatten) = some o)
    (hlook : look (s.runIncidents before.flatten) = some o) :
    (s.moments (before ++ after)).findSome? look = some o := by
  induction before generalizing s with
  | nil =>
    have hfirst : look s = some o := hlook
    cases after <;> simp [moments, hfirst]
  | cons stretch before ih =>
    have hrest : ((s.runIncidents stretch).moments (before ++ after)).findSome? look = some o := by
      refine ih (fun seen hseen => ?_) (by simpa using hlook)
      simpa using hearlier (stretch :: seen) ((List.prefix_cons_inj stretch).mpr hseen)
    rw [List.cons_append, moments, List.findSome?_cons]
    rcases hearlier [] List.nil_prefix with hnone | hsome
    · rw [show look s = none from hnone]
      exact hrest
    · rw [show look s = some o from hsome]

/-- A look at an earlier moment finds nothing, or the outcome, if the time of the wait is not
over when the outcome is there. -/
theorem look_of_earlier {start : Instant} {incidents : List Incident} {o : Outcome}
    (ho : (t.runIncidents incidents).link.outcome? h = some o)
    (hover : k.isOver start d (t.runIncidents incidents).now = false) :
    k.look start h d t.now t.link = none ∨ k.look start h d t.now t.link = some o := by
  cases houtcome : t.link.outcome? h with
  | some p =>
    have hstands := (t.leadsTo_runIncidents incidents).outcome? houtcome
    rw [show p = o from Option.some.inj (hstands.symm.trans ho)] at houtcome
    exact Or.inr (Wait.look_of_settled houtcome)
  | none =>
    refine Or.inl (Wait.look_eq_none_iff.mpr ⟨houtcome, ?_⟩)
    cases hearly : k.isOver start d t.now with
    | false => rfl
    | true =>
      exact (Wait.isOver_mono hearly (t.now_le_runIncidents incidents)).symm.trans hover

/-- What can be relied on by whoever waits, in a wait that begins now. -/
structure Honours (s : Scene) (k : Wait) (h : Handle) (d : Duration) : Prop where
  /-- An outcome that is there already is the result, also if no time is allowed. -/
  atOnce : ∀ o, s.link.outcome? h = some o → ∀ stretches, s.awaits k h d stretches = some o
  /-- So is one that comes while the time is not over, whenever the wait looks next. -/
  inTime : ∀ before fore aft after o,
    (s.runIncidents (before.flatten ++ fore)).link.outcome? h = some o →
      k.isOver s.now d (s.runIncidents (before.flatten ++ fore)).now = false →
        s.awaits k h d (before ++ (fore ++ aft) :: after) = some o
  /-- A look that finds no outcome when the time is over ends the wait. -/
  expires : ∀ before after, (s.runIncidents before.flatten).link.outcome? h = none →
    k.isOver s.now d (s.runIncidents before.flatten).now = true →
      s.awaits k h d (before ++ after) = some (.error (.responseTimeout h.id d.wholeMillis))
  /-- Nothing else ends it. -/
  ends : ∀ stretches o, s.awaits k h d stretches = some o → ∃ t ∈ s.moments stretches,
    t.link.outcome? h = some o ∨
      t.link.outcome? h = none ∧ k.isOver s.now d t.now = true ∧
        o = .error (.responseTimeout h.id d.wholeMillis)
  waits : ∀ stretches, s.awaits k h d stretches = none ↔ ∀ t ∈ s.moments stretches,
    t.link.outcome? h = none ∧ k.isOver s.now d t.now = false
  /-- The time of a call is over once a whole millisecond has come at or after the deadline, if
  the clock can hold it. -/
  timer : k ≠ .blocking → ∀ now : Instant, k.isOver s.now d now = true ↔
    s.now.nanos + d.nanos < Instant.limit ∧
      ∃ ms, s.now.nanos + d.nanos ≤ ms * nanosPerMilli ∧ ms * nanosPerMilli ≤ now.nanos
  /-- The time of a thread is over at the deadline, if the clock can hold it. -/
  sleeper : k = .blocking → ∀ now : Instant, k.isOver s.now d now = true ↔
    s.now.nanos + d.nanos < Instant.limit ∧ s.now.nanos + d.nanos ≤ now.nanos

theorem honours (s : Scene) (k : Wait) (h : Handle) (d : Duration) : s.Honours k h d where
  atOnce o ho stretches := by
    rw [awaits, ← List.nil_append stretches]
    refine findSome?_moments (fun seen hseen => Or.inr ?_) (Wait.look_of_settled ho)
    rw [List.prefix_nil.mp hseen]
    exact Wait.look_of_settled ho
  inTime before fore aft after o ho hover := by
    have hall : before ++ (fore ++ aft) :: after = (before ++ [fore ++ aft]) ++ after := by simp
    have hlast : s.runIncidents (before ++ [fore ++ aft]).flatten =
        (s.runIncidents (before.flatten ++ fore)).runIncidents aft := by simp
    have hsettled : k.look s.now h d (s.runIncidents (before ++ [fore ++ aft]).flatten).now
        (s.runIncidents (before ++ [fore ++ aft]).flatten).link = some o := by
      rw [hlast]
      exact Wait.look_of_settled ((leadsTo_runIncidents _ aft).outcome? ho)
    rw [awaits, hall]
    refine findSome?_moments (fun seen hseen => ?_) hsettled
    rcases List.prefix_concat_iff.mp hseen with rfl | ⟨rest, rfl⟩
    · exact Or.inr hsettled
    · have hlater : s.runIncidents ((seen ++ rest).flatten ++ fore) =
          (s.runIncidents seen.flatten).runIncidents (rest.flatten ++ fore) := by simp
      rw [hlater] at ho hover
      exact look_of_earlier ho hover
  expires before after hnone hover := by
    refine findSome?_moments (fun seen hseen => ?_) (Wait.look_of_over hnone hover)
    obtain ⟨rest, rfl⟩ := hseen
    rw [List.flatten_append, runIncidents_append] at hnone
    have hopen : (s.runIncidents seen.flatten).link.outcome? h = none := by
      cases houtcome : (s.runIncidents seen.flatten).link.outcome? h with
      | none => rfl
      | some p =>
        have hstands := (leadsTo_runIncidents _ rest.flatten).outcome? houtcome
        exact nomatch hstands.symm.trans hnone
    cases hearly : k.isOver s.now d (s.runIncidents seen.flatten).now with
    | false => exact Or.inl (Wait.look_eq_none_iff.mpr ⟨hopen, hearly⟩)
    | true => exact Or.inr (Wait.look_of_over hopen hearly)
  ends stretches o hends := by
    obtain ⟨t, ht, hlook⟩ := List.exists_of_findSome?_eq_some hends
    exact ⟨t, ht, Wait.look_eq_some hlook⟩
  waits stretches := by
    simp only [awaits, List.findSome?_eq_none_iff, Wait.look_eq_none_iff]
  timer hk now := by
    have hpassed : k.isOver s.now d now = now.passed (s.now.add? d) := by
      cases k with
      | blocking => exact absurd rfl hk
      | _ => rfl
    rw [hpassed, Instant.passed_add?_iff]
  sleeper hk now := by
    rw [hk]
    exact Wait.isOver_blocking_iff

end Scene

end Switchboard
