import Switchboard.Proofs.Endings

/-!
Who closes a link. The first to close it leaves a call behind, which brings the close to its
end as soon as nothing is pending or its time is over; all others wait for that end. As long
as the call is not given up, it waits on while the link is closing. If it is given up, nobody
takes its place: then a link that is closing is closed by what breaks it, or never.
-/
namespace Switchboard

open Registry (Sound Staged LeadsTo)

theorem exists_split_at {α : Type} {l : List α} {i : Nat} {c : α} (h : l[i]? = some c) :
    ∃ xs ys, l = xs ++ c :: ys ∧ l.eraseIdx i = xs ++ ys ∧ ∀ d, l.set i d = xs ++ d :: ys := by
  obtain ⟨hi, rfl⟩ := List.getElem?_eq_some_iff.mp h
  refine ⟨l.take i, l.drop (i + 1), ?_, List.eraseIdx_eq_take_drop_succ l i, ?_⟩
  · rw [← List.drop_eq_getElem_cons hi, List.take_append_drop]
  · intro d
    rw [List.set_eq_take_append_cons_drop, if_pos hi]

namespace Call

/-- Whether the call is to close the link. -/
def isCloser : Call → Bool
  | closing _ => true
  | _ => false

/-- Whether the call waits for the end of the link. -/
def awaitsEnd : Call → Bool
  | closing _ => true
  | closed => true
  | _ => false

theorem exists_of_isCloser {c : Call} (h : c.isCloser = true) :
    ∃ deadline?, c = closing deadline? := by
  cases c with
  | closing deadline? => exact ⟨deadline?, rfl⟩
  | _ => cases h

theorem not_isCloser_of_isPlain {c : Call} (h : c.isPlain = true) : c.isCloser = false := by
  cases c with
  | closing deadline? => cases h
  | _ => rfl

/-- A call that has another look stays what it is: the closer waits on as the same call, and
no other call becomes one. -/
theorem isCloser_of_waiting {l : Link} {now : Instant} {c d : Call}
    (hd : (c.poll now l).2 = .waiting d) :
    d.isCloser = c.isCloser ∧ (c.isCloser = true → d = c) := by
  rcases Link.waiting_poll hd with rfl | ⟨w, e, rfl, hd⟩ | ⟨s, limit, deadline, rfl, hd⟩
  · exact ⟨rfl, fun _ => rfl⟩
  · exact ⟨not_isCloser_of_isPlain (Link.isPlain_of_proceed hd), nofun⟩
  · obtain ⟨h, l', -, rfl⟩ := Link.waiting_establish hd
    exact ⟨rfl, nofun⟩

/-- The closer is not done before the link is closed, and neither is whoever waits for
that. -/
theorem closed_of_finished {l : Link} {now : Instant} {c : Call} (hc : c.awaitsEnd = true)
    {a : Answer} (ha : (c.poll now l).2 = .finished a) :
    (c.poll now l).1.lifecycle = .closed := by
  cases c with
  | closing deadline? =>
    simp only [poll] at ha ⊢
    split_ifs at ha with hover
    rw [if_pos hover]
    exact l.lifecycle_finishClose
  | closed =>
    simp only [poll] at ha ⊢
    split_ifs at ha with hclosed
    exact of_decide_eq_true hclosed
  | _ => cases hc

end Call

namespace Scene

/-! What holds in every step of a run -/

/-- Every action of a run is one that `P` allows in the state in which it is done. -/
def Throughout (P : Scene → Action → Prop) : Scene → List Action → Prop
  | _, [] => True
  | s, a :: acts => P s a ∧ Throughout P (s.perform a) acts

instance decidableThroughout (P : Scene → Action → Prop) [∀ s a, Decidable (P s a)]
    (s : Scene) (acts : List Action) : Decidable (s.Throughout P acts) :=
  match acts with
  | [] => .isTrue trivial
  | a :: acts =>
    have := decidableThroughout P (s.perform a) acts
    inferInstanceAs (Decidable (P s a ∧ (s.perform a).Throughout P acts))

/-- A run in which not every action is allowed has a first that is not. -/
theorem exists_of_not_throughout {P : Scene → Action → Prop} {s : Scene} {acts : List Action}
    (h : ¬ s.Throughout P acts) :
    ∃ fore a rest, acts = fore ++ a :: rest ∧ ¬ P (s.run fore) a := by
  induction acts generalizing s with
  | nil => exact absurd trivial h
  | cons a acts ih =>
    by_cases ha : P s a
    · obtain ⟨fore, b, rest, rfl, hb⟩ := ih fun hrest => h ⟨ha, hrest⟩
      exact ⟨a :: fore, b, rest, rfl, hb⟩
    · exact ⟨[], a, acts, rfl, ha⟩

/-- Whether an action gives up the call that is to close the link. -/
def givesUp (s : Scene) : Action → Bool
  | .drop i => s.calls[i]?.any Call.isCloser
  | _ => false

/-- Nobody gives up the call that is to close the link. -/
def KeepsCloser (s : Scene) (acts : List Action) : Prop :=
  s.Throughout (fun s a => s.givesUp a = false) acts

/-- Nothing breaks the link. -/
def Unbroken (s : Scene) (acts : List Action) : Prop :=
  s.Throughout (fun s a => s.breakage? a = none) acts

instance (s : Scene) (acts : List Action) : Decidable (s.KeepsCloser acts) :=
  inferInstanceAs (Decidable (s.Throughout _ acts))

instance (s : Scene) (acts : List Action) : Decidable (s.Unbroken acts) :=
  inferInstanceAs (Decidable (s.Throughout _ acts))

/-! The calls that are to close the link -/

def closers (s : Scene) : List Call := s.calls.filter Call.isCloser

variable {s : Scene} {a : Action}

theorem closers_join {p : Link × Progress} (h : ∀ c, p.2 = .waiting c → c.isCloser = false) :
    (s.join p).closers = s.closers := by
  obtain ⟨l, p⟩ := p
  cases p with
  | finished answer => rfl
  | waiting c => simp [closers, join, h c rfl]

theorem closers_split {i : Nat} {c : Call} (hi : s.calls[i]? = some c)
    (hc : c.isCloser = false) :
    (s.calls.eraseIdx i).filter Call.isCloser = s.closers ∧
      ∀ d, d.isCloser = false → (s.calls.set i d).filter Call.isCloser = s.closers := by
  obtain ⟨xs, ys, hsplit, herase, hset⟩ := exists_split_at hi
  rw [closers, herase, hsplit]
  constructor
  · simp [hc]
  · intro d hd
    rw [← hsplit, hset]
    rw [hsplit]
    simp [hc, hd]

theorem closers_rejoin {i : Nat} {c : Call} (hi : s.calls[i]? = some c)
    (hstill : c.isCloser = true → ∃ d, (c.poll s.now s.link).2 = .waiting d) :
    (s.rejoin i (c.poll s.now s.link)).closers = s.closers := by
  cases hcloser : c.isCloser with
  | true =>
    obtain ⟨d, hd⟩ := hstill hcloser
    obtain rfl : d = c := (Call.isCloser_of_waiting hd).2 hcloser
    obtain ⟨xs, ys, hsplit, -, hset⟩ := exists_split_at hi
    generalize d.poll s.now s.link = p at hd
    obtain ⟨l, p⟩ := p
    obtain rfl : p = .waiting d := hd
    rw [closers, rejoin, hset, ← hsplit]
    rfl
  | false =>
    obtain ⟨herase, hset⟩ := closers_split hi hcloser
    have hwaiting : ∀ d, (c.poll s.now s.link).2 = .waiting d → d.isCloser = false :=
      fun d hd => (Call.isCloser_of_waiting hd).1.trans hcloser
    generalize c.poll s.now s.link = p at hwaiting
    obtain ⟨l, p⟩ := p
    cases p with
    | finished answer => exact herase
    | waiting d => exact hset d (hwaiting d rfl)

/-- While the link is closing, nobody joins those who are to close it, and they wait on
unless they are given up. -/
theorem closers_perform (hc : s.link.lifecycle = .closing)
    (hstill : (s.perform a).link.lifecycle = .closing) (hkept : s.givesUp a = false) :
    (s.perform a).closers = s.closers := by
  have hlook : ∀ c : Call, c.isCloser = false →
      (s.join (c.poll s.now s.link)).closers = s.closers :=
    fun c hcloser => closers_join fun d hd => (Call.isCloser_of_waiting hd).1.trans hcloser
  cases a with
  | start e =>
    rw [perform, Link.start_of_rejection (Registry.rejection_of_closing hc)]
    rfl
  | close =>
    rw [perform, Link.close_of_isShuttingDown (Registry.isShuttingDown_of_closing hc)]
    exact hlook .closed rfl
  | closed => exact hlook .closed rfl
  | drained => exact hlook .drained rfl
  | settled h => exact hlook (.settled h) rfl
  | waitFor h limit => exact hlook (.settledBy h limit _) rfl
  | poll i =>
    rw [perform] at hstill ⊢
    cases hi : s.calls[i]? with
    | none => rfl
    | some c =>
      rw [hi] at hstill
      dsimp only at hstill ⊢
      rw [link_rejoin] at hstill
      refine closers_rejoin hi ?_
      intro hcloser
      cases hp : (c.poll s.now s.link).2 with
      | waiting d => exact ⟨d, rfl⟩
      | finished answer =>
        obtain ⟨deadline?, rfl⟩ := Call.exists_of_isCloser hcloser
        rw [Call.closed_of_finished rfl hp] at hstill
        cases hstill
  | drop i =>
    rw [perform]
    cases hi : s.calls[i]? with
    | none => rfl
    | some c =>
      have hcloser : c.isCloser = false := by simpa [givesUp, hi] using hkept
      exact (closers_split hi hcloser).1
  | loop e =>
    rw [perform]
    split
    · rfl
    · rfl
  | _ => rfl

theorem closers_sublist (hc : s.link.lifecycle = .closing)
    (hstill : (s.perform a).link.lifecycle = .closing) :
    (s.perform a).closers.Sublist s.closers := by
  cases hup : s.givesUp a with
  | false => rw [closers_perform hc hstill hup]
  | true =>
    cases a with
    | drop i =>
      cases hi : s.calls[i]? with
      | none => simp [givesUp, hi] at hup
      | some c =>
        simp only [perform, hi, closers]
        exact (List.eraseIdx_sublist s.calls i).filter _
    | _ => cases hup

/-- If there was one only, there is none when it has been given up. -/
theorem closers_of_givesUp (hone : s.closers.length ≤ 1) (h : s.givesUp a = true) :
    (s.perform a).closers = [] ∧ (s.perform a).link.lifecycle = s.link.lifecycle := by
  cases a with
  | drop i =>
    cases hi : s.calls[i]? with
    | none => simp [givesUp, hi] at h
    | some c =>
      have hcloser : c.isCloser = true := by simpa [givesUp, hi] using h
      obtain ⟨xs, ys, hsplit, herase, -⟩ := exists_split_at hi
      simp only [perform, hi]
      refine ⟨?_, c.lifecycle_drop s.link⟩
      rw [closers, hsplit] at hone
      rw [closers, herase, ← List.length_eq_zero_iff]
      simp only [List.filter_append, List.filter_cons, hcloser, if_true, List.length_append,
        List.length_cons] at hone ⊢
      omega
  | _ => cases h

theorem finishes_eq_false (hnobody : s.closers = []) (a : Action) : s.finishes a = false := by
  cases a with
  | poll i =>
    cases hi : s.calls[i]? with
    | none => simp [finishes, hi]
    | some c =>
      have hcloser : ¬ c.isCloser = true :=
        List.filter_eq_nil_iff.mp hnobody c (List.mem_of_getElem? hi)
      cases c with
      | closing deadline? => exact absurd rfl hcloser
      | _ => simp [finishes, hi, Call.finishes]
  | _ => rfl

theorem givesUp_eq_false (hnobody : s.closers = []) (a : Action) : s.givesUp a = false := by
  cases a with
  | drop i =>
    cases hi : s.calls[i]? with
    | none => simp [givesUp, hi]
    | some c =>
      have hcloser : ¬ c.isCloser = true :=
        List.filter_eq_nil_iff.mp hnobody c (List.mem_of_getElem? hi)
      simpa [givesUp, hi] using hcloser
  | _ => rfl

/-! A link that is closing, in a run -/

/-- The books of the link are in order, its gate is shut just while it shuts down, and
whoever waits may have a look. -/
structure InOrder (s : Scene) : Prop where
  sound : Sound s.link.registry
  staged : Staged s.link.registry
  shut : s.link.registry.gate.shut = s.link.registry.lifecycle.isShuttingDown
  quiet : s.Quiet

theorem inOrder_of_make {ceiling : Nat} {policy : Policy}
    (hmake : Registry.make ceiling policy = .ok s.link.registry) (hcalls : s.calls = []) :
    s.InOrder where
  sound := Registry.sound_of_make hmake
  staged := Registry.staged_of_make hmake
  shut := by
    obtain ⟨g, hg, hr⟩ := Registry.eq_of_make hmake
    rw [hr]
    exact Gate.shut_of_make hg
  quiet := quiet_of_calls hcalls

theorem InOrder.run (h : s.InOrder) (acts : List Action) : (s.run acts).InOrder where
  sound := (s.leadsTo_run acts).sound h.sound
  staged := (s.leadsTo_run acts).staged h.staged
  shut := by
    obtain ⟨ops, hops⟩ := s.leadsTo_run acts
    rw [hops]
    exact Registry.shut_run h.shut ops
  quiet := h.quiet.run acts

theorem InOrder.perform (h : s.InOrder) (a : Action) : (s.perform a).InOrder := h.run [a]

/-- The link is closing, and its books are in order. -/
structure Closing (s : Scene) : Prop where
  inOrder : s.InOrder
  lifecycle : s.link.lifecycle = .closing

namespace Closing

theorem fares (h : s.Closing) (hown : a.isOwn = true) :
    s.link.Fares (s.ending? a) (s.perform a).link :=
  fares_perform h.inOrder.sound h.inOrder.staged h.lifecycle hown

theorem ends (h : s.Closing) (hown : a.isOwn = true) {e : Failure} (he : s.ending? a = some e) :
    s.link.EndsWith (s.perform a).link e := by
  have hfares := h.fares hown
  rwa [he] at hfares

/-- Until it is closed the link goes on closing. -/
theorem run (h : s.Closing) {acts : List Action}
    (hopen : (s.run acts).link.lifecycle ≠ .closed) : (s.run acts).Closing where
  inOrder := h.inOrder.run acts
  lifecycle := by
    have hshut := (s.leadsTo_run acts).isShuttingDown
      (Registry.isShuttingDown_of_closing h.lifecycle)
    exact (of_decide_eq_true hshut).resolve_right hopen

theorem perform (h : s.Closing) (hopen : (s.perform a).link.lifecycle ≠ .closed) :
    (s.perform a).Closing := h.run (show (s.run [a]).link.lifecycle ≠ .closed from hopen)

theorem perform_of_ending?_eq_none (h : s.Closing) (hown : a.isOwn = true)
    (hnone : s.ending? a = none) : (s.perform a).Closing := by
  have hfares := h.fares hown
  rw [hnone] at hfares
  exact h.perform (Link.ne_closed_of_closing hfares)

theorem breakage?_eq_none (h : s.Closing) (hown : a.isOwn = true)
    (hopen : (s.perform a).link.lifecycle ≠ .closed) : s.breakage? a = none := by
  cases hending : s.ending? a with
  | some e => exact absurd (h.ends hown hending).lifecycle hopen
  | none =>
    unfold ending? at hending
    split at hending
    · cases hending
    · exact hending

end Closing

theorem open_of_run {acts : List Action} (hopen : (s.run (a :: acts)).link.lifecycle ≠ .closed) :
    (s.perform a).link.lifecycle ≠ .closed := by
  intro hclosed
  exact hopen (((s.perform a).leadsTo_run acts).closed hclosed)

variable {acts : List Action}

theorem Closing.unbroken (h : s.Closing) (hown : ∀ a ∈ acts, a.isOwn = true)
    (hopen : (s.run acts).link.lifecycle ≠ .closed) : s.Unbroken acts := by
  induction acts generalizing s with
  | nil => trivial
  | cons a acts ih =>
    have hnext := open_of_run hopen
    refine ⟨h.breakage?_eq_none (hown a List.mem_cons_self) hnext, ?_⟩
    exact ih (h.perform hnext) (fun b hb => hown b (List.mem_cons_of_mem a hb)) hopen

/-- A link that was closing and is closed has been ended by one of the actions. -/
theorem Closing.exists_ending (h : s.Closing) (hown : ∀ a ∈ acts, a.isOwn = true)
    (hclosed : (s.run acts).link.lifecycle = .closed) :
    ∃ fore a rest e, acts = fore ++ a :: rest ∧ (s.run fore).Closing ∧
      (s.run fore).ending? a = some e ∧
      (s.run fore).link.EndsWith ((s.run fore).perform a).link e := by
  induction acts generalizing s with
  | nil => exact absurd hclosed (Link.ne_closed_of_closing h.lifecycle)
  | cons a acts ih =>
    have ha := hown a List.mem_cons_self
    cases hending : s.ending? a with
    | some e => exact ⟨[], a, acts, e, rfl, h, hending, h.ends ha hending⟩
    | none =>
      have hrest : ∀ b ∈ acts, b.isOwn = true := fun b hb => hown b (List.mem_cons_of_mem a hb)
      obtain ⟨fore, b, rest, e, rfl, hfore⟩ :=
        ih (h.perform_of_ending?_eq_none ha hending) hrest hclosed
      exact ⟨a :: fore, b, rest, e, rfl, hfore⟩

theorem Closing.closers_run (h : s.Closing) (hopen : (s.run acts).link.lifecycle ≠ .closed)
    (hkept : s.KeepsCloser acts) : (s.run acts).closers = s.closers := by
  induction acts generalizing s with
  | nil => rfl
  | cons a acts ih =>
    have hnext := h.perform (open_of_run hopen)
    refine (ih hnext hopen hkept.2).trans ?_
    exact closers_perform h.lifecycle hnext.lifecycle hkept.1

theorem Closing.length_closers_run (h : s.Closing)
    (hopen : (s.run acts).link.lifecycle ≠ .closed) :
    (s.run acts).closers.length ≤ s.closers.length := by
  induction acts generalizing s with
  | nil => exact Nat.le_refl _
  | cons a acts ih =>
    have hnext := h.perform (open_of_run hopen)
    exact (ih hnext hopen).trans (closers_sublist h.lifecycle hnext.lifecycle).length_le

/-- A link that nobody is to close goes on closing until something breaks it. -/
theorem Closing.run_of_unbroken (h : s.Closing) (hnobody : s.closers = [])
    (hown : ∀ a ∈ acts, a.isOwn = true) (hunbroken : s.Unbroken acts) :
    (s.run acts).Closing ∧ (s.run acts).closers = [] := by
  induction acts generalizing s with
  | nil => exact ⟨h, hnobody⟩
  | cons a acts ih =>
    have hnone : s.ending? a = none := by
      rw [ending?, finishes_eq_false hnobody a]
      exact hunbroken.1
    have hnext := h.perform_of_ending?_eq_none (hown a List.mem_cons_self) hnone
    refine ih hnext ?_ (fun b hb => hown b (List.mem_cons_of_mem a hb)) hunbroken.2
    rw [closers_perform h.lifecycle hnext.lifecycle (givesUp_eq_false hnobody a)]
    exact hnobody

/-! At rest -/

/-- Nothing can go on by itself: the loop has nothing to do, and whoever waits would wait on
if it had a look. -/
structure AtRest (s : Scene) : Prop where
  loop : s.link.ready s.isHeld = []
  calls : ∀ c ∈ s.calls, c.isStuck s.now s.link = true

/-- The closer waits at rest for requests that are pending, and its time is not over. -/
theorem AtRest.of_closer (h : s.AtRest) {deadline? : Option Instant}
    (hmem : .closing deadline? ∈ s.calls) :
    s.link.registry.pending ≠ [] ∧ s.now.passed deadline? = false := by
  have hstuck := h.calls _ hmem
  cases hpassed : s.now.passed deadline? with
  | true => simp [Call.isStuck, Call.poll, hpassed] at hstuck
  | false =>
    refine ⟨?_, rfl⟩
    intro hnil
    simp [Call.isStuck, Call.poll, Registry.isDrained, hnil] at hstuck

theorem AtRest.of_closed (h : s.AtRest) (hs : Staged s.link.registry)
    (hclosed : s.link.lifecycle = .closed) : ∀ c ∈ s.calls, c.awaitsEnd = false := by
  intro c hc
  have hstuck := h.calls c hc
  have hnil := hs.closed hclosed
  have hisClosed : s.link.registry.isClosed = true := decide_eq_true hclosed
  cases c with
  | closing deadline? => simp [Call.isStuck, Call.poll, Registry.isDrained, hnil] at hstuck
  | closed => simp [Call.isStuck, Call.poll, hisClosed] at hstuck
  | _ => rfl

end Scene

end Switchboard
