import Switchboard.Proofs.Poisoning
import Switchboard.Proofs.WaitingCalls

/-!
The course of a link from connecting to closed. A registry on its own may be closed from
any state and with any failure. Its link closes it in order: a link that is still connecting
when it fails is closed at once, with the failure of the handshake, and any other passes
through closing and is closed with the announcement of a close. `Course` is the invariant;
it reads the log of the registry together with the lifecycle and the failure.
-/
namespace Switchboard

open Registry (Op Change Quiet LeadsTo)

/-- What a link does to its registry. -/
def Registry.Proper (r : Registry) (op : Op) : Prop :=
  op = .greet ∨ op = .markReady ∨ r.Quiet op

theorem Link.routine_proper : Routine Registry.Proper :=
  routine_quiet.mono fun _ _ hop => Or.inr (Or.inr hop)

/-- The log, the lifecycle and the failure of a link that has come some way. -/
inductive Course : List Move → Lifecycle → Option Failure → Prop
  | start : Course [] .connecting none
  | opens {ms : List Move} {f : Option Failure} :
      Course ms .connecting f → Course (ms ++ [⟨.connecting, .ready⟩]) .ready f
  | shuts {ms : List Move} {s : Lifecycle} {f : Option Failure} :
      s.isShuttingDown = false → Course ms s f → Course (ms ++ [⟨s, .closing⟩]) .closing f
  | refuses {ms : List Move} {f : Option Failure} (m : String) :
      Course ms .connecting f →
      Course (ms ++ [⟨.connecting, .closed⟩]) .closed (some (.handshakeFailed m))
  | ends {ms : List Move} {f : Option Failure} (m : String) :
      Course ms .closing f → Course (ms ++ [⟨.closing, .closed⟩]) .closed (some (.closing m))

namespace Course

/-! The three ways to the end -/

/-- The link fails while it connects. -/
def refused : List Move := [⟨.connecting, .closed⟩]

/-- The link is closed before the handshake completes. -/
def dropped : List Move := [⟨.connecting, .closing⟩, ⟨.closing, .closed⟩]

def served : List Move :=
  [⟨.connecting, .ready⟩, ⟨.ready, .closing⟩, ⟨.closing, .closed⟩]

def ways : List (List Move) := [refused, dropped, served]

variable {ms : List Move} {s : Lifecycle} {f : Option Failure}

theorem of_connecting (h : Course ms .connecting f) : ms = [] ∧ f = none := by
  cases h with
  | start => exact ⟨rfl, rfl⟩

theorem of_ready (h : Course ms .ready f) : ms = [⟨.connecting, .ready⟩] ∧ f = none := by
  cases h with
  | opens h =>
    obtain ⟨rfl, rfl⟩ := h.of_connecting
    exact ⟨rfl, rfl⟩

theorem of_closing (h : Course ms .closing f) :
    (ms = [⟨.connecting, .closing⟩] ∨
      ms = [⟨.connecting, .ready⟩, ⟨.ready, .closing⟩]) ∧ f = none := by
  cases h with
  | @shuts _ s _ hs h =>
    cases s with
    | connecting =>
      obtain ⟨rfl, rfl⟩ := h.of_connecting
      exact ⟨Or.inl rfl, rfl⟩
    | ready =>
      obtain ⟨rfl, rfl⟩ := h.of_ready
      exact ⟨Or.inr rfl, rfl⟩
    | closing => cases hs
    | closed => cases hs

theorem of_closed (h : Course ms .closed f) :
    (ms = refused ∧ ∃ m, f = some (.handshakeFailed m)) ∨
      ((ms = dropped ∨ ms = served) ∧ ∃ m, f = some (.closing m)) := by
  cases h with
  | refuses m h =>
    obtain ⟨rfl, -⟩ := h.of_connecting
    exact Or.inl ⟨rfl, m, rfl⟩
  | ends m h =>
    obtain ⟨rfl | rfl, -⟩ := h.of_closing
    · exact Or.inr ⟨Or.inl rfl, m, rfl⟩
    · exact Or.inr ⟨Or.inr rfl, m, rfl⟩

theorem exists_way (h : Course ms s f) : ∃ way ∈ ways, ms <+: way := by
  cases s with
  | connecting =>
    rw [h.of_connecting.1]
    exact ⟨refused, by decide, by decide⟩
  | ready =>
    rw [h.of_ready.1]
    exact ⟨served, by decide, by decide⟩
  | closing =>
    obtain ⟨rfl | rfl, -⟩ := h.of_closing
    · exact ⟨dropped, by decide, by decide⟩
    · exact ⟨served, by decide, by decide⟩
  | closed =>
    obtain ⟨rfl, -⟩ | ⟨rfl | rfl, -⟩ := h.of_closed
    · exact ⟨refused, by decide, by decide⟩
    · exact ⟨dropped, by decide, by decide⟩
    · exact ⟨served, by decide, by decide⟩

theorem nodup (h : Course ms s f) : (Lifecycle.connecting :: ms.map Move.target).Nodup := by
  have hways : ∀ way ∈ ways, (Lifecycle.connecting :: way.map Move.target).Nodup := by decide
  obtain ⟨way, hway, hstart⟩ := h.exists_way
  exact ((hstart.sublist.map Move.target).cons_cons _).nodup (hways way hway)

theorem notMem (h : Course ms s f) : ⟨.ready, .closed⟩ ∉ ms := by
  have hways : ∀ way ∈ ways, (⟨.ready, .closed⟩ : Move) ∉ way := by decide
  obtain ⟨way, hway, hstart⟩ := h.exists_way
  intro hmem
  exact hways way hway (hstart.mem hmem)

theorem last (h : Course ms s f) : (ms.getLast?.map Move.target).getD .connecting = s := by
  cases h with
  | start => rfl
  | opens _ => simp
  | shuts _ _ => simp
  | refuses _ _ => simp
  | ends _ _ => simp

theorem eq_none_iff (h : Course ms s f) : f = none ↔ s ≠ .closed := by
  cases s with
  | connecting => simp [h.of_connecting.2]
  | ready => simp [h.of_ready.2]
  | closing => simp [h.of_closing.2]
  | closed =>
    obtain ⟨-, m, rfl⟩ | ⟨-, m, rfl⟩ := h.of_closed
    · simp
    · simp

theorem failure_iff {e : Failure} (h : Course ms s (some e)) :
    ((∃ m, e = .handshakeFailed m) ↔ ms = refused) ∧
      ((∃ m, e = .closing m) ↔ ms ≠ refused) := by
  have hs : s = .closed := by
    by_contra hs
    exact absurd (h.eq_none_iff.mpr hs) nofun
  subst hs
  rcases h.of_closed with ⟨rfl, m, hm⟩ | ⟨hway, m, hm⟩
  · rw [Option.some.inj hm]
    exact ⟨⟨fun _ => rfl, fun _ => ⟨m, rfl⟩⟩, ⟨nofun, fun hne => absurd rfl hne⟩⟩
  · have hne : ms ≠ refused := by
      rcases hway with rfl | rfl
      · decide
      · decide
    rw [Option.some.inj hm]
    exact ⟨⟨nofun, fun heq => absurd heq hne⟩, ⟨fun _ => hne, fun _ => ⟨m, rfl⟩⟩⟩

end Course

namespace Registry

variable {r s : Registry}

/-- The registry has come its way in order. -/
def OnCourse (r : Registry) : Prop := Course r.moves r.lifecycle r.closedWith

theorem onCourse_of_make {ceiling : Nat} {policy : Policy} (h : make ceiling policy = .ok r) :
    OnCourse r := by
  obtain ⟨g, -, rfl⟩ := eq_of_make h
  exact Course.start

@[simp] theorem moves_drain (hs : List Handle) (o : Outcome) (r : Registry) :
    (hs.foldl (discharge o) r).moves = r.moves := by
  induction hs generalizing r with
  | nil => rfl
  | cons h hs ih => exact ih _

theorem Change.onCourse {op : Op} {granted : Option Handle} (hc : Change r op s granted)
    (hop : Proper r op) (h : OnCourse r) : OnCourse s := by
  cases hc with
  | opens hconnecting =>
    have hcourse : Course r.moves .connecting r.closedWith := hconnecting ▸ h
    have hopens := hcourse.opens
    rw [← hconnecting] at hopens
    exact hopens
  | closes hs => exact Course.shuts hs h
  | @fails f hopen =>
    rw [OnCourse, moves_drain, lifecycle_drain, closedWith_drain]
    obtain hop | hop | ⟨hconnecting, m, rfl⟩ | ⟨hshut, m, rfl⟩ := hop
    · cases hop
    · cases hop
    · have hcourse : Course r.moves .connecting r.closedWith := hconnecting ▸ h
      have hrefuses := hcourse.refuses m
      rw [← hconnecting] at hrefuses
      exact hrefuses
    · have hclosing : r.lifecycle = .closing := by
        simpa [Lifecycle.isShuttingDown, hopen] using hshut
      have hcourse : Course r.moves .closing r.closedWith := hclosing ▸ h
      have hends := hcourse.ends m
      rw [← hclosing] at hends
      exact hends
  | waits _ _ => exact h
  | enters _ _ _ => exact h
  | stays _ => exact h
  | greets _ _ => exact h
  | notes _ => exact h
  | strikes _ => exact h
  | failsLate _ => exact h

theorem Change.closedWith {op : Op} {granted : Option Handle} (hc : Change r op s granted)
    (h : r.lifecycle = .closed) : s.closedWith = r.closedWith := by
  cases hc with
  | fails hopen => exact absurd h hopen
  | waits _ _ => rfl
  | enters _ _ _ => rfl
  | stays _ => rfl
  | greets _ _ => rfl
  | notes _ => rfl
  | strikes _ => rfl
  | opens _ => rfl
  | closes _ => rfl
  | failsLate _ => rfl

theorem LeadsTo.closedWith (h : r.LeadsTo s) (hr : r.lifecycle = .closed) :
    s.closedWith = r.closedWith := by
  refine (h.preserves (I := fun s => s.lifecycle = .closed ∧ s.closedWith = r.closedWith) ?_
    ⟨hr, rfl⟩).2
  intro s op hs
  have hc := change_of_act s op
  exact ⟨hc.closed hs.1, (hc.closedWith hs.1).trans hs.2⟩

/-! What the operations answer -/

/-- Where an operation moves the lifecycle, if its answer is that it does. -/
def moveBy (r : Registry) : Op → Option Lifecycle
  | .markReady => if r.markReady.2 then some .ready else none
  | .beginClosing => if r.beginClosing.2 then some .closing else none
  | .failAll f => if (r.failAll f).2 then some .closed else none
  | _ => none

/-- How many operations of a list answer that they have moved the lifecycle to `target`. -/
def turns (target : Lifecycle) : Registry → List Op → Nat
  | _, [] => 0
  | r, op :: ops => (r.moveBy op).toList.count target + turns target (r.after op) ops

theorem moves_of_isAtGate (r : Registry) {op : Op} (hop : op.isAtGate = true) :
    (r.after op).moves = r.moves := by
  have hc := change_of_act r op
  generalize r.after op = s at hc ⊢
  generalize r.grants op = granted at hc
  cases hc with
  | waits _ _ => rfl
  | enters _ _ _ => rfl
  | stays _ => rfl
  | greets _ _ => rfl
  | notes _ => rfl
  | strikes _ => rfl
  | failsLate _ => rfl
  | opens _ => cases hop
  | closes _ => cases hop
  | fails _ => cases hop

/-- The log has a move for every operation that answers that it has made one. -/
theorem moves_after (r : Registry) (op : Op) :
    (r.after op).moves = r.moves ++ (r.moveBy op).toList.map fun t => ⟨r.lifecycle, t⟩ := by
  cases op with
  | markReady =>
    simp only [after, act, moveBy, markReady]
    split
    · rfl
    · simp
  | beginClosing =>
    simp only [after, act, moveBy, beginClosing]
    split
    · simp
    · rfl
  | failAll f =>
    simp only [after, act, moveBy, failAll]
    split
    · simp
    · rw [moves_drain]
      rfl
  | greet =>
    simp only [after, act, moveBy, greet]
    split
    · simp
    · split
      · simp
      · simp
  | settle id o =>
    simp only [after, act, moveBy, settle]
    split
    · simp [discharge_eq]
    · simp
  | register => exact (moves_of_isAtGate r rfl).trans (List.append_nil _).symm
  | tryRegister => exact (moves_of_isAtGate r rfl).trans (List.append_nil _).symm
  | resume w => exact (moves_of_isAtGate r rfl).trans (List.append_nil _).symm
  | abandon w => exact (moves_of_isAtGate r rfl).trans (List.append_nil _).symm

theorem count_moves_run (r : Registry) (ops : List Op) (target : Lifecycle) :
    ((r.run ops).moves.map Move.target).count target =
      (r.moves.map Move.target).count target + turns target r ops := by
  induction ops generalizing r with
  | nil => rfl
  | cons op ops ih =>
    have hmove : (r.moveBy op).toList.map (Move.target ∘ fun t => ⟨r.lifecycle, t⟩) =
        (r.moveBy op).toList := by
      cases r.moveBy op with
      | none => rfl
      | some t => rfl
    rw [run_cons, ih, moves_after, List.map_append, List.map_map, hmove, List.count_append,
      turns, Nat.add_assoc]

/-- On its way a registry is moved to each state once at most. -/
theorem OnCourse.turns_le {ops : List Op} (h : OnCourse (r.run ops)) (target : Lifecycle) :
    turns target r ops ≤ 1 := by
  have hcount := List.nodup_iff_count_le_one.mp (List.nodup_cons.mp h.nodup).2 target
  rw [count_moves_run] at hcount
  omega

end Registry

namespace Scene

/-- Whatever a link does to its registry in a run is proper. -/
theorem Quiet.leadsBy_run {s : Scene} (hquiet : s.Quiet) {acts : List Action}
    (hown : ∀ a ∈ acts, a.isOwn = true) :
    Registry.LeadsBy Registry.Proper s.link.registry (s.run acts).link.registry := by
  induction acts generalizing s with
  | nil => exact .refl
  | cons a acts ih =>
    have hallows : s.Allows Registry.Proper a :=
      hquiet.allows (hown a List.mem_cons_self) (fun _ _ hop => Or.inr (Or.inr hop))
        (fun _ _ => Or.inl rfl) fun _ _ _ => Or.inr (Or.inl rfl)
    exact (leadsBy_perform Link.routine_proper s a hallows).trans
      (ih (hquiet.perform a) fun b hb => hown b (List.mem_cons_of_mem a hb))

theorem onCourse_run {s : Scene} (hquiet : s.Quiet) {acts : List Action}
    (hown : ∀ a ∈ acts, a.isOwn = true) (h : s.link.registry.OnCourse) :
    (s.run acts).link.registry.OnCourse :=
  (hquiet.leadsBy_run hown).preserves
    (fun r op hop hr => (Registry.change_of_act r op).onCourse hop hr) h

/-- A link that has just been made is on one of three ways, whatever is done to it. It never
comes twice to the same state, and not from ready to closed without closing; whoever follows
the moves knows where it is; and of all operations that begin the close, and of all that
bring the end, one at most answers that it did. A failure is there just when the link is
closed, and stands: the failure of the handshake if the link failed while it connected, and
otherwise that of a close. -/
theorem follows_course {ceiling : Nat} {policy : Policy} {s : Scene}
    (hmake : Registry.make ceiling policy = .ok s.link.registry) (hcalls : s.calls = [])
    {acts : List Action} (hown : ∀ a ∈ acts, a.isOwn = true) :
    let r := (s.run acts).link.registry
    (∃ way ∈ Course.ways, r.moves <+: way) ∧ ⟨.ready, .closed⟩ ∉ r.moves ∧
      (Lifecycle.connecting :: r.moves.map Move.target).Nodup ∧
      (r.moves.getLast?.map Move.target).getD .connecting = r.lifecycle ∧
      (s.link.registry.LeadsTo r ∧ ∀ ops, r = s.link.registry.run ops →
        s.link.registry.turns .closing ops ≤ 1 ∧ s.link.registry.turns .closed ops ≤ 1) ∧
      (r.closedWith = none ↔ r.lifecycle ≠ .closed) ∧
      ∀ f, r.closedWith = some f →
        (∀ more, ((s.run acts).run more).link.registry.closedWith = some f) ∧
        ((∃ m, f = .handshakeFailed m) ↔ r.moves = Course.refused) ∧
        ((∃ m, f = .closing m) ↔ r.moves ≠ Course.refused) := by
  intro r
  have hcourse : r.OnCourse :=
    onCourse_run (quiet_of_calls hcalls) hown (Registry.onCourse_of_make hmake)
  refine ⟨hcourse.exists_way, hcourse.notMem, hcourse.nodup, hcourse.last,
    ⟨s.leadsTo_run acts, ?_⟩, hcourse.eq_none_iff, ?_⟩
  · intro ops hops
    rw [hops] at hcourse
    exact ⟨hcourse.turns_le .closing, hcourse.turns_le .closed⟩
  · intro f hf
    have hclosed : r.lifecycle = .closed := by
      by_contra hopen
      rw [hcourse.eq_none_iff.mpr hopen] at hf
      cases hf
    rw [Registry.OnCourse, hf] at hcourse
    refine ⟨?_, hcourse.failure_iff⟩
    intro more
    exact (((s.run acts).leadsTo_run more).closedWith hclosed).trans hf

/-- A link with two slots that has just been made. -/
def fresh : Scene where
  link := { registry := { gate := { ceiling := 2, policy := .block, free := 2 } } }

/-- The answer of a peer that accepts the handshake. -/
def acceptance : Frame := "\x7b\"callbackIdx\":0,\"type\":\"ok\"\x7d".toUTF8

/-- The peer accepts the handshake, a request is registered, and while two callers wait for
the link to close, the stream breaks. -/
def resetWhileClosing : List Action :=
  [.connect {}, .frame acceptance, .registry .register, .close, .close, .fault (.io "reset"),
    .poll 0, .poll 1]

theorem course_of_reset_while_closing :
    let s := fresh.run resetWhileClosing
    let f : Failure := .closing "connection lost: IO error: reset"
    s.link.registry.moves = Course.served ∧ s.link.lifecycle = .closed ∧
      s.link.registry.closedWith = some f ∧
      ∀ more, (s.run more).link.registry.closedWith = some f := by
  intro s f
  have hmake : Registry.make 2 .block = .ok fresh.link.registry := rfl
  have hown : ∀ a ∈ resetWhileClosing, a.isOwn = true := by decide
  obtain ⟨-, -, -, hlast, -, -, hfailure⟩ := follows_course hmake rfl hown
  have hmoves : s.link.registry.moves = Course.served := by decide +kernel
  have hf : s.link.registry.closedWith = some f := by decide +kernel
  rw [hmoves] at hlast
  exact ⟨hmoves, hlast.symm, hf, (hfailure f hf).1⟩

end Scene

end Switchboard
