import Switchboard.Proofs.ImmediateEntry
import Switchboard.Proofs.Sleepers
import Switchboard.Proofs.Waits

/-!
Options that have been found valid, and the times that are computed from them. A valid limit
and policy always make a gate. The deadline of a wait is the sum of its start and its length;
if the clock cannot hold the sum, the wait for an answer or for the end of a close has no
deadline. Every call that waits in a run has its deadline in this way. For connecting there
has to be one: without room for it on the clock there is no attempt at all, however valid the
options are.
-/
namespace Switchboard

/-- A wait of this length that has begun has this deadline. -/
def Instant.BegunBy (now : Instant) (d : Duration) (deadline? : Option Instant) : Prop :=
  ∃ start : Instant, start.nanos ≤ now.nanos ∧ deadline? = start.add? d

namespace Instant

variable {now later t : Instant} {d : Duration} {deadline? : Option Instant}

theorem begunBy_add? (now : Instant) (d : Duration) : now.BegunBy d (now.add? d) :=
  ⟨now, Nat.le_refl _, rfl⟩

theorem BegunBy.mono (h : now.BegunBy d deadline?) (hle : now.nanos ≤ later.nanos) :
    later.BegunBy d deadline? := by
  obtain ⟨start, hstart, hsum⟩ := h
  exact ⟨start, hstart.trans hle, hsum⟩

theorem BegunBy.nanos_lt (h : now.BegunBy d (some t)) : t.nanos < limit := by
  obtain ⟨start, -, hsum⟩ := h
  obtain ⟨hlt, rfl⟩ := add?_eq_some_iff.mp hsum.symm
  exact hlt

theorem add?_eq_none_iff : now.add? d = none ↔ limit ≤ now.nanos + d.nanos := by
  simp [add?]

end Instant

/-- The length and the deadline of a wait that is limited. For the end of a close it is the
link that says how long. -/
def Call.term? (closeTimeout : Duration) : Call → Option (Duration × Option Instant)
  | .closing deadline? => some (closeTimeout, deadline?)
  | .settledBy _ limit deadline? => some (limit, deadline?)
  | .answered _ limit deadline? => some (limit, deadline?)
  | .dialling _ limit deadline => some (limit, some deadline)
  | .greeted _ limit deadline => some (limit, some deadline)
  | _ => none

namespace Link

variable {l : Link} {now : Instant} {c d : Call} {timeout length : Duration}
  {deadline? : Option Instant}

theorem term?_proceed {e : Errand} {a : Link × Registration}
    (hd : (proceed now e a).2 = .waiting d) (ht : d.term? timeout = some (length, deadline?)) :
    now.BegunBy length deadline? := by
  rcases waiting_proceed hd with ⟨w, -, rfl, -⟩ | ⟨g, p, limit, h, l', -, -, -, -, -, rfl⟩
  · cases ht
  · cases ht
    exact now.begunBy_add? _

theorem term?_establish {s : Setup} {limit : Duration} {deadline : Instant}
    (hd : (l.establish now s limit deadline).2 = .waiting d) :
    d.term? timeout = some (limit, some deadline) := by
  obtain ⟨h, l', -, rfl⟩ := waiting_establish hd
  rfl

theorem term?_poll (hd : (c.poll now l).2 = .waiting d)
    (ht : d.term? timeout = some (length, deadline?)) :
    c.term? timeout = some (length, deadline?) ∨ now.BegunBy length deadline? := by
  rcases waiting_poll hd with rfl | ⟨w, e, rfl, hd⟩ | ⟨s, limit, deadline, rfl, hd⟩
  · exact Or.inl ht
  · exact Or.inr (term?_proceed hd ht)
  · exact Or.inl ((term?_establish hd).symm.trans ht)

theorem term?_close (hd : (l.close now).2 = .waiting d)
    (ht : d.term? l.closeTimeout = some (length, deadline?)) : now.BegunBy length deadline? := by
  rcases (waiting_close hd).1 with rfl | rfl
  · cases ht
  · cases ht
    exact now.begunBy_add? _

end Link

namespace Scene

variable {s : Scene}

/-- Every limited wait has its deadline from its length and a start in the past. -/
def Timed (s : Scene) : Prop :=
  ∀ c ∈ s.calls, ∀ length deadline?, c.term? s.link.closeTimeout = some (length, deadline?) →
    s.now.BegunBy length deadline?

/-- A call that waits after an action has the deadline of one that has waited before, or has
begun to wait just now. -/
theorem term?_perform {a : Action} {c : Call} (hc : c ∈ (s.perform a).calls)
    {length : Duration} {deadline? : Option Instant}
    (ht : c.term? s.link.closeTimeout = some (length, deadline?)) :
    (∃ d ∈ s.calls, d.term? s.link.closeTimeout = some (length, deadline?)) ∨
      s.now.BegunBy length deadline? := by
  cases comesToWait hc with
  | waits hold => exact Or.inl ⟨c, hold, ht⟩
  | starts hd => exact Or.inr (Link.term?_proceed hd ht)
  | closes hd => exact Or.inr (Link.term?_close hd ht)
  | looks hlook hd =>
    rcases Link.term?_poll hd ht with hsame | hnow
    · cases a with
      | poll i => exact Or.inl ⟨_, List.mem_of_getElem? hlook, hsame⟩
      | waitFor h limit =>
        obtain rfl := Option.some.inj hlook
        cases hsame
        exact Or.inr (s.now.begunBy_add? _)
      | closed | drained | settled =>
        obtain rfl := Option.some.inj hlook
        cases hsame
      | _ => cases hlook
    · exact Or.inr hnow

theorem Timed.perform (h : s.Timed) (a : Action) : (s.perform a).Timed := by
  intro c hc length deadline? ht
  have htimeout : (s.perform a).link.closeTimeout = s.link.closeTimeout :=
    congrArg Prod.snd (s.making_onIncident (.act a))
  rw [htimeout] at ht
  have hbefore : s.now.BegunBy length deadline? := by
    rcases term?_perform hc ht with ⟨d, hd, hdt⟩ | hnow
    · exact h d hd length deadline? hdt
    · exact hnow
  exact hbefore.mono (s.now_le_onIncident (.act a))

theorem Timed.run (h : s.Timed) (acts : List Action) : (s.run acts).Timed :=
  List.foldlRecOn acts Scene.perform h fun _ ht a _ => ht.perform a

end Scene

namespace Plan

/-- A client that has begun to connect at this time, on its own. -/
def begun (now : Instant) (a : Link × Progress) : Scene :=
  Scene.join { link := a.1, now := now } a

theorem link_of_validate {p : Plan} {policy : Policy} (h : p.options.validate = .ok policy)
    (stream : Stream) :
    ∃ l, p.link policy stream = .ok l ∧ l.registry.gate.ceiling = p.options.limit ∧
      l.registry.gate.policy = policy ∧ l.closeTimeout = p.options.closeTimeout := by
  have hbounds : 1 ≤ p.options.limit ∧ p.options.limit ≤ Gate.maxCeiling := by
    unfold Options.validate at h
    split at h
    · cases h
    · split at h
      · cases h
      · omega
  simp [link, Registry.make, Gate.make, hbounds]

/-- Whatever a client that has begun to connect waits for, it waits until the time allowed for
connecting is over. -/
theorem term?_attempt {p : Plan} {now : Instant} {l : Link} {c : Call}
    (h : p.attempt now = .under l (.waiting c)) (timeout : Duration) :
    c.term? timeout =
      some (p.options.connectTimeout, now.add? p.options.connectTimeout) := by
  unfold attempt at h
  cases hvalid : p.validate with
  | error f => simp [hvalid] at h
  | ok policy =>
    cases hsum : now.add? p.options.connectTimeout with
    | none => simp [hvalid, hsum] at h
    | some deadline =>
      cases hfailure : p.endpoint.failure with
      | some f => simp [hvalid, hsum, hfailure] at h
      | none =>
        cases hlink : p.link policy {} with
        | error f => simp [hvalid, hsum, hfailure, hlink] at h
        | ok l' =>
          simp only [hvalid, hsum, hfailure, hlink] at h
          split at h
          · exact Link.term?_establish (Attempt.under.inj h).2
          · rw [← Progress.waiting.inj (Attempt.under.inj h).2]
            rfl

/-- A plan with valid options that asks for a time the clock can hold makes its link, and fails
only if no stream can be had. An open stream is greeted at once, a socket when it is
connected. -/
theorem attempt_of_inReach {p : Plan} {policy : Policy} {l : Link}
    (hvalid : p.validate = .ok policy) (hlink : p.link policy {} = .ok l) {now : Instant}
    (hreach : now.nanos + p.options.connectTimeout.nanos < Instant.limit) :
    let limit := p.options.connectTimeout
    let deadline : Instant := ⟨now.nanos + limit.nanos⟩
    p.attempt now =
      match p.endpoint.failure, p.endpoint with
      | some f, _ => .failed f
      | none, .stream =>
        let (l, progress) := l.establish now p.setup limit deadline
        .under l progress
      | none, _ => .under l (.waiting (.dialling p.setup limit deadline)) := by
  intro limit deadline
  have hsum : now.add? p.options.connectTimeout = some deadline := if_pos hreach
  simp only [attempt, hvalid, hsum, hlink]
  cases p.endpoint <;> rfl

/-- A plan with valid options never fails because of them: its gate is as the options say. It
is given up without an attempt if and only if its deadline is beyond what the clock can hold.
Otherwise it comes to the handshake, at once or when the socket is connected, and from then
on, whatever is done, the deadline of every limited wait is the sum of its start and its
length: one that the clock can hold, or none if there is no such. -/
theorem usable_unless_out_of_reach {p : Plan} {policy : Policy}
    (hvalid : p.options.validate = .ok policy) (hendpoint : p.endpoint.complaint = none)
    (now : Instant) :
    let limit := p.options.connectTimeout
    let deadline : Instant := ⟨now.nanos + limit.nanos⟩
    ∃ l, p.link policy {} = .ok l ∧ l.registry.gate.ceiling = p.options.limit ∧
      l.registry.gate.policy = policy ∧ l.closeTimeout = p.options.closeTimeout ∧
      (p.attempt now = .noDeadline ↔ Instant.limit ≤ deadline.nanos) ∧
      (deadline.nanos < Instant.limit → p.endpoint.failure = none →
        ∃ l' progress, p.attempt now = .under l' progress ∧
          ((l', progress) = l.establish now p.setup limit deadline ∨
            l' = l ∧ ∃ c, progress = .waiting c ∧
              ∀ later k, c.poll later k = k.establish later p.setup limit deadline)) ∧
      ∀ l progress, p.attempt now = .under l progress → ∀ acts,
        let s := (begun now (l, progress)).run acts
        ∀ c ∈ s.calls, ∀ length deadline?,
          c.term? s.link.closeTimeout = some (length, deadline?) →
            (∃ start : Instant, start.nanos ≤ s.now.nanos ∧ deadline? = start.add? length) ∧
              ∀ t, deadline? = some t → t.nanos < Instant.limit := by
  intro limit deadline
  obtain ⟨l, hlink, hceiling, hpolicy, hclose⟩ := link_of_validate hvalid {}
  have hplan : p.validate = .ok policy := by simp [validate, hvalid, hendpoint]
  refine ⟨l, hlink, hceiling, hpolicy, hclose, ?_, ?_, ?_⟩
  · constructor
    · intro hnone
      by_contra hreach
      rw [attempt_of_inReach hplan hlink (Nat.lt_of_not_le hreach)] at hnone
      split at hnone <;> cases hnone
    · intro hfar
      have hsum : now.add? p.options.connectTimeout = none := Instant.add?_eq_none_iff.mpr hfar
      simp only [attempt, hplan, hsum]
  · intro hreach hfailure
    rw [attempt_of_inReach hplan hlink hreach, hfailure]
    split
    · contradiction
    · exact ⟨_, _, rfl, Or.inl rfl⟩
    · exact ⟨_, _, rfl, Or.inr ⟨rfl, _, rfl, fun _ _ => rfl⟩⟩
  · intro l' progress hattempt acts s c hc length deadline? ht
    have hstart : (begun now (l', progress)).Timed := by
      intro c hc length deadline? ht
      rcases Scene.mem_join hc with hold | rfl
      · exact absurd hold List.not_mem_nil
      · cases ht.symm.trans (term?_attempt hattempt _)
        exact now.begunBy_add? _
    have hbegun : s.now.BegunBy length deadline? := hstart.run acts c hc length deadline? ht
    refine ⟨hbegun, ?_⟩
    rintro t rfl
    exact hbegun.nanos_lt

/-- Options that are valid, with any time for connecting but none. -/
def patient (connectTimeout : Duration) : Plan where
  options := { limit := 4, policy := some .reject, connectTimeout := connectTimeout }
  endpoint := .stream

theorem validate_patient {d : Duration} (hd : d.isZero = false) :
    (patient d).options.validate = .ok .reject := by
  have hresponse : (Duration.ofSeconds 30).isZero = false := by decide
  simp [patient, Options.validate, hd, hresponse, Gate.maxCeiling]

/-- Half a minute is in reach; the longest time there is is not, though it is valid. -/
theorem longest_connect_out_of_reach :
    (patient (Duration.ofSeconds 30)).attempt ⟨0⟩ ≠ .noDeadline ∧
      (patient Duration.longest).options.validate = .ok .reject ∧
      (patient Duration.longest).attempt ⟨0⟩ = .noDeadline := by
  have hshort := usable_unless_out_of_reach
    (validate_patient (d := Duration.ofSeconds 30) (by decide)) rfl ⟨0⟩
  have hlong := usable_unless_out_of_reach (validate_patient (d := Duration.longest) (by decide))
    rfl ⟨0⟩
  obtain ⟨-, -, -, -, -, hreach, -⟩ := hshort
  obtain ⟨-, -, -, -, -, hfar, -⟩ := hlong
  exact ⟨fun h => absurd (hreach.mp h) (by decide), by decide, hfar.mpr (by decide)⟩

end Plan

end Switchboard
