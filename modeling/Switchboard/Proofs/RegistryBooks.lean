import Switchboard.Proofs.IdLending
import Switchboard.Proofs.OpenTickets
import Switchboard.Proofs.RegistryRuns

/-!
The books of a registry, which no operation upsets: its gate, its pool of identifiers, its
ledger and its table tell the same story. `Sound` is the invariant. A request leaves the
table in the same way whether it is answered alone or drained with all others, so the
preservation lemma for both is `Sound.discharge`, in which the table stands for what is
yet to be drained. `Staged` says what the table can hold in each state of the lifecycle.
-/
namespace Switchboard.Registry

/-- The identifiers of the pending requests other than the handshake. -/
def ordinaryIds (r : Registry) : List RequestId :=
  (r.pending.map Handle.id).filter fun i => !i.isHandshake

/-- Gate, pool and ledger agree with the table. -/
structure Sound (r : Registry) : Prop where
  ceiling_le : r.gate.ceiling ≤ Gate.maxCeiling
  /-- A slot that is not in the gate belongs to an ordinary request. -/
  slots : r.gate.slots + r.ordinaryIds.length = r.gate.ceiling
  /-- The pool has lent the identifiers of the ordinary requests and no others. -/
  lends : ∃ peak ≤ r.gate.ceiling, r.ids.Lends r.ordinaryIds peak
  greeting : (r.pending.map Handle.id).count RequestId.handshake ≤ r.greeted.toNat
  tickets : (r.pending.map Handle.ticket).Nodup
  isOpen_iff : ∀ t, r.ledger.IsOpen t ↔ t ∈ r.pending.map Handle.ticket

theorem pending_drain (hs : List Handle) (o : Outcome) (r : Registry) :
    (hs.foldl (discharge o) r).pending = r.pending := by
  induction hs generalizing r with
  | nil => rfl
  | cons h hs ih => exact ih _

@[simp] theorem lifecycle_drain (hs : List Handle) (o : Outcome) (r : Registry) :
    (hs.foldl (discharge o) r).lifecycle = r.lifecycle := by
  induction hs generalizing r with
  | nil => rfl
  | cons h hs ih => exact ih _

@[simp] theorem lifecycle_shutDown (r : Registry) (f : Failure) :
    (r.shutDown f).lifecycle = .closed := rfl

/-- What the table can hold in each state of the lifecycle. -/
structure Staged (r : Registry) : Prop where
  connecting : r.lifecycle = .connecting → ∀ h ∈ r.pending, h.id = RequestId.handshake
  closed : r.lifecycle = .closed → r.pending = []

namespace Sound

variable {r : Registry}

theorem card_lt (hr : Sound r) : r.ordinaryIds.length < UInt32.size - 2 := by
  have hs := hr.slots
  have hc := hr.ceiling_le
  have hmax : Gate.maxCeiling < UInt32.size - 2 := by decide
  omega

theorem isOpen (hr : Sound r) {h : Handle} (hh : h ∈ r.pending) : r.ledger.IsOpen h.ticket :=
  (hr.isOpen_iff h.ticket).mpr (List.mem_map_of_mem hh)

theorem outcome?_eq_none (hr : Sound r) {h : Handle} (hh : h ∈ r.pending) :
    r.ledger.outcome? h.ticket = none :=
  (hr.isOpen hh).outcome?

theorem nodup_ordinaryIds (hr : Sound r) : r.ordinaryIds.Nodup := by
  obtain ⟨peak, -, hlends⟩ := hr.lends
  exact Multiset.coe_nodup.mp (Multiset.nodup_add.mp hlends.nodup).1

theorem nodup_ids (hr : Sound r) : (r.pending.map Handle.id).Nodup := by
  rw [List.nodup_iff_count_le_one]
  intro i
  by_cases hi : i = RequestId.handshake
  · subst hi
    exact hr.greeting.trans (Bool.toNat_le _)
  · have hcount := List.nodup_iff_count_le_one.mp hr.nodup_ordinaryIds i
    have hkeep : (!i.isHandshake) = true := by simp [RequestId.isHandshake, hi]
    rwa [ordinaryIds, List.count_filter (p := fun j : RequestId => !j.isHandshake) hkeep] at hcount

/-- The requests of the table are told apart by their identifiers. -/
theorem eq_of_id (hr : Sound r) {h g : Handle} (hh : h ∈ r.pending) (hg : g ∈ r.pending)
    (hid : g.id = h.id) : g = h :=
  List.inj_on_of_nodup_map hr.nodup_ids hg hh hid

theorem find?_id (hr : Sound r) {h : Handle} (hh : h ∈ r.pending) :
    (r.pending.find? fun g => g.id = h.id) = some h := by
  cases hfind : r.pending.find? fun g => g.id = h.id with
  | none => simpa using List.find?_eq_none.mp hfind h hh
  | some g =>
    have hg : g ∈ r.pending := List.mem_of_find?_eq_some hfind
    have hid : g.id = h.id := by simpa using List.find?_some hfind
    rw [hr.eq_of_id hh hg hid]

theorem perm {hs : List Handle} (hr : Sound r) (hp : r.pending.Perm hs) :
    Sound { r with pending := hs } := by
  have hids : (r.pending.map Handle.id).Perm (hs.map Handle.id) := hp.map _
  have hordinary : r.ordinaryIds.Perm (ordinaryIds { r with pending := hs }) :=
    hids.filter _
  have htickets := hp.map Handle.ticket
  obtain ⟨peak, hpeak, hlends⟩ := hr.lends
  refine ⟨hr.ceiling_le, ?_, ⟨peak, hpeak, ?_⟩, ?_, ?_, ?_⟩
  · rw [← hordinary.length_eq]
    exact hr.slots
  · rw [← Multiset.coe_eq_coe.mpr hordinary]
    exact hlends
  · rw [← hids.count_eq]
    exact hr.greeting
  · exact htickets.nodup_iff.mp hr.tickets
  · intro t
    rw [← htickets.mem_iff]
    exact hr.isOpen_iff t

theorem discharge {h : Handle} {hs : List Handle} {o : Outcome}
    (hr : Sound { r with pending := h :: hs }) :
    Sound { Registry.discharge o r h with pending := hs } := by
  obtain ⟨peak, hpeak, hlends⟩ := hr.lends
  have hslots := hr.slots
  have hgreeting := hr.greeting
  have hticket : h.ticket ∉ hs.map Handle.ticket :=
    (List.nodup_cons.mp hr.tickets).1
  have hopen : ∀ t, (Registry.discharge o r h).ledger.IsOpen t ↔ t ∈ hs.map Handle.ticket := by
    intro t
    rw [ledger_discharge, Ledger.isOpen_settle, hr.isOpen_iff t]
    simp only [List.map_cons, List.mem_cons]
    constructor
    · rintro ⟨heq | hmem, hne⟩
      · exact absurd heq hne
      · exact hmem
    · intro hmem
      exact ⟨Or.inr hmem, fun heq => hticket (heq ▸ hmem)⟩
  simp only [List.map_cons, List.count_cons] at hgreeting
  have hcount : (hs.map Handle.id).count RequestId.handshake ≤ r.greeted.toNat := by
    omega
  cases hid : h.id.isHandshake with
  | true =>
    -- the handshake holds neither a slot nor an identifier of the pool
    have hordinary : ordinaryIds { r with pending := h :: hs } =
        ordinaryIds { r with pending := hs } := by simp [ordinaryIds, hid]
    rw [hordinary] at hslots hlends
    have hrelease : r.ids.release h.id = r.ids := by simp [IdPool.release, hid]
    refine ⟨?_, ?_, ⟨peak, ?_, ?_⟩, hcount, (List.nodup_cons.mp hr.tickets).2, hopen⟩
    · simpa [Registry.discharge_eq, hid] using hr.ceiling_le
    · simpa [Registry.discharge_eq, hid, ordinaryIds] using hslots
    · simpa [Registry.discharge_eq, hid] using hpeak
    · simpa [Registry.discharge_eq, hrelease, ordinaryIds] using hlends
  | false =>
    have hordinary : ordinaryIds { r with pending := h :: hs } =
        h.id :: ordinaryIds { r with pending := hs } := by simp [ordinaryIds, hid]
    rw [hordinary] at hslots hlends
    have hout : ((h.id :: ordinaryIds { r with pending := hs } : List RequestId) :
        Multiset RequestId).erase h.id = ordinaryIds { r with pending := hs } := by
      rw [Multiset.coe_erase, List.erase_cons_head]
    refine ⟨?_, ?_, ⟨peak, ?_, ?_⟩, hcount, (List.nodup_cons.mp hr.tickets).2, hopen⟩
    · simpa [Registry.discharge_eq, hid] using hr.ceiling_le
    · simp only [List.length_cons] at hslots
      simp only [Registry.discharge_eq, hid, Bool.false_eq_true, if_false, Gate.slots_after_leave,
        Gate.ceiling_leave]
      rw [← hslots, Nat.add_right_comm]
      rfl
    · simpa [Registry.discharge_eq, hid] using hpeak
    · have hmem : h.id ∈ ((h.id :: ordinaryIds { r with pending := hs } : List RequestId) :
          Multiset RequestId) := Multiset.mem_coe.mpr List.mem_cons_self
      have hrelease := hlends.release hmem
      rw [hout] at hrelease
      exact hrelease

theorem strike {h : Handle} (hr : Sound r) (hh : h ∈ r.pending) (o : Outcome) :
    Sound (r.strike h o) :=
  (hr.perm (List.perm_cons_erase hh)).discharge

theorem file (hr : Sound r) (id : RequestId) :
    ((r.file id).pending.map Handle.ticket).Nodup ∧
      ∀ t, (r.file id).ledger.IsOpen t ↔ t ∈ (r.file id).pending.map Handle.ticket := by
  simp only [Registry.file, nextHandle, List.map_append, List.map_cons, List.map_nil]
  constructor
  · rw [List.nodup_append]
    refine ⟨hr.tickets, List.nodup_singleton _, ?_⟩
    intro t ht u hu htu
    rw [List.mem_singleton.mp hu] at htu
    rw [htu] at ht
    exact r.ledger.issue_not_isOpen ((hr.isOpen_iff _).mpr ht)
  · intro t
    rw [Ledger.isOpen_issue, hr.isOpen_iff t, List.mem_append, List.mem_singleton, or_comm]

theorem ordinaryIds_file {id : RequestId} (hid : id ≠ RequestId.handshake) :
    (r.file id).ordinaryIds = r.ordinaryIds ++ [id] := by
  simp [ordinaryIds, Registry.file, nextHandle, RequestId.isHandshake, hid]

theorem fileNext {g : Gate} (hr : Sound r) (hg : r.gate.Takes 1 g) :
    Sound (Registry.fileNext { r with gate := g }) := by
  obtain ⟨peak, hpeak, hlends⟩ := hr.lends
  have hslots := hr.slots
  have htaken := hg.slots
  have hlen := hr.card_lt
  have hcard : Multiset.card (r.ordinaryIds : Multiset RequestId) < UInt32.size - 1 := by
    rw [Multiset.coe_card]
    omega
  have hne := hlends.acquire_ne_handshake hcard
  have hordinary : ordinaryIds (Registry.fileNext { r with gate := g }) =
      r.ordinaryIds ++ [r.ids.acquire.1] := ordinaryIds_file (r := r) hne
  have hmultiset : ((r.ordinaryIds ++ [r.ids.acquire.1] : List RequestId) :
      Multiset RequestId) = r.ids.acquire.1 ::ₘ r.ordinaryIds :=
    Multiset.coe_eq_coe.mpr (List.perm_append_singleton _ _)
  obtain ⟨htickets, hopen⟩ := hr.file r.ids.acquire.1
  refine ⟨?_, ?_, ⟨max peak (r.ordinaryIds.length + 1), ?_, ?_⟩, ?_, htickets, hopen⟩
  · exact hg.ceiling.trans_le hr.ceiling_le
  · rw [hordinary, List.length_append, List.length_singleton]
    change g.slots + (r.ordinaryIds.length + 1) = g.ceiling
    rw [hg.ceiling]
    omega
  · change max peak (r.ordinaryIds.length + 1) ≤ g.ceiling
    rw [hg.ceiling]
    omega
  · rw [hordinary, hmultiset]
    exact hlends.acquire hcard
  · change ((r.pending ++ [_]).map Handle.id).count RequestId.handshake ≤ r.greeted.toNat
    simpa [nextHandle, hne] using hr.greeting

theorem greets (hr : Sound r) (hg : r.greeted = false) :
    Sound { r.file RequestId.handshake with greeted := true } := by
  have hordinary : ordinaryIds { r.file RequestId.handshake with greeted := true } =
      r.ordinaryIds := by
    simp [ordinaryIds, Registry.file, nextHandle, RequestId.isHandshake]
  obtain ⟨htickets, hopen⟩ := hr.file RequestId.handshake
  refine ⟨hr.ceiling_le, ?_, ?_, ?_, htickets, hopen⟩
  · rw [hordinary]
    exact hr.slots
  · rw [hordinary]
    exact hr.lends
  · have hgreeting := hr.greeting
    rw [hg] at hgreeting
    simpa [Registry.file, nextHandle] using hgreeting

/-- Who waits at the gate makes no difference, and neither does the lifecycle. -/
theorem of_eq {s : Registry} (hr : Sound r) (hc : s.gate.ceiling = r.gate.ceiling)
    (hs : s.gate.slots = r.gate.slots) (hi : s.ids = r.ids) (hp : s.pending = r.pending)
    (hg : s.greeted = r.greeted) (hl : s.ledger = r.ledger) : Sound s := by
  have hordinary : s.ordinaryIds = r.ordinaryIds := by rw [ordinaryIds, ordinaryIds, hp]
  refine ⟨?_, ?_, ?_, ?_, ?_, ?_⟩
  · rw [hc]
    exact hr.ceiling_le
  · rw [hs, hordinary, hc]
    exact hr.slots
  · rw [hc, hi, hordinary]
    exact hr.lends
  · rw [hp, hg]
    exact hr.greeting
  · rw [hp]
    exact hr.tickets
  · rw [hl, hp]
    exact hr.isOpen_iff

theorem drain {hs : List Handle} {o : Outcome} (hr : Sound { r with pending := hs })
    (hp : r.pending = []) : Sound (hs.foldl (Registry.discharge o) r) := by
  induction hs generalizing r with
  | nil => exact hr.of_eq rfl rfl rfl hp rfl rfl
  | cons h hs ih => exact ih hr.discharge hp

theorem fails {f : Failure} (hr : Sound r) :
    Sound (r.pending.foldl (Registry.discharge (.error f)) (r.shutDown f)) := by
  have hshut : Sound { r.shutDown f with pending := r.pending } :=
    hr.of_eq rfl rfl rfl rfl rfl rfl
  exact hshut.drain rfl

end Sound

/-- No change upsets the books. -/
theorem Change.sound {r s : Registry} {op : Op} {granted : Option Handle}
    (hc : Change r op s granted) (hr : Sound r) : Sound s := by
  cases hc with
  | waits _ hg => exact hr.of_eq hg.ceiling hg.slots rfl rfl rfl rfl
  | enters _ _ hg => exact hr.fileNext hg
  | stays _ => exact hr
  | greets _ hg => exact hr.greets hg
  | notes _ => exact hr.of_eq rfl rfl rfl rfl rfl rfl
  | strikes hh => exact hr.strike hh _
  | opens _ => exact hr.of_eq rfl rfl rfl rfl rfl rfl
  | closes _ => exact hr.of_eq rfl rfl rfl rfl rfl rfl
  | fails _ => exact hr.fails
  | failsLate _ => exact hr

theorem eq_of_make {ceiling : Nat} {policy : Policy} {r : Registry}
    (h : make ceiling policy = .ok r) :
    ∃ g, Gate.make ceiling policy = .ok g ∧ r = { gate := g } := by
  unfold make at h
  cases hg : Gate.make ceiling policy with
  | error f => simp [hg] at h
  | ok g =>
    simp only [hg, Except.ok.injEq] at h
    exact ⟨g, rfl, h.symm⟩

theorem sound_of_make {ceiling : Nat} {policy : Policy} {r : Registry}
    (h : make ceiling policy = .ok r) : Sound r := by
  obtain ⟨g, hg, rfl⟩ := eq_of_make h
  obtain ⟨hceiling, hslots, -, hle⟩ := Gate.slots_of_make hg
  refine ⟨?_, ?_, ⟨0, Nat.zero_le _, IdPool.Lends.start⟩, Nat.zero_le _, List.nodup_nil, ?_⟩
  · exact hceiling.trans_le hle
  · exact hslots.trans hceiling.symm
  · intro t
    simp [Ledger.IsOpen]

theorem Change.staged {r s : Registry} {op : Op} {granted : Option Handle}
    (hc : Change r op s granted) (hr : Staged r) : Staged s := by
  cases hc with
  | waits _ _ => exact ⟨hr.connecting, hr.closed⟩
  | enters _ hready _ =>
    constructor
    · intro h
      exact absurd (hready.symm.trans h) (by decide)
    · intro h
      exact absurd (hready.symm.trans h) (by decide)
  | stays _ => exact hr
  | greets hconnecting _ =>
    constructor
    · intro _ h hh
      rcases List.mem_append.mp hh with hold | hnew
      · exact hr.connecting hconnecting h hold
      · rw [List.mem_singleton.mp hnew]
        rfl
    · intro h
      exact absurd (hconnecting.symm.trans h) (by decide)
  | notes _ => exact ⟨hr.connecting, hr.closed⟩
  | strikes hh =>
    constructor
    · intro h g hg
      exact hr.connecting h g (List.mem_of_mem_erase hg)
    · intro h
      simp [hr.closed h] at hh
  | opens _ => exact ⟨nofun, nofun⟩
  | closes _ => exact ⟨nofun, nofun⟩
  | fails _ =>
    refine ⟨fun h => ?_, fun _ => pending_drain _ _ _⟩
    rw [lifecycle_drain, lifecycle_shutDown] at h
    cases h
  | failsLate _ => exact hr

theorem settle_of_mem {r : Registry} (hr : Sound r) {g : Handle} (hg : g ∈ r.pending)
    (o : Outcome) : (r.settle g.id o).1 = r.strike g o := by
  simp [settle, hr.find?_id hg, strike]

theorem Change.mem_pending {r s : Registry} {op : Op} {granted : Option Handle} {h : Handle}
    (hc : Change r op s granted) (hh : h ∈ s.pending) :
    h ∈ r.pending ∨ granted = some h := by
  cases hc with
  | enters _ _ _ =>
    rcases List.mem_append.mp hh with hold | hnew
    · exact Or.inl hold
    · exact Or.inr (congrArg some (List.mem_singleton.mp hnew).symm)
  | greets _ _ =>
    rcases List.mem_append.mp hh with hold | hnew
    · exact Or.inl hold
    · exact Or.inr (congrArg some (List.mem_singleton.mp hnew).symm)
  | strikes _ => exact Or.inl (List.mem_of_mem_erase hh)
  | fails _ =>
    rw [pending_drain] at hh
    exact absurd hh List.not_mem_nil
  | waits _ _ => exact Or.inl hh
  | stays _ => exact Or.inl hh
  | notes _ => exact Or.inl hh
  | opens _ => exact Or.inl hh
  | closes _ => exact Or.inl hh
  | failsLate _ => exact Or.inl hh

theorem Change.serial_of_granted {r s : Registry} {op : Op} {h : Handle}
    (hc : Change r op s (some h)) : h.ticket.serial = r.ledger.outcomes.size := by
  cases hc with
  | enters _ _ _ => rfl
  | greets _ _ => rfl

@[simp] theorem size_drain (hs : List Handle) (o : Outcome) (r : Registry) :
    (hs.foldl (discharge o) r).ledger.outcomes.size = r.ledger.outcomes.size := by
  induction hs generalizing r with
  | nil => rfl
  | cons h hs ih =>
    rw [List.foldl_cons, ih, ledger_discharge]
    exact Ledger.size_settle _ _ _

theorem Change.size_le {r s : Registry} {op : Op} {granted : Option Handle}
    (hc : Change r op s granted) : r.ledger.outcomes.size ≤ s.ledger.outcomes.size := by
  cases hc with
  | enters _ _ _ => simp [fileNext, file, Ledger.issue]
  | greets _ _ => simp [file, Ledger.issue]
  | strikes _ => simp [strike, Registry.discharge_eq]
  | fails _ => simp [shutDown, moveTo]
  | waits _ _ => exact Nat.le_refl _
  | stays _ => exact Nat.le_refl _
  | notes _ => exact Nat.le_refl _
  | opens _ => exact Nat.le_refl _
  | closes _ => exact Nat.le_refl _
  | failsLate _ => exact Nat.le_refl _

theorem size_le_run (r : Registry) (ops : List Op) :
    r.ledger.outcomes.size ≤ (r.run ops).ledger.outcomes.size :=
  run_induction (P := fun s => r.ledger.outcomes.size ≤ s.ledger.outcomes.size) (Nat.le_refl _)
    (fun s op hs => hs.trans (change_of_act s op).size_le) ops

/-- A pending request has been pending all along, or was registered under a later ticket. -/
theorem mem_or_later_of_run {r : Registry} {ops : List Op} {h : Handle}
    (hh : h ∈ (r.run ops).pending) :
    h ∈ r.pending ∨ r.ledger.outcomes.size ≤ h.ticket.serial := by
  induction ops generalizing r with
  | nil => exact Or.inl hh
  | cons op ops ih =>
    have hc := change_of_act r op
    rcases ih hh with hafter | hlater
    · rcases hc.mem_pending hafter with hold | hnew
      · exact Or.inl hold
      · rw [hnew] at hc
        exact Or.inr hc.serial_of_granted.ge
    · exact Or.inr (hc.size_le.trans hlater)

theorem staged_of_make {ceiling : Nat} {policy : Policy} {r : Registry}
    (h : make ceiling policy = .ok r) : Staged r := by
  obtain ⟨g, -, rfl⟩ := eq_of_make h
  exact ⟨fun _ => nofun, fun _ => rfl⟩

theorem ceiling_of_make {ceiling : Nat} {policy : Policy} {r : Registry}
    (h : make ceiling policy = .ok r) : r.gate.ceiling = ceiling ∧ r.pending = [] := by
  obtain ⟨g, hg, rfl⟩ := eq_of_make h
  exact ⟨(Gate.slots_of_make hg).1, rfl⟩

theorem sound_run {r : Registry} (hr : Sound r) (ops : List Op) : Sound (r.run ops) :=
  run_induction hr (fun s op hs => (change_of_act s op).sound hs) ops

theorem staged_run {r : Registry} (hr : Staged r) (ops : List Op) : Staged (r.run ops) :=
  run_induction hr (fun s op hs => (change_of_act s op).staged hs) ops

@[simp] theorem ceiling_discharge (o : Outcome) (r : Registry) (h : Handle) :
    (discharge o r h).gate.ceiling = r.gate.ceiling := by
  rw [discharge_eq]
  split <;> simp

@[simp] theorem ceiling_drain (hs : List Handle) (o : Outcome) (r : Registry) :
    (hs.foldl (discharge o) r).gate.ceiling = r.gate.ceiling := by
  induction hs generalizing r with
  | nil => rfl
  | cons h hs ih => exact (ih _).trans (ceiling_discharge o r h)

theorem Change.ceiling {r s : Registry} {op : Op} {granted : Option Handle}
    (hc : Change r op s granted) : s.gate.ceiling = r.gate.ceiling := by
  cases hc with
  | waits _ hg => exact hg.ceiling
  | enters _ _ hg => exact hg.ceiling
  | strikes _ => exact ceiling_discharge _ _ _
  | fails _ => exact ceiling_drain _ _ _
  | stays _ => rfl
  | greets _ _ => rfl
  | notes _ => rfl
  | opens _ => rfl
  | closes _ => rfl
  | failsLate _ => rfl

theorem ceiling_run (r : Registry) (ops : List Op) :
    (r.run ops).gate.ceiling = r.gate.ceiling := by
  refine run_induction (P := fun s => s.gate.ceiling = r.gate.ceiling) rfl ?_ ops
  intro s op hs
  exact (change_of_act s op).ceiling.trans hs

end Switchboard.Registry
