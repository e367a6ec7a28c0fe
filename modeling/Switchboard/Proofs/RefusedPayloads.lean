import Switchboard.Proofs.ClientDeeds
import Switchboard.Proofs.FairAdmission
import Switchboard.Proofs.SlotAccounts

/-!
Payloads that the codec refuses. When the codec is asked, the request already stands in the
table, has its identifier and holds its slot. A refusal takes all of this back: the link is
what it would be without the registration, but for a ticket that nobody has and the order in
which identifiers are issued. The slot goes to the first of those who wait without one, and
the identifier is the next one to be issued.
-/
namespace Switchboard

namespace Gate

/-- The line stands in the order of arrival. -/
structure InTurn (g : Gate) : Prop where
  orderly : g.Orderly
  sorted : g.line.Pairwise fun u v => u.serial < v.serial

variable {g g' : Gate}

namespace InTurn

theorem of_sublist (h : g.InTurn) (ho : g'.Orderly) (hsub : g'.line.Sublist g.line) :
    g'.InTurn :=
  ⟨ho, h.sorted.sublist hsub⟩

theorem leave (h : g.InTurn) : g.leave.InTurn := by
  refine h.of_sublist h.orderly.leave ?_
  cases hline : g.line with
  | nil =>
    rw [leave_of_line_nil hline, hline]
  | cons w rest =>
    rw [leave_of_line_cons hline]
    exact List.sublist_cons_self w rest

theorem joinLine (h : g.InTurn) : g.joinLine.1.InTurn := by
  refine ⟨h.orderly.joinLine, ?_⟩
  refine List.pairwise_append.mpr ⟨h.sorted, List.pairwise_singleton _ _, ?_⟩
  intro u hu v hv
  rw [List.mem_singleton.mp hv]
  exact h.orderly.serial_lt u (List.mem_append_left _ hu)

end InTurn

theorem invariant_inTurn : Invariant InTurn where
  take h hfree := h.of_sublist (invariant_orderly.take h.orderly hfree) (List.Sublist.refl _)
  joinLine h _ _ := h.joinLine
  leave h := h.leave
  eraseLine w h := h.of_sublist (invariant_orderly.eraseLine w h.orderly) List.erase_sublist
  eraseHanded w h :=
    h.of_sublist (invariant_orderly.eraseHanded w h.orderly) (List.Sublist.refl _)
  shutDown h := h.of_sublist (invariant_orderly.shutDown h.orderly) (List.nil_sublist _)

theorem Passes.inTurn (hp : g.Passes g') (h : g.InTurn) : g'.InTurn :=
  invariant_inTurn.passes hp h

theorem inTurn_of_make {ceiling : Nat} {policy : Policy} (h : make ceiling policy = .ok g) :
    g.InTurn := by
  refine ⟨orderly_of_make h, ?_⟩
  rw [line_of_make h]
  exact List.Pairwise.nil

/-- A caller has come to hold a slot of the gate, of which it had been handed `slots`. -/
structure Seizes (slots : Nat) (g g' : Gate) : Prop where
  takes : g.Takes 1 g'
  line : g'.line = g.line
  inflight : g'.inflight + slots = g.inflight + 1
  /-- Whoever comes without a slot finds nobody in line. -/
  nobody : slots = 0 → g.line = []

theorem Conserving.seizes (h : g.Conserving) (hroom : g.free ≤ g.ceiling)
    (hg : g.tryEnter = .ok g') : Seizes 0 g g' where
  takes := takes_tryEnter hg
  line := by
    rw [(eq_of_tryEnter hg).2]
  inflight := by
    obtain ⟨hfree, rfl⟩ := eq_of_tryEnter hg
    simp only [Gate.inflight]
    omega
  nobody _ := by
    by_contra hne
    exact (eq_of_tryEnter hg).1 (h.free hne)

theorem Conserving.leave_of_tryEnter (h : g.Conserving) (hg : g.tryEnter = .ok g') :
    g'.leave = g := by
  obtain ⟨hfree, rfl⟩ := eq_of_tryEnter hg
  have hline : g.line = [] := by
    by_contra hne
    exact hfree (h.free hne)
  have hback : g.free - 1 + 1 = g.free := Nat.sub_add_cancel (Nat.pos_of_ne_zero hfree)
  rw [leave_of_line_nil (g := { g with free := g.free - 1 }) hline]
  simp only [hback]

/-- The gate when a waiter has come for the slot that it was handed. -/
def claimed (g : Gate) (w : Waiter) : Gate := { g with handed := g.handed.erase w }

theorem seizes_claimed {w : Waiter} (hw : w ∈ g.handed) : Seizes 1 g (g.claimed w) :=
  ⟨⟨rfl, rfl, rfl, slots_erase_handed hw⟩, rfl, rfl, nofun⟩

/-- What giving the slot back does to those in line and to what is in flight. -/
theorem Seizes.leave {slots : Nat} (h : Seizes slots g g') (hroom : g'.free < g'.ceiling) :
    (g.line = [] → g'.leave.inflight + slots = g.inflight) ∧
      ∀ u rest, g.line = u :: rest →
        u ∈ g'.leave.handed ∧ g'.leave.line = rest ∧
          slots + g'.leave.inflight = 1 + g.inflight := by
  have hinflight := inflight_leave hroom
  have hbefore := h.inflight
  rw [h.line] at hinflight
  constructor
  · intro hline
    rw [if_pos hline] at hinflight
    omega
  · intro u rest hline
    rw [if_neg (by rw [hline]; exact List.cons_ne_nil u rest)] at hinflight
    have hleave := leave_of_line_cons (h.line.trans hline)
    refine ⟨?_, ?_, by omega⟩
    · rw [hleave]
      exact List.mem_append_right _ (List.mem_singleton_self u)
    · rw [hleave]

theorem tryEnter_of_enter {a : Admission} (hg : g.enter = (g', a)) (ha : a = .admitted) :
    g.tryEnter = .ok g' := by
  subst ha
  rcases g.enter_cases with ⟨g'', htry, henter⟩ | ⟨-, -, -, henter⟩ | ⟨f, -, henter⟩
  · obtain rfl : g' = g'' := congrArg Prod.fst (hg.symm.trans henter)
    exact htry
  · cases hg.symm.trans henter
  · cases hg.symm.trans henter

end Gate

/-- A look of a caller who submits: the first one, or another one from its place in line. -/
inductive Attempt where
  | start (e : Errand)
  | trySubmit (p : Payload)
  | resume (w : Waiter) (e : Errand)

namespace Attempt

def payload? : Attempt → Option Payload
  | start e => e.payload?
  | trySubmit p => some p
  | resume _ e => e.payload?

/-- How the attempt asks for a slot. -/
def op : Attempt → Registry.Op
  | start _ => .register
  | trySubmit _ => .tryRegister
  | resume w _ => .resume w

/-- The slots that the caller had been handed when it came. -/
def slots : Attempt → Nat
  | resume _ _ => 1
  | _ => 0

/-- The registry without the caller, who gives up its place if it has one. -/
def without (r : Registry) : Attempt → Registry
  | resume w _ => r.abandon w
  | _ => r

/-- What becomes of the link, and of the call. -/
def make (now : Instant) (l : Link) : Attempt → Link × Progress
  | start e => l.start now e
  | trySubmit p => ((l.trySubmit p).1, Link.sent .submitted (l.trySubmit p).2)
  | resume w e => (Call.inLine w e).poll now l

end Attempt

namespace Registry

/-- The operation issues no identifier, and takes no request off the table that has one to
give back. -/
def LeavesIds (r : Registry) (op : Op) : Prop :=
  r.grants op = none ∧ ∀ g ∈ r.ordinary, g ∈ (r.after op).pending

variable {r s : Registry}

/-- Whoever is granted a handle right after taking a slot enters the table. -/
theorem exists_gate_of_onAdmission {a : Gate × Admission} {h : Handle}
    (hgrant : (r.onAdmission a).2 = .granted h) :
    a.2 = .admitted ∧ r.lifecycle = .ready ∧ h = r.nextHandle r.ids.acquire.1 ∧
      (r.onAdmission a).1 = fileNext { r with gate := a.1 } := by
  obtain ⟨g, a⟩ := a
  cases a with
  | waiting w => cases hgrant
  | refused f => cases hgrant
  | admitted =>
    cases hrej : r.rejection with
    | some f =>
      simp only [onAdmission, enroll_of_rejection (r := { r with gate := g }) hrej] at hgrant
      cases hgrant
    | none =>
      have hready : r.lifecycle = .ready := (rejection_eq_none_iff r).mp hrej
      have henroll := enroll_of_ready (r := { r with gate := g }) hready
      simp only [onAdmission, henroll, Registration.ofExcept, Registration.granted.injEq] at hgrant
      refine ⟨rfl, hready, hgrant.symm, ?_⟩
      simp only [onAdmission, henroll]

theorem register_of_granted {h : Handle} (hgrant : r.register.2 = .granted h) :
    ∃ g, r.gate.tryEnter = .ok g ∧ r.lifecycle = .ready ∧
      h = r.nextHandle r.ids.acquire.1 ∧ r.register.1 = fileNext { r with gate := g } := by
  unfold register at hgrant ⊢
  cases hrej : r.rejection with
  | some f => simp [hrej] at hgrant
  | none =>
    rw [hrej] at hgrant
    obtain ⟨hadmitted, hready, hh, hafter⟩ := exists_gate_of_onAdmission hgrant
    exact ⟨_, Gate.tryEnter_of_enter rfl hadmitted, hready, hh, hafter⟩

theorem tryRegister_of_granted {h : Handle} (hgrant : r.tryRegister.2 = .ok h) :
    ∃ g, r.gate.tryEnter = .ok g ∧ r.lifecycle = .ready ∧
      h = r.nextHandle r.ids.acquire.1 ∧ r.tryRegister.1 = fileNext { r with gate := g } := by
  unfold tryRegister at hgrant ⊢
  cases hrej : r.rejection with
  | some f => simp [hrej] at hgrant
  | none =>
    have hready : r.lifecycle = .ready := (rejection_eq_none_iff r).mp hrej
    cases htry : r.gate.tryEnter with
    | error f => simp [hrej, htry] at hgrant
    | ok g =>
      have henroll := enroll_of_ready (r := { r with gate := g }) hready
      simp only [hrej, htry, henroll, Except.ok.injEq] at hgrant
      exact ⟨g, rfl, hready, hgrant.symm, by simp only [henroll]⟩

theorem resume_of_granted {w : Waiter} {h : Handle} (hgrant : (r.resume w).2 = .granted h) :
    w ∈ r.gate.handed ∧ r.lifecycle = .ready ∧ h = r.nextHandle r.ids.acquire.1 ∧
      (r.resume w).1 = fileNext { r with gate := r.gate.claimed w } := by
  obtain ⟨hadmitted, hready, hh, hafter⟩ := exists_gate_of_onAdmission hgrant
  unfold resume
  rw [hafter]
  unfold Gate.claim at hadmitted ⊢
  by_cases hshut : r.gate.shut
  · rw [if_pos hshut] at hadmitted
    cases hadmitted
  · rw [if_neg hshut] at hadmitted ⊢
    by_cases hw : w ∈ r.gate.handed
    · rw [if_pos hw]
      exact ⟨hw, hready, hh, rfl⟩
    · rw [if_neg hw] at hadmitted
      cases hadmitted

theorem Sound.free_le (hr : Sound r) : r.gate.free ≤ r.gate.ceiling := by
  have hslots := hr.slots
  simp only [Gate.slots] at hslots
  omega

/-- A caller that is admitted holds a slot, and would leave the gate as it were without the
caller by giving it back. -/
theorem exists_gate_of_grants (hr : Sound r) (hc : r.gate.Conserving) {a : Attempt}
    {h : Handle} (hgrant : r.grants a.op = some h) :
    ∃ g, r.gate.Seizes a.slots g ∧ r.lifecycle = .ready ∧
      h = r.nextHandle r.ids.acquire.1 ∧ r.after a.op = fileNext { r with gate := g } ∧
      a.without r = { r with gate := g.leave } := by
  cases a with
  | start e =>
    have hgranted : r.register.2 = .granted h := by
      cases hr : r.register.2 <;> simp_all [grants, act, Attempt.op, Registration.handle?]
    obtain ⟨g, hg, hready, hh, hafter⟩ := register_of_granted hgranted
    have hleave := hc.leave_of_tryEnter hg
    exact ⟨g, hc.seizes hr.free_le hg, hready, hh, hafter, by rw [hleave]; rfl⟩
  | trySubmit p =>
    have hgranted : r.tryRegister.2 = .ok h := by
      cases hr : r.tryRegister.2 <;> simp_all [grants, act, Attempt.op, Except.toOption]
    obtain ⟨g, hg, hready, hh, hafter⟩ := tryRegister_of_granted hgranted
    have hleave := hc.leave_of_tryEnter hg
    exact ⟨g, hc.seizes hr.free_le hg, hready, hh, hafter, by rw [hleave]; rfl⟩
  | resume w e =>
    have hgranted : (r.resume w).2 = .granted h := by
      cases hr : (r.resume w).2 <;> simp_all [grants, act, Attempt.op, Registration.handle?]
    obtain ⟨hw, hready, hh, hafter⟩ := resume_of_granted hgranted
    have hwithdraw : r.gate.withdraw w = (r.gate.claimed w).leave := if_pos hw
    refine ⟨r.gate.claimed w, Gate.seizes_claimed hw, hready, hh, hafter, ?_⟩
    rw [← hwithdraw]
    rfl

theorem Sound.acquire_ne_handshake (hr : Sound r) :
    r.ids.acquire.1 ≠ RequestId.handshake := by
  obtain ⟨peak, -, hlends⟩ := hr.lends
  have hcard := hr.card_lt
  refine hlends.acquire_ne_handshake ?_
  rw [Multiset.coe_card]
  omega

/-- A request that has just entered the table leaves it again: its slot, its identifier and
its ticket are all that it has touched. -/
theorem settle_fileNext (hr : Sound r.fileNext) (hid : r.ids.acquire.1 ≠ RequestId.handshake)
    (o : Outcome) :
    let h := r.nextHandle r.ids.acquire.1
    (r.fileNext.settle h.id o).1 =
      { r with
        gate := r.gate.leave
        ids := r.ids.acquire.2.release h.id
        ledger := r.ledger.issue.2.settle h.ticket o } := by
  intro h
  have hordinary : h.id.isHandshake = false := decide_eq_false hid
  have hlast : r.fileNext.pending = r.pending ++ [h] := rfl
  rw [settle_of_mem hr (mem_last hlast)]
  have herase : r.fileNext.pending.erase h = r.pending := by
    rw [hlast, List.erase_append_right _ (notMem_of_last hr hlast), List.erase_cons_head,
      List.append_nil]
  rw [strike, discharge_eq]
  rw [herase, if_neg (by simp [hordinary])]
  rfl

/-- A request that has just been registered leaves the table again: but for the identifier that
comes back and for the ticket, its caller has not been there. -/
theorem settle_of_grants (hr : Sound r) (hc : r.gate.Conserving) {a : Attempt} {h : Handle}
    (hgrant : r.grants a.op = some h) (o : Outcome) :
    ((r.after a.op).settle h.id o).1 =
      { a.without r with
        ids := r.ids.acquire.2.release h.id
        ledger := r.ledger.issue.2.settle h.ticket o } := by
  obtain ⟨g, hseizes, -, hh, hafter, hwithout⟩ := exists_gate_of_grants hr hc hgrant
  rw [hafter, hh, hwithout]
  exact settle_fileNext (hr.fileNext hseizes.takes) hr.acquire_ne_handshake o

/-! The identifier that has come back -/

theorem ids_drain_of_handshakes {hs : List Handle} (hh : ∀ g ∈ hs, g.id = RequestId.handshake)
    (o : Outcome) (r : Registry) : (hs.foldl (discharge o) r).ids = r.ids := by
  induction hs generalizing r with
  | nil => rfl
  | cons g hs ih =>
    have hg : g.id = RequestId.handshake := hh g List.mem_cons_self
    rw [List.foldl_cons, ih (fun g' hg' => hh g' (List.mem_cons_of_mem g hg'))]
    simp [discharge_eq, hg]

theorem handshake_of_notMem_ordinary {g : Handle} (hg : g ∈ r.pending) (hnot : g ∉ r.ordinary) :
    g.id = RequestId.handshake := by
  by_contra hne
  exact hnot (List.mem_filter.mpr ⟨hg, by simp [RequestId.isHandshake, hne]⟩)

theorem ids_of_leavesIds (hr : Sound r) {op : Op} (hop : r.LeavesIds op) :
    (r.after op).ids = r.ids := by
  obtain ⟨hgrants, hkeeps⟩ := hop
  have hc := change_of_act r op
  rw [hgrants] at hc
  generalize r.after op = s at hc hkeeps
  cases hc with
  | waits _ _ => rfl
  | stays _ => rfl
  | notes _ => rfl
  | opens _ => rfl
  | closes _ => rfl
  | failsLate _ => rfl
  | @strikes g o hg =>
    have hgone : g ∉ r.pending.erase g :=
      (List.Nodup.of_map _ hr.tickets).not_mem_erase
    have hid := handshake_of_notMem_ordinary hg fun hmem => hgone (hkeeps g hmem)
    simp [strike, discharge_eq, hid]
  | @fails f hopen =>
    refine ids_drain_of_handshakes ?_ _ _
    intro g hg
    refine handshake_of_notMem_ordinary hg ?_
    intro hmem
    have hgone := hkeeps g hmem
    rw [pending_drain] at hgone
    exact absurd hgone List.not_mem_nil

/-- As long as no other identifier is issued or comes back, the next request gets the one
that the pool offers now. -/
theorem id_of_leavesIds (hr : Sound r) (hs : LeadsBy LeavesIds r s) {op : Op}
    (hop : op.isAtGate = true) {h : Handle} (hgrant : s.grants op = some h) :
    h.id = r.ids.acquire.1 := by
  have hids : Sound s ∧ s.ids = r.ids := by
    refine hs.preserves (I := fun t => Sound t ∧ t.ids = r.ids) ?_ ⟨hr, rfl⟩
    rintro s op hop ⟨hsound, hids⟩
    exact ⟨(change_of_act s op).sound hsound, (ids_of_leavesIds hsound hop).trans hids⟩
  have hc := change_of_act s op
  rw [hgrant] at hc
  rw [← hids.2]
  generalize s.after op = t at hc
  cases hc with
  | enters _ _ _ => rfl
  | greets _ _ => cases hop

end Registry

/-- The link `l'` is `l` after the request with the handle `h` has come and gone, which
`a` registered. What the caller brings to the gate goes with it. -/
structure Attempt.TakenBack (a : Attempt) (l l' : Link) (h : Handle) : Prop where
  /-- Nothing has been queued, and the stream and the loop have not been touched. -/
  link : l' = { l with registry := l'.registry }
  registry : ∃ ids ledger, l'.registry = { a.without l.registry with ids := ids, ledger := ledger }
  lifecycle : l'.lifecycle = l.lifecycle
  pending : l'.registry.pending = l.registry.pending
  outcome? : ∀ t, t ≠ h.ticket →
    l'.registry.ledger.outcome? t = l.registry.ledger.outcome? t
  /-- A caller that need not wait finds nobody waiting, and leaves the gate as it was. -/
  gate : a.slots = 0 → l.registry.gate.line = [] ∧ l'.registry.gate = l.registry.gate
  /-- If nobody waits without a slot, the slot is free: what is in flight is what was in
  flight apart from the slot that the caller may have had before. -/
  inflight : l.registry.gate.line = [] →
    l'.registry.gate.inflight + a.slots = l.registry.gate.inflight
  /-- The slot is handed to whoever has waited longest without one. -/
  handsOn : ∀ u rest, l.registry.gate.line = u :: rest →
    u ∈ l'.registry.gate.handed ∧ l'.registry.gate.line = rest ∧
      (∀ v ∈ rest, u.serial < v.serial) ∧
      l'.registry.gate.inflight = l.registry.gate.inflight
  /-- The identifier has come back, and is the next one to be issued unless another comes
  back before. -/
  lent : l'.registry.ids.outstanding = l.registry.ids.outstanding
  next : ∀ s op g, l'.registry.LeadsBy Registry.LeavesIds s → op.isAtGate = true →
    s.grants op = some g → g.id = h.id

namespace Link

open Registry (Sound)

variable {l : Link}

theorem transmit_of_refused {h : Handle} {p : Payload} {f : Failure}
    (hrefused : l.codec.serialize h.id p = .error f) :
    l.transmit h p = ((l.via (·.settle h.id (.error f))).1, .error f) := by
  simp [transmit, hrefused]

theorem proceed_of_refused (now : Instant) {e : Errand} {h : Handle} {p : Payload}
    {f : Failure} (hp : e.payload? = some p)
    (hrefused : l.codec.serialize h.id p = .error f) :
    proceed now e (l, .granted h) =
      ((l.via (·.settle h.id (.error f))).1, .finished (.failed f)) := by
  cases e with
  | register => cases hp
  | submit q =>
    cases hp
    simp [proceed, transmit_of_refused hrefused, sent]
  | execute q limit =>
    cases hp
    simp [proceed, transmit_of_refused hrefused]

/-- An attempt whose payload is refused settles the request that it has registered. -/
theorem make_of_refused (now : Instant) {a : Attempt} {h : Handle} {p : Payload} {f : Failure}
    (hp : a.payload? = some p) (hgrant : l.registry.grants a.op = some h)
    (hrefused : l.codec.serialize h.id p = .error f) :
    a.make now l =
      ({ l with registry := ((l.registry.after a.op).settle h.id (.error f)).1 },
        .finished (.failed f)) := by
  cases a with
  | start e =>
    have hvia : l.via Registry.register =
        ({ l with registry := l.registry.register.1 }, .granted h) := by
      cases hr : l.registry.register.2 <;>
        simp_all [Registry.grants, Registry.act, Attempt.op, Registration.handle?, via]
    rw [Attempt.make, start, hvia]
    exact proceed_of_refused (l := { l with registry := _ }) now hp hrefused
  | trySubmit q =>
    cases hp
    have hvia : l.via Registry.tryRegister =
        ({ l with registry := l.registry.tryRegister.1 }, .ok h) := by
      cases hr : l.registry.tryRegister.2 <;>
        simp_all [Registry.grants, Registry.act, Attempt.op, Except.toOption, via]
    have hsend : ({ l with registry := l.registry.tryRegister.1 } : Link).transmit h p = _ :=
      transmit_of_refused hrefused
    rw [Attempt.make, trySubmit, hvia]
    dsimp only
    rw [hsend]
    rfl
  | resume w e =>
    have hvia : l.via (·.resume w) =
        ({ l with registry := (l.registry.resume w).1 }, .granted h) := by
      cases hr : (l.registry.resume w).2 <;>
        simp_all [Registry.grants, Registry.act, Attempt.op, Registration.handle?, via]
    rw [Attempt.make, Call.poll, hvia]
    exact proceed_of_refused (l := { l with registry := _ }) now hp hrefused

theorem takenBack_of_refused (hl : Sound l.registry) (hc : l.registry.gate.Conserving)
    (hturn : l.registry.gate.InTurn) {a : Attempt} {h : Handle}
    (hgrant : l.registry.grants a.op = some h) (o : Outcome) :
    a.TakenBack l
      { l with registry := ((l.registry.after a.op).settle h.id o).1 } h := by
  obtain ⟨g, hseizes, -, hh, -, hwithout⟩ := Registry.exists_gate_of_grants hl hc hgrant
  have hsettled := Registry.settle_of_grants hl hc hgrant o
  have hid := hl.acquire_ne_handshake
  have hsound : Sound ((l.registry.after a.op).settle h.id o).1 :=
    (Registry.change_of_settle _ _ o).sound ((Registry.change_of_act l.registry a.op).sound hl)
  have hroom : g.free < g.ceiling := by
    have hslots := hl.slots
    have htakes := hseizes.takes.slots
    rw [← hseizes.takes.ceiling] at hslots
    simp only [Gate.slots] at hslots htakes
    omega
  obtain ⟨hfreed, hhanded⟩ := hseizes.leave hroom
  generalize ((l.registry.after a.op).settle h.id o).1 = r at hsettled hsound ⊢
  have hgate : r.gate = g.leave := by rw [hsettled, hwithout]
  constructor
  case link => rfl
  case registry => exact ⟨_, _, hsettled⟩
  case lifecycle =>
    change r.lifecycle = l.registry.lifecycle
    rw [hsettled, hwithout]
  case pending =>
    change r.pending = l.registry.pending
    rw [hsettled, hwithout]
  case outcome? =>
    intro t ht
    change r.ledger.outcome? t = _
    rw [hsettled]
    exact (Ledger.outcome?_settle_ne o (Ne.symm ht)).trans (Ledger.outcome?_issue t)
  case gate =>
    intro hslots
    refine ⟨hseizes.nobody hslots, ?_⟩
    have hsame : a.without l.registry = l.registry := by
      cases a with
      | resume w e => cases hslots
      | start e => rfl
      | trySubmit p => rfl
    change r.gate = l.registry.gate
    rw [hsettled, hsame]
  case inflight =>
    intro hline
    change r.gate.inflight + a.slots = _
    rw [hgate]
    exact hfreed hline
  case handsOn =>
    intro u rest hline
    obtain ⟨hu, hrest, hinflight⟩ := hhanded u rest hline
    have hslots : a.slots = 1 := by
      cases a with
      | resume w e => rfl
      | start e => simp [hseizes.nobody rfl] at hline
      | trySubmit p => simp [hseizes.nobody rfl] at hline
    have hsorted := hturn.sorted
    rw [hline] at hsorted
    change u ∈ r.gate.handed ∧ r.gate.line = rest ∧ _ ∧ r.gate.inflight = _
    rw [hgate]
    exact ⟨hu, hrest, (List.pairwise_cons.mp hsorted).1, by omega⟩
  case lent =>
    have hordinary : h.id.isHandshake = false := by
      rw [hh]
      exact decide_eq_false hid
    change r.ids.outstanding = _
    rw [hsettled]
    simp [IdPool.release, hordinary]
  case next =>
    intro t op g' hkept hop hg'
    have hnext := Registry.id_of_leavesIds hsound hkept hop hg'
    rw [hnext, hsettled, hh]
    exact IdPool.acquire_release hid

end Link

namespace Scene

open Registry (Sound)

/-- Whatever registers a request in a link that has come about from a new registry, and has
its payload refused by the codec, fails with what the codec says, and the registration is
taken back. -/
theorem refused_payload_is_taken_back {ceiling : Nat} {policy : Policy} {r : Registry}
    (hmake : Registry.make ceiling policy = .ok r) {s : Scene} (hs : s.link.registry = r)
    (acts : List Action) (a : Attempt) {p : Payload} (hp : a.payload? = some p) {h : Handle}
    (hgrant : (s.run acts).link.registry.grants a.op = some h) {f : Failure}
    (hrefused : (s.run acts).link.codec.serialize h.id p = .error f) :
    ∃ l', a.make (s.run acts).now (s.run acts).link = (l', .finished (.failed f)) ∧
      a.TakenBack (s.run acts).link l' h := by
  generalize hl : (s.run acts).link = l at hgrant hrefused ⊢
  have hleads : r.LeadsTo l.registry := by
    rw [← hl, ← hs]
    exact s.leadsTo_run acts
  obtain ⟨g, hg, rfl⟩ := Registry.eq_of_make hmake
  have hsound : Sound l.registry := hleads.sound (Registry.sound_of_make hmake)
  have hconserving : l.registry.gate.Conserving :=
    hleads.preserves (I := fun t => t.gate.Conserving)
      (fun t op h => (Registry.passes_after t op).conserving h)
      (Gate.Conserving.of_line_nil (Gate.line_of_make hg))
  have hturn : l.registry.gate.InTurn :=
    hleads.preserves (I := fun t => t.gate.InTurn)
      (fun t op h => (Registry.passes_after t op).inTurn h) (Gate.inTurn_of_make hg)
  exact ⟨_, Link.make_of_refused _ hp hgrant hrefused,
    Link.takenBack_of_refused hsound hconserving hturn hgrant _⟩

/-- A link with one slot, for which two submissions wait when it comes back. -/
def singleSlot : Scene where
  link := { registry := { gate := { ceiling := 1, policy := .block, free := 1 } },
            codec := Codec.screening "forbidden" }

/-- A command that is refused by the codec. -/
def unencodable : Payload := .command ⟨.set, ["forbidden"]⟩

def submissionsInLine : List Action :=
  [.registry .markReady, .start .register, .start (.submit unencodable),
    .start (.submit unencodable), .registry (.settle ⟨1⟩ (.ok .nil))]

theorem refused_payload_hands_slot_on :
    ∃ l', (Attempt.resume ⟨0⟩ (.submit unencodable)).make (singleSlot.run submissionsInLine).now
        (singleSlot.run submissionsInLine).link =
          (l', .finished (.failed (.encode "argument cannot be encoded"))) ∧
      ⟨1⟩ ∈ l'.registry.gate.handed := by
  have hmake : Registry.make 1 .block = .ok singleSlot.link.registry := rfl
  obtain ⟨l', hfails, htaken⟩ := refused_payload_is_taken_back hmake rfl submissionsInLine
    (.resume ⟨0⟩ (.submit unencodable)) rfl (h := ⟨⟨1⟩, ⟨1⟩⟩) (by decide) (by rfl)
  exact ⟨l', hfails, (htaken.handsOn ⟨1⟩ [] (by decide)).1⟩

end Scene

end Switchboard
