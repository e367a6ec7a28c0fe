import Switchboard.Script.Run
import Switchboard.Proofs.OutboundOrder
import Switchboard.Proofs.Waits

/-!
Whoever has nothing but the handle of a request is an onlooker: he reads its outcome or waits
for it, and the link takes no notice. The deeds of a run are what is left of it without the
onlookers. Two runs with the same deeds lead to the same link, whatever is looked at, waited
for and given up in them.
-/
namespace Switchboard

open Registry (Sound Staged)

/-! The members of a list that satisfy `p`, and their places -/

section Places

variable {α : Type} {p : α → Bool} {l : List α} {i : Nat} {c : α}

theorem split_of_getElem? (h : l[i]? = some c) :
    ∃ before after, l = before ++ c :: after ∧ before.length = i := by
  obtain ⟨hlt, rfl⟩ := List.getElem?_eq_some_iff.mp h
  refine ⟨l.take i, l.drop (i + 1), ?_, List.length_take_of_le hlt.le⟩
  rw [← List.drop_eq_getElem_cons hlt, List.take_append_drop]

theorem filter_eraseIdx_of_neg (h : l[i]? = some c) (hc : p c = false) :
    (l.eraseIdx i).filter p = l.filter p := by
  obtain ⟨before, after, rfl, rfl⟩ := split_of_getElem? h
  simp [List.eraseIdx_append_of_length_le, hc]

theorem filter_set_of_neg (h : l[i]? = some c) (hc : p c = false) {d : α} (hd : p d = false) :
    (l.set i d).filter p = l.filter p := by
  obtain ⟨before, after, rfl, rfl⟩ := split_of_getElem? h
  simp [List.set_append_right, hc, hd]

theorem getElem?_filter_of_pos (h : l[i]? = some c) (hc : p c = true) :
    (l.filter p)[(l.take i).countP p]? = some c := by
  obtain ⟨before, after, rfl, rfl⟩ := split_of_getElem? h
  simp [List.countP_eq_length_filter, hc]

theorem filter_eraseIdx_of_pos (h : l[i]? = some c) (hc : p c = true) :
    (l.eraseIdx i).filter p = ((l.filter p).eraseIdx ((l.take i).countP p)).filter p := by
  obtain ⟨before, after, rfl, rfl⟩ := split_of_getElem? h
  simp [List.countP_eq_length_filter, List.eraseIdx_append_of_length_le, hc]

theorem filter_set_of_pos (h : l[i]? = some c) (hc : p c = true) (d : α) :
    (l.set i d).filter p = ((l.filter p).set ((l.take i).countP p) d).filter p := by
  obtain ⟨before, after, rfl, rfl⟩ := split_of_getElem? h
  simp [List.countP_eq_length_filter, List.set_append_right, List.filter_cons, hc]

end Places

namespace Scene

variable {s t : Scene}

/-- A scene without its onlookers, and without the record of what calls ended with. -/
def withoutWaits (s : Scene) : Scene :=
  { s with calls := s.calls.filter Call.holdsLink, answers := [] }

/-- The place of a call among those that hold the link. -/
def rank (s : Scene) (i : Nat) : Nat := (s.calls.take i).countP Call.holdsLink

/-- What an incident is without the onlookers: nothing, if an onlooker comes, looks or goes. -/
def deed? (s : Scene) : Incident → Option Incident
  | .act (.settled _) => none
  | .act (.waitFor _ _) => none
  | .act (.poll i) =>
    if s.calls[i]?.any Call.holdsLink then some (.act (.poll (s.rank i))) else none
  | .act (.drop i) =>
    if s.calls[i]?.any Call.holdsLink then some (.act (.drop (s.rank i))) else none
  | i => some i

/-- What is left of a run without the onlookers. -/
def deeds : Scene → List Incident → List Incident
  | _, [] => []
  | s, i :: rest => (s.deed? i).toList ++ deeds (s.onIncident i) rest

/-- What deeds lead to among those that hold the link. -/
def follow (s : Scene) (ds : List Incident) : Scene :=
  ds.foldl (fun s i => (s.onIncident i).withoutWaits) s

@[simp] theorem link_withoutWaits (s : Scene) : s.withoutWaits.link = s.link := rfl

@[simp] theorem now_withoutWaits (s : Scene) : s.withoutWaits.now = s.now := rfl

@[simp] theorem withoutWaits_withoutWaits (s : Scene) :
    s.withoutWaits.withoutWaits = s.withoutWaits := by
  simp [withoutWaits]

@[simp] theorem isHeld_withoutWaits (s : Scene) : s.withoutWaits.isHeld = s.isHeld := by
  simp only [isHeld, withoutWaits, List.any_filter, Bool.and_self]
  rfl

theorem withoutWaits_join (s : Scene) (a : Link × Progress) :
    (s.join a).withoutWaits = (s.withoutWaits.join a).withoutWaits := by
  obtain ⟨l, p⟩ := a
  cases p <;> simp [join, withoutWaits]

theorem withoutWaits_join_of_unheld {c : Call} (hc : c.holdsLink = false) (s : Scene) :
    (s.join (c.poll s.now s.link)).withoutWaits = s.withoutWaits := by
  obtain ⟨hlink, hwaits⟩ := Call.poll_of_unheld hc s.now s.link
  generalize c.poll s.now s.link = a at hlink hwaits
  obtain ⟨l, p⟩ := a
  obtain rfl : l = s.link := hlink
  cases p with
  | waiting d => simp [join, withoutWaits, hwaits d rfl]
  | finished a => rfl

theorem withoutWaits_rejoin_of_unheld {c : Call} {i : Nat} (hi : s.calls[i]? = some c)
    (hc : c.holdsLink = false) :
    (s.rejoin i (c.poll s.now s.link)).withoutWaits = s.withoutWaits := by
  obtain ⟨hlink, hwaits⟩ := Call.poll_of_unheld hc s.now s.link
  generalize c.poll s.now s.link = a at hlink hwaits
  obtain ⟨l, p⟩ := a
  obtain rfl : l = s.link := hlink
  cases p with
  | waiting d => simp [rejoin, withoutWaits, filter_set_of_neg hi hc (hwaits d rfl)]
  | finished a => simp [rejoin, withoutWaits, filter_eraseIdx_of_neg hi hc]

theorem withoutWaits_rejoin_of_held {c : Call} {i : Nat} (hi : s.calls[i]? = some c)
    (hc : c.holdsLink = true) (a : Link × Progress) :
    (s.rejoin i a).withoutWaits = (s.withoutWaits.rejoin (s.rank i) a).withoutWaits := by
  obtain ⟨l, p⟩ := a
  cases p with
  | waiting d => simp only [rejoin, withoutWaits, rank, filter_set_of_pos hi hc]
  | finished a => simp only [rejoin, withoutWaits, rank, filter_eraseIdx_of_pos hi hc]

theorem withoutWaits_poll (s : Scene) (i : Nat) :
    (s.perform (.poll i)).withoutWaits =
      s.withoutWaits.follow (s.deed? (.act (.poll i))).toList := by
  cases hi : s.calls[i]? with
  | none => simp [deed?, follow, perform, hi]
  | some c =>
    cases hc : c.holdsLink with
    | false =>
      have hsame := withoutWaits_rejoin_of_unheld hi hc
      simpa [deed?, follow, perform, hi, hc] using hsame
    | true =>
      have hplace : s.withoutWaits.calls[s.rank i]? = some c := getElem?_filter_of_pos hi hc
      have hsame := withoutWaits_rejoin_of_held hi hc (c.poll s.now s.link)
      simpa [deed?, follow, onIncident, perform, hi, hc, hplace] using hsame

theorem withoutWaits_drop (s : Scene) (i : Nat) :
    (s.perform (.drop i)).withoutWaits =
      s.withoutWaits.follow (s.deed? (.act (.drop i))).toList := by
  cases hi : s.calls[i]? with
  | none => simp [deed?, follow, perform, hi]
  | some c =>
    cases hc : c.holdsLink with
    | false =>
      simp [deed?, follow, perform, hi, hc, withoutWaits, filter_eraseIdx_of_neg hi hc,
        Call.drop_of_unheld hc]
    | true =>
      have hplace : s.withoutWaits.calls[s.rank i]? = some c := getElem?_filter_of_pos hi hc
      simp only [deed?, follow, onIncident, perform, hi, hc, hplace, Option.any_some, if_true,
        Option.toList_some, List.foldl_cons, List.foldl_nil]
      simp only [withoutWaits, rank, filter_eraseIdx_of_pos hi hc]

/-- An incident does to those who hold the link what its deed does, and nothing if it is none. -/
theorem withoutWaits_onIncident (s : Scene) (i : Incident) :
    (s.onIncident i).withoutWaits = s.withoutWaits.follow (s.deed? i).toList := by
  have hidem : ∀ t : Scene, t.withoutWaits = t.withoutWaits.withoutWaits :=
    fun t => t.withoutWaits_withoutWaits.symm
  cases i with
  | readError m => exact hidem _
  | writeError m => exact hidem _
  | act a =>
    cases a with
    | settled h => exact withoutWaits_join_of_unheld rfl s
    | waitFor h limit => exact withoutWaits_join_of_unheld rfl s
    | poll i => exact s.withoutWaits_poll i
    | drop i => exact s.withoutWaits_drop i
    | start e => exact s.withoutWaits_join _
    | close => exact s.withoutWaits_join _
    | closed => exact s.withoutWaits_join _
    | drained => exact s.withoutWaits_join _
    | loop e =>
      simp only [deed?, follow, onIncident, perform, Option.toList_some, List.foldl_cons,
        List.foldl_nil, isHeld_withoutWaits, link_withoutWaits]
      split
      · exact hidem { s with link := s.link.handle e }
      · exact hidem s
    | _ => exact hidem _

theorem withoutWaits_runIncidents (s : Scene) (incidents : List Incident) :
    (s.runIncidents incidents).withoutWaits = s.withoutWaits.follow (s.deeds incidents) := by
  induction incidents generalizing s with
  | nil => rfl
  | cons i incidents ih =>
    rw [deeds, follow, List.foldl_append]
    refine (ih _).trans ?_
    rw [s.withoutWaits_onIncident i]
    rfl

/-- The bytes that the peer reads in an incident. -/
def taken (s : Scene) : Incident → ByteArray
  | .act a => s.reads a
  | _ => .empty

/-- The bytes that the peer reads in a run. -/
def takenIn : Scene → List Incident → ByteArray
  | _, [] => .empty
  | s, i :: rest => s.taken i ++ takenIn (s.onIncident i) rest

/-- The bytes that the peer reads while those who hold the link follow these deeds. -/
def takenAlong : Scene → List Incident → ByteArray
  | _, [] => .empty
  | s, i :: rest => s.taken i ++ takenAlong (s.onIncident i).withoutWaits rest

theorem taken_of_deed? {i : Incident} :
    (s.deed? i = none → s.taken i = .empty) ∧
      ∀ j, s.deed? i = some j → s.withoutWaits.taken j = s.taken i := by
  have hsame : s.withoutWaits.taken i = s.taken i := by
    cases i with
    | act a => cases a <;> rfl
    | _ => rfl
  cases i with
  | readError m => exact ⟨nofun, fun j hj => by cases hj; exact hsame⟩
  | writeError m => exact ⟨nofun, fun j hj => by cases hj; exact hsame⟩
  | act a =>
    cases a with
    | settled h => exact ⟨fun _ => rfl, nofun⟩
    | waitFor h limit => exact ⟨fun _ => rfl, nofun⟩
    | poll i =>
      refine ⟨fun _ => rfl, fun j hj => ?_⟩
      simp only [deed?, Option.ite_none_right_eq_some] at hj
      cases hj.2
      rfl
    | drop i =>
      refine ⟨fun _ => rfl, fun j hj => ?_⟩
      simp only [deed?, Option.ite_none_right_eq_some] at hj
      cases hj.2
      rfl
    | _ => exact ⟨nofun, fun j hj => by cases hj; exact hsame⟩

theorem takenIn_eq (s : Scene) (incidents : List Incident) :
    s.takenIn incidents = s.withoutWaits.takenAlong (s.deeds incidents) := by
  induction incidents generalizing s with
  | nil => rfl
  | cons i incidents ih =>
    have hstep := s.withoutWaits_onIncident i
    obtain ⟨hnothing, hsame⟩ := s.taken_of_deed? (i := i)
    rw [takenIn, ih, deeds, hstep]
    cases hdeed : s.deed? i with
    | none =>
      rw [hnothing hdeed, ByteArray.empty_append]
      rfl
    | some j =>
      rw [← hsame j hdeed]
      rfl

/-- Two runs that differ only in what onlookers do lead to the same link at the same time, and
the peer has read the same. -/
theorem eq_of_deeds {incidents others : List Incident} (hstart : s.withoutWaits = t.withoutWaits)
    (hdeeds : s.deeds incidents = t.deeds others) :
    (s.runIncidents incidents).withoutWaits = (t.runIncidents others).withoutWaits ∧
      s.takenIn incidents = t.takenIn others := by
  constructor
  · rw [withoutWaits_runIncidents, withoutWaits_runIncidents, hstart, hdeeds]
  · rw [takenIn_eq, takenIn_eq, hstart, hdeeds]

end Scene

/-! Onlookers of a session -/

theorem Registry.dissolve_dissolve (r : Registry) : r.dissolve.dissolve = r.dissolve := by
  have hnothing : r.dissolve.pending = [] := by rw [dissolve_eq, pending_drain]
  generalize r.dissolve = s at hnothing
  obtain ⟨lifecycle, gate, ids, pending⟩ := s
  cases hnothing
  rfl

namespace Session

variable {q r : Session}

/-- Nothing but what onlookers have may be different. -/
structure Overlooks (q r : Session) : Prop where
  link : r.sweep.link = q.sweep.link
  now : r.now = q.now
  peer : r.peer = q.peer
  holders : r.holders = q.holders
  calls : r.calls.filter (fun p => p.2.holdsLink) = q.calls.filter fun p => p.2.holdsLink

theorem Overlooks.refl (q : Session) : q.Overlooks q := ⟨rfl, rfl, rfl, rfl, rfl⟩

theorem Overlooks.trans {q' : Session} (h : q.Overlooks r) (h' : r.Overlooks q') :
    q.Overlooks q' where
  link := h'.link.trans h.link
  now := h'.now.trans h.now
  peer := h'.peer.trans h.peer
  holders := h'.holders.trans h.holders
  calls := h'.calls.trans h.calls

theorem isHeld_eq (q : Session) :
    q.isHeld =
      (!q.holders.isEmpty || (q.calls.filter fun p => p.2.holdsLink).any fun _ => true) := by
  simp [isHeld, List.any_filter]

theorem overlooks_sweep (q : Session) : q.Overlooks q.sweep := by
  have hgone : ∀ p : Session, p.isGone = true → p.sweep = { p with link := p.link.dissolve } :=
    fun p hp => if_pos hp
  cases h : q.isGone with
  | false =>
    have hsame : q.sweep = q := if_neg (by simp [h])
    rw [hsame]
    exact Overlooks.refl q
  | true =>
    rw [hgone q h]
    have hagain : ({ q with link := q.link.dissolve } : Session).isGone = true := h
    refine ⟨?_, rfl, rfl, rfl, rfl⟩
    rw [hgone _ hagain, hgone q h]
    simp only [Link.dissolve, Registry.dissolve_dissolve]

theorem overlooks_of_same (hlink : r.link = q.link) (hnow : r.now = q.now)
    (hpeer : r.peer = q.peer) (hholders : r.holders = q.holders)
    (hcalls : r.calls.filter (fun p => p.2.holdsLink) = q.calls.filter fun p => p.2.holdsLink) :
    q.Overlooks r := by
  refine ⟨?_, hnow, hpeer, hholders, hcalls⟩
  have hgone : r.isGone = q.isGone := by
    rw [isGone, isGone, isHeld_eq, isHeld_eq, hlink, hholders, hcalls]
  unfold sweep
  rw [hgone]
  split
  · simp only [hlink]
  · exact hlink

theorem overlooks_begin {a : Link × Progress} (ha : a.1 = q.link)
    (hwaits : ∀ d, a.2 = .waiting d → d.holdsLink = false)
    (hends : ∀ b, a.2 = .finished b → ∃ o, b = .outcome o) (name : String) :
    q.Overlooks (q.begin name a).1 := by
  obtain ⟨l, p⟩ := a
  obtain rfl : l = q.link := ha
  cases p with
  | waiting d =>
    refine overlooks_of_same rfl rfl rfl rfl ?_
    simp [begin, join, Progress.holdsLink, hwaits d rfl]
  | finished b =>
    obtain ⟨o, rfl⟩ := hends b rfl
    exact q.overlooks_sweep

theorem overlooks_handleStep (q : Session) (h : Handle) (step : HandleStep) :
    q.Overlooks (q.handleStep h step).1 := by
  cases step with
  | poll => exact .refl q
  | isDone => exact .refl q
  | display => exact .refl q
  | blockingWait limit => exact .refl q
  | clone name => exact overlooks_of_same rfl rfl rfl rfl rfl
  | wait name =>
    refine overlooks_begin rfl (fun d hd => (Call.poll_of_unheld rfl q.now q.link).2 d hd) ?_ name
    intro b hb
    simp only [Call.poll] at hb
    split at hb <;> cases hb
    exact ⟨_, rfl⟩
  | waitFor name limit =>
    have hcall : Wait.timed.call? q.now h limit = some (.settledBy h limit (q.now.add? limit)) :=
      rfl
    refine overlooks_begin rfl (fun d hd => (Call.poll_of_unheld rfl q.now q.link).2 d hd) ?_ name
    intro b hb
    have hends := (congrArg Prod.snd (Wait.poll_of_call hcall q.now q.link)).symm.trans hb
    dsimp only at hends
    split at hends <;> cases hends
    exact ⟨_, rfl⟩

theorem overlooks_cancel {name : String} {p : String × Progress}
    (hfind : q.calls.find? (fun p => p.1 = name) = some p) (hp : p.2.holdsLink = false) :
    ∃ r, q.cancel name = some r ∧ q.Overlooks r := by
  have hdrop : p.2.drop q.link = q.link := by
    obtain ⟨name', progress⟩ := p
    cases progress with
    | waiting c => exact Call.drop_of_unheld hp q.link
    | finished a => rfl
  refine ⟨_, by rw [cancel, hfind], Overlooks.trans ?_ (overlooks_sweep _)⟩
  refine overlooks_of_same hdrop rfl rfl rfl ?_
  obtain ⟨hname, before, after, hcalls, hnot⟩ := List.find?_eq_some_iff_append.mp hfind
  have herase : q.calls.eraseP (fun p => p.1 = name) = before ++ after := by
    rw [hcalls, List.eraseP_append_right _ (by simpa using hnot)]
    simp [of_decide_eq_true hname]
  dsimp only
  rw [herase, hcalls]
  simp [hp]

end Session

end Switchboard
