import Switchboard.Proofs.ClosingAnswers
import Switchboard.Proofs.Spared

/-!
Answers that come one after the other to a link that is ready. What becomes of a request can
be read off the list of answers: the first one under its identifier counts, provided that
the peer has not announced before that it closes. `answers_demultiplexed` is the main
result. The induction is on the list of answers. A step takes one request off the table at
most, so that the rest of the list is told to a table without it.
-/
namespace Switchboard

/-- The announcement that the peer closes, if the body is one. -/
def Body.farewell? : Body → Option String
  | .closingError m => some m
  | _ => none

namespace Response

/-- The first announcement of a list of answers. -/
def farewell? (as : List Response) : Option String := as.findSome? fun a => a.body.farewell?

/-- The answers up to the first announcement and including it. -/
def heard : List Response → List Response
  | [] => []
  | a :: as => if a.body.farewell?.isSome then [a] else a :: heard as

/-- What a list of answers says to the pending request with this identifier. -/
def verdict? (as : List Response) (id : RequestId) : Option Outcome :=
  match (heard as).find? fun a => a.id = id with
  | some a => some a.body.outcome
  | none => (farewell? as).map fun m => .error (.closing m)

/-- The identifiers of a list under which nobody waits, if the requests `ids` are pending and
those that have been `seen` are answered. -/
def strays (ids : List RequestId) : List RequestId → List RequestId → List RequestId
  | _, [] => []
  | seen, i :: is =>
    if i ∈ ids ∧ i ∉ seen then strays ids (i :: seen) is else i :: strays ids (i :: seen) is

variable {a : Response} {as bs : List Response}

theorem farewell?_cons (ha : a.body.farewell? = none) : farewell? (a :: as) = farewell? as := by
  simp [farewell?, ha]

theorem farewell?_cons_some {m : String} (ha : a.body.farewell? = some m) :
    farewell? (a :: as) = some m := by
  simp [farewell?, ha]

theorem heard_cons (ha : a.body.farewell? = none) : heard (a :: as) = a :: heard as := by
  simp [heard, ha]

theorem heard_cons_some {m : String} (ha : a.body.farewell? = some m) :
    heard (a :: as) = [a] := by
  simp [heard, ha]

theorem heard_prefix (as : List Response) : heard as <+: as := by
  induction as with
  | nil => exact List.prefix_refl []
  | cons a as ih =>
    cases ha : a.body.farewell? with
    | none =>
      rw [heard_cons ha]
      exact (List.prefix_cons_inj a).mpr ih
    | some m =>
      rw [heard_cons_some ha]
      exact List.prefix_append [a] as

theorem farewell?_heard (as : List Response) : farewell? (heard as) = farewell? as := by
  induction as with
  | nil => rfl
  | cons a as ih =>
    cases ha : a.body.farewell? with
    | none => rw [heard_cons ha, farewell?_cons ha, farewell?_cons ha, ih]
    | some m => rw [heard_cons_some ha, farewell?_cons_some ha, farewell?_cons_some ha]

theorem heard_of_none (h : farewell? as = none) : heard as = as := by
  induction as with
  | nil => rfl
  | cons a as ih =>
    have hall := List.findSome?_eq_none_iff.mp h
    have ha : a.body.farewell? = none := hall a List.mem_cons_self
    rw [farewell?_cons ha] at h
    rw [heard_cons ha, ih h]

theorem verdict?_cons_self (a : Response) (as : List Response) :
    verdict? (a :: as) a.id = some a.body.outcome := by
  unfold verdict?
  cases ha : a.body.farewell? with
  | none => rw [heard_cons ha, List.find?_cons_of_pos (by simp)]
  | some m => rw [heard_cons_some ha, List.find?_cons_of_pos (by simp)]

theorem verdict?_cons_of_ne (ha : a.body.farewell? = none) {id : RequestId} (hne : a.id ≠ id) :
    verdict? (a :: as) id = verdict? as id := by
  unfold verdict?
  rw [heard_cons ha, farewell?_cons ha, List.find?_cons_of_neg (by simpa using hne)]

/-- The announcement is meant for all who have not been answered before. -/
theorem verdict?_cons_some {m : String} (ha : a.body.farewell? = some m) (id : RequestId) :
    verdict? (a :: as) id = some (.error (.closing m)) := by
  have hbody : a.body.outcome = .error (.closing m) := by
    cases hb : a.body with
    | closingError n =>
      rw [hb] at ha
      cases ha
      rfl
    | _ =>
      rw [hb] at ha
      cases ha
  unfold verdict?
  rw [heard_cons_some ha, farewell?_cons_some ha]
  by_cases hid : a.id = id
  · simp [hid, hbody]
  · simp [hid]

theorem strays_congr {ids ids' seen seen' : List RequestId}
    (h : ∀ i, (i ∈ ids ∧ i ∉ seen) ↔ (i ∈ ids' ∧ i ∉ seen')) (is : List RequestId) :
    strays ids seen is = strays ids' seen' is := by
  induction is generalizing seen seen' with
  | nil => rfl
  | cons i is ih =>
    have hrest : strays ids (i :: seen) is = strays ids' (i :: seen') is := by
      apply ih
      intro j
      have hj := h j
      simp only [List.mem_cons]
      tauto
    unfold strays
    rw [hrest]
    by_cases hi : i ∈ ids ∧ i ∉ seen
    · rw [if_pos hi, if_pos ((h i).mp hi)]
    · rw [if_neg hi, if_neg (hi ∘ (h i).mpr)]

theorem find?_of_mem (hids : (as.map Response.id).Nodup) (ha : a ∈ as) :
    (as.find? fun b => b.id = a.id) = some a := by
  cases hfind : as.find? fun b => b.id = a.id with
  | none => simpa using List.find?_eq_none.mp hfind a ha
  | some b =>
    have hid : b.id = a.id := by simpa using List.find?_some hfind
    rw [List.inj_on_of_nodup_map hids (List.mem_of_find?_eq_some hfind) ha hid]

theorem find?_perm (hp : as.Perm bs) (hids : (as.map Response.id).Nodup) (id : RequestId) :
    (as.find? fun b => b.id = id) = bs.find? fun b => b.id = id := by
  cases hfind : as.find? fun b => b.id = id with
  | none =>
    symm
    rw [List.find?_eq_none] at hfind ⊢
    intro b hb
    exact hfind b (hp.mem_iff.mpr hb)
  | some a =>
    have hid : a.id = id := by simpa using List.find?_some hfind
    have ha : a ∈ bs := hp.mem_iff.mp (List.mem_of_find?_eq_some hfind)
    rw [← hid, find?_of_mem ((hp.map _).nodup_iff.mp hids) ha]

theorem farewell?_perm (hp : as.Perm bs) (h : farewell? as = none) : farewell? bs = none := by
  rw [farewell?, List.findSome?_eq_none_iff] at h ⊢
  intro b hb
  exact h b (hp.mem_iff.mpr hb)

theorem verdict?_perm (hp : as.Perm bs) (h : farewell? as = none)
    (hids : (as.map Response.id).Nodup) (id : RequestId) : verdict? as id = verdict? bs id := by
  unfold verdict?
  rw [heard_of_none h, heard_of_none (farewell?_perm hp h), find?_perm hp hids, h,
    farewell?_perm hp h]

end Response

namespace Registry

variable {r : Registry}

theorem mem_settle_iff (hr : Sound r) {h : Handle} {id : RequestId} (o : Outcome) :
    h ∈ (r.settle id o).1.pending ↔ h ∈ r.pending ∧ h.id ≠ id := by
  by_cases hpending : r.isPending id = true
  · obtain ⟨g, hg, rfl⟩ := isPending_iff.mp hpending
    have hnodup : r.pending.Nodup := List.Nodup.of_map _ hr.nodup_ids
    rw [settle_of_mem hr hg]
    change h ∈ r.pending.erase g ↔ _
    rw [hnodup.mem_erase_iff]
    constructor
    · rintro ⟨hne, hh⟩
      exact ⟨hh, fun hid => hne (hr.eq_of_id hg hh hid)⟩
    · rintro ⟨hh, hid⟩
      exact ⟨fun heq => hid (congrArg Handle.id heq), hh⟩
  · have hnone : r.isPending id = false := Bool.eq_false_iff.mpr hpending
    rw [settle_of_not_isPending hnone]
    constructor
    · intro hh
      exact ⟨hh, fun hid => hpending (isPending_iff.mpr ⟨h, hh, hid⟩)⟩
    · exact And.left

theorem isPending_iff_mem {id : RequestId} :
    r.isPending id = true ↔ id ∈ r.pending.map Handle.id := by
  rw [isPending_iff, List.mem_map]

theorem unmatched_settle (hr : Sound r) (id : RequestId) (o : Outcome) :
    (r.settle id o).1.unmatched =
      r.unmatched ++ if id ∈ r.pending.map Handle.id then [] else [id] := by
  by_cases hpending : r.isPending id = true
  · rw [if_pos (isPending_iff_mem.mp hpending), List.append_nil]
    obtain ⟨g, hg, rfl⟩ := isPending_iff.mp hpending
    rw [settle_of_mem hr hg]
    rfl
  · have hnone : r.isPending id = false := Bool.eq_false_iff.mpr hpending
    rw [if_neg (hpending ∘ isPending_iff_mem.mpr), settle_of_not_isPending hnone]

theorem slots_settle (hr : Sound r) {id : RequestId} (hid : id ≠ RequestId.handshake)
    (o : Outcome) :
    ∃ n, (r.settle id o).1.gate = Gate.leave^[n] r.gate ∧
      r.pending.length = (r.settle id o).1.pending.length + n := by
  by_cases hpending : r.isPending id = true
  · obtain ⟨g, hg, rfl⟩ := isPending_iff.mp hpending
    have hordinary : g.id.isHandshake = false := by simp [RequestId.isHandshake, hid]
    refine ⟨1, ?_, ?_⟩
    · rw [settle_of_mem hr hg]
      simp [strike, discharge_eq, hordinary]
    · rw [settle_of_mem hr hg]
      change _ = (r.pending.erase g).length + 1
      exact (List.length_erase_add_one hg).symm
  · have hnone : r.isPending id = false := Bool.eq_false_iff.mpr hpending
    rw [settle_of_not_isPending hnone]
    exact ⟨0, rfl, rfl⟩

/-- For answers that come later it is the same whether a request has left the table or has been
answered before. -/
theorem strays_settle (hr : Sound r) (id : RequestId) (o : Outcome)
    (ids : List RequestId) :
    Response.strays ((r.settle id o).1.pending.map Handle.id) [] ids =
      Response.strays (r.pending.map Handle.id) [id] ids := by
  apply Response.strays_congr
  intro i
  simp only [List.mem_map, mem_settle_iff hr o, List.mem_singleton, List.not_mem_nil,
    not_false_eq_true, and_true]
  constructor
  · rintro ⟨g, ⟨hg, hne⟩, rfl⟩
    exact ⟨⟨g, hg, rfl⟩, hne⟩
  · rintro ⟨⟨g, hg, rfl⟩, hne⟩
    exact ⟨g, ⟨hg, hne⟩, rfl⟩

@[simp] theorem unmatched_drain (hs : List Handle) (o : Outcome) (r : Registry) :
    (hs.foldl (discharge o) r).unmatched = r.unmatched := by
  induction hs generalizing r with
  | nil => rfl
  | cons h hs ih => exact ih _

theorem unmatched_failAll (r : Registry) (f : Failure) :
    (r.failAll f).1.unmatched = r.unmatched := by
  by_cases h : r.lifecycle = .closed
  · rw [failAll_of_closed h]
  · rw [failAll_of_open h, unmatched_drain]
    rfl

end Registry

namespace Link

open Registry (Sound Staged LeadsTo)
open Response (farewell? heard verdict? strays)

/-- Notes that answers under these identifiers have come to nobody. -/
def note (l : Link) (ids : List RequestId) : Link :=
  { l with registry.unmatched := l.registry.unmatched ++ ids }

/-- The link `l'` has come to what the answers say, and `l` was ready when they came. -/
structure Demultiplexes (l : Link) (as : List Response) (l' : Link) : Prop where
  outcome : ∀ h ∈ l.registry.pending, l'.outcome? h = verdict? as h.id
  pending : ∀ h, h ∈ l'.registry.pending ↔ h ∈ l.registry.pending ∧ verdict? as h.id = none
  /-- Whoever had an outcome keeps it. -/
  settled : ∀ h o, l.outcome? h = some o → l'.outcome? h = some o
  goesOn : farewell? as = none →
    l'.lifecycle = .ready ∧ l'.registry.closedWith = l.registry.closedWith
  ends : ∀ m, farewell? as = some m →
    l'.lifecycle = .closed ∧ l'.registry.closedWith = some (.closing m)
  unmatched : l'.registry.unmatched = l.registry.unmatched ++
    strays (l.registry.pending.map Handle.id) [] ((heard as).map Response.id) ++
      (as.drop (heard as).length).map Response.id
  /-- As long as the link goes on, every answered request gives its slot back. -/
  slots : farewell? as = none → ∃ n, l'.registry.gate = Gate.leave^[n] l.registry.gate ∧
    l.registry.pending.length = l'.registry.pending.length + n

variable {l l' : Link} {a : Response} {as : List Response}

@[simp] theorem note_nil (l : Link) : l.note [] = l := by
  simp [note]

theorem note_note (l : Link) (is js : List RequestId) :
    (l.note is).note js = l.note (is ++ js) := by
  simp [note]

theorem onResponse_of_none (hid : a.id ≠ RequestId.handshake) (ha : a.body.farewell? = none) :
    l.onResponse a = (l.via (·.settle a.id a.body.outcome)).1 := by
  obtain ⟨id, b⟩ := a
  rcases l.onResponse_of_ordinary hid b with ⟨m, rfl, -⟩ | ⟨-, heq⟩
  · cases ha
  · exact heq

theorem leadsTo_onResponse (l : Link) (a : Response) :
    l.registry.LeadsTo (l.onResponse a).registry :=
  (routine_true.onResponse l a fun _ _ => trivial).leadsTo

theorem leadsTo_foldl_onResponse (l : Link) (as : List Response) :
    l.registry.LeadsTo (as.foldl onResponse l).registry := by
  induction as generalizing l with
  | nil => exact LeadsTo.refl _
  | cons a as ih => exact (l.leadsTo_onResponse a).trans (ih _)

theorem lifecycle_onResponse (hid : a.id ≠ RequestId.handshake) (ha : a.body.farewell? = none) :
    (l.onResponse a).lifecycle = l.lifecycle := by
  rw [onResponse_of_none hid ha]
  exact Registry.lifecycle_settle _ _ _

theorem demultiplexes_nil (hl : Sound l.registry) (hready : l.lifecycle = .ready) :
    l.Demultiplexes [] l where
  outcome h hh := hl.outcome?_eq_none hh
  pending h := ⟨fun hh => ⟨hh, rfl⟩, And.left⟩
  settled h o ho := ho
  goesOn _ := ⟨hready, rfl⟩
  ends m hm := by cases hm
  unmatched := by simp [heard, strays]
  slots _ := ⟨0, rfl, rfl⟩

theorem Demultiplexes.cons (hl : Sound l.registry) (hid : a.id ≠ RequestId.handshake)
    (ha : a.body.farewell? = none) (h : (l.onResponse a).Demultiplexes as l')
    (hleads : (l.onResponse a).registry.LeadsTo l'.registry) : l.Demultiplexes (a :: as) l' := by
  have hstep : (l.onResponse a).registry = (l.registry.settle a.id a.body.outcome).1 := by
    rw [onResponse_of_none hid ha]
    rfl
  have hmem : ∀ g, g ∈ (l.onResponse a).registry.pending ↔
      g ∈ l.registry.pending ∧ g.id ≠ a.id := by
    intro g
    rw [hstep]
    exact Registry.mem_settle_iff hl a.body.outcome
  have hfirst := Response.verdict?_cons_self a as
  have hlater : ∀ i, i ≠ a.id → verdict? (a :: as) i = verdict? as i := fun i hi =>
    Response.verdict?_cons_of_ne ha (Ne.symm hi)
  constructor
  case outcome =>
    intro g hg
    by_cases hga : g.id = a.id
    · have htold : (l.onResponse a).outcome? g = some a.body.outcome := by
        have htold := outcome?_onResponse hl hg (hga ▸ hid) a.body
        rwa [hga] at htold
      rw [hga, hfirst]
      exact hleads.outcome? htold
    · rw [hlater g.id hga]
      exact h.outcome g ((hmem g).mpr ⟨hg, hga⟩)
  case pending =>
    intro g
    rw [h.pending, hmem]
    by_cases hga : g.id = a.id
    · simp [hga, hfirst]
    · simp [hga, hlater g.id hga]
  case settled =>
    intro g o ho
    exact hleads.outcome? ((l.leadsTo_onResponse a).outcome? ho)
  case goesOn =>
    intro hnone
    rw [Response.farewell?_cons ha] at hnone
    obtain ⟨hlife, hclosed⟩ := h.goesOn hnone
    rw [hstep, Registry.closedWith_settle] at hclosed
    exact ⟨hlife, hclosed⟩
  case ends =>
    intro m hm
    rw [Response.farewell?_cons ha] at hm
    exact h.ends m hm
  case unmatched =>
    rw [h.unmatched, hstep, Registry.strays_settle hl, Registry.unmatched_settle hl,
      Response.heard_cons ha]
    simp only [List.map_cons, List.length_cons, List.drop_succ_cons, strays, List.not_mem_nil,
      not_false_eq_true, and_true]
    split
    · rw [List.append_nil]
    · simp
  case slots =>
    intro hnone
    rw [Response.farewell?_cons ha] at hnone
    obtain ⟨n, hgate, hlen⟩ := h.slots hnone
    obtain ⟨k, hgate', hlen'⟩ := Registry.slots_settle hl hid a.body.outcome
    rw [hstep] at hgate hlen
    refine ⟨n + k, ?_, by omega⟩
    rw [hgate, hgate', Function.iterate_add_apply]

/-- An answer that comes to a closed link is noted, and that is all. -/
theorem onResponse_closed (hclosed : l.lifecycle = .closed) (hnil : l.registry.pending = [])
    (hid : a.id ≠ RequestId.handshake) : l.onResponse a = l.note [a.id] := by
  have hnone : l.registry.isPending a.id = false := by simp [Registry.isPending, hnil]
  have hnoted : (l.via (·.settle a.id a.body.outcome)).1 = l.note [a.id] := by
    simp only [via]
    rw [Registry.settle_of_not_isPending hnone]
    rfl
  rcases l.onResponse_of_ordinary hid a.body with ⟨m, -, heq⟩ | ⟨-, heq⟩
  · have hshut : (l.note [a.id]).lifecycle.isClosed = true := by
      change l.lifecycle.isClosed = true
      simp [hclosed, Lifecycle.isClosed]
    rw [heq, hnoted]
    exact if_pos hshut
  · rw [heq, hnoted]

theorem foldl_onResponse_closed (hclosed : l.lifecycle = .closed) (hnil : l.registry.pending = [])
    (hids : ∀ a ∈ as, a.id ≠ RequestId.handshake) :
    as.foldl onResponse l = l.note (as.map Response.id) := by
  induction as generalizing l with
  | nil => rw [List.foldl_nil, List.map_nil, note_nil]
  | cons a as ih =>
    have hstep := onResponse_closed hclosed hnil (hids a List.mem_cons_self)
    have hrest : ∀ b ∈ as, b.id ≠ RequestId.handshake := fun b hb =>
      hids b (List.mem_cons_of_mem a hb)
    have htail := ih (l := l.note [a.id]) hclosed hnil hrest
    rw [List.foldl_cons, hstep, htail, note_note]
    rfl

/-- The announcement comes first: it is meant for all, and what comes after it for none. -/
theorem demultiplexes_farewell (hl : Sound l.registry) (hs : Staged l.registry)
    (hready : l.lifecycle = .ready) {m : String} (ha : a.body.farewell? = some m)
    (hids : ∀ b ∈ a :: as, b.id ≠ RequestId.handshake) :
    l.Demultiplexes (a :: as) ((a :: as).foldl onResponse l) := by
  have hid : a.id ≠ RequestId.handshake := hids a List.mem_cons_self
  have hbody : a = ⟨a.id, .closingError m⟩ := by
    obtain ⟨id, b⟩ := a
    cases b with
    | closingError n =>
      cases ha
      rfl
    | _ => cases ha
  have hopen : l.lifecycle ≠ .closed := by
    rw [hready]
    exact Lifecycle.noConfusion
  have hbeyond : l.lifecycle ≠ .connecting := by
    rw [hready]
    exact Lifecycle.noConfusion
  obtain ⟨e, hends, -, he⟩ := endsWith_onResponse hl hs hopen m (Or.inl hid)
  rw [he hbeyond, ← hbody] at hends
  have hunmatched : (l.onResponse a).registry.unmatched =
      (l.registry.settle a.id (.error (.closing m))).1.unmatched := by
    rw [hbody, onResponse_closing hopen hid, registry_fail_eq, Registry.unmatched_failAll]
    unfold failing
    split
    · rfl
    · exact Registry.unmatched_beginClosing _
  rw [List.foldl_cons, foldl_onResponse_closed hends.lifecycle hends.pending fun b hb =>
    hids b (List.mem_cons_of_mem a hb)]
  constructor
  case outcome =>
    intro h hh
    rw [Response.verdict?_cons_some ha]
    exact hends.outcome h hh
  case pending =>
    intro h
    have hnil : h ∉ (l.onResponse a).registry.pending := by
      rw [hends.pending]
      exact List.not_mem_nil
    rw [Response.verdict?_cons_some ha]
    simp only [reduceCtorEq, and_false, iff_false]
    exact hnil
  case settled =>
    intro h o ho
    exact (l.leadsTo_onResponse a).outcome? ho
  case goesOn =>
    intro hnone
    rw [Response.farewell?_cons_some ha] at hnone
    cases hnone
  case ends =>
    intro n hn
    rw [Response.farewell?_cons_some ha] at hn
    cases hn
    exact ⟨hends.lifecycle, hends.closedWith⟩
  case unmatched =>
    rw [Response.heard_cons_some ha]
    simp [note, hunmatched, Registry.unmatched_settle hl, strays]
  case slots =>
    intro hnone
    rw [Response.farewell?_cons_some ha] at hnone
    cases hnone

/-- A link that is ready does with a list of answers what the answers say. -/
theorem demultiplexes_foldl (hl : Sound l.registry) (hs : Staged l.registry)
    (hready : l.lifecycle = .ready) (hids : ∀ a ∈ as, a.id ≠ RequestId.handshake) :
    l.Demultiplexes as (as.foldl onResponse l) := by
  induction as generalizing l with
  | nil => exact demultiplexes_nil hl hready
  | cons a as ih =>
    cases ha : a.body.farewell? with
    | some m => exact demultiplexes_farewell hl hs hready ha hids
    | none =>
      have hid : a.id ≠ RequestId.handshake := hids a List.mem_cons_self
      have hrest : ∀ b ∈ as, b.id ≠ RequestId.handshake := fun b hb =>
        hids b (List.mem_cons_of_mem a hb)
      have hleads := l.leadsTo_onResponse a
      have hstill := (lifecycle_onResponse (l := l) hid ha).trans hready
      have htail := ih (hleads.sound hl) (hleads.staged hs) hstill hrest
      exact htail.cons hl hid ha (leadsTo_foldl_onResponse _ as)

/-- What comes after the announcement changes nothing but the list of answers that came to
nobody. -/
theorem foldl_onResponse_late (hl : Sound l.registry) (hs : Staged l.registry)
    (hready : l.lifecycle = .ready) (hids : ∀ a ∈ as, a.id ≠ RequestId.handshake) :
    let k := (heard as).length
    let lk := (as.take k).foldl onResponse l
    as.foldl onResponse l = lk.note ((as.drop k).map Response.id) := by
  intro k lk
  have hheard : as.take k = heard as := (List.prefix_iff_eq_take.mp (Response.heard_prefix as)).symm
  have hsplit : as.foldl onResponse l = (as.drop k).foldl onResponse lk := by
    rw [← List.foldl_append, List.take_append_drop]
  cases hfarewell : farewell? as with
  | none =>
    have hdrop : as.drop k = [] := by
      rw [List.drop_eq_nil_iff]
      exact (congrArg List.length (Response.heard_of_none hfarewell)).ge
    rw [hsplit, hdrop, List.foldl_nil, List.map_nil, note_nil]
  | some m =>
    have hmore : ∀ a ∈ as.take k, a.id ≠ RequestId.handshake := fun a ha =>
      hids a (List.mem_of_mem_take ha)
    have hdemux : l.Demultiplexes (as.take k) lk := demultiplexes_foldl hl hs hready hmore
    have hm : farewell? (as.take k) = some m := by
      rw [hheard, Response.farewell?_heard, hfarewell]
    have hclosed := (hdemux.ends m hm).1
    have hleads : l.registry.LeadsTo lk.registry := leadsTo_foldl_onResponse l _
    rw [hsplit]
    exact foldl_onResponse_closed hclosed ((hleads.staged hs).closed hclosed) fun a ha =>
      hids a (List.mem_of_mem_drop ha)

/-- Reading frames is hearing the answers that they are. -/
theorem foldl_onFrame {fs : List Frame}
    (hread : List.Forall₂ (fun f a => l.codec.deserialize f = .ok a) fs as) :
    fs.foldl onFrame l = as.foldl onResponse l := by
  induction fs generalizing l as with
  | nil =>
    cases hread
    rfl
  | cons f fs ih =>
    cases hread with
    | @cons _ a _ as hf hread =>
      have hstep : l.onFrame f = l.onResponse a := by simp only [onFrame, hf]
      have hcodec : (l.onResponse a).codec = l.codec := hstep ▸ (l.spares_onFrame f).codec
      rw [List.foldl_cons, List.foldl_cons, hstep]
      exact ih (by rwa [hcodec])

theorem Demultiplexes.perm {l'' : Link} {bs : List Response} (h : l.Demultiplexes as l')
    (h' : l.Demultiplexes bs l'') (hl' : Sound l'.registry) (hl'' : Sound l''.registry)
    (hp : as.Perm bs) (hnone : farewell? as = none) (hids : (as.map Response.id).Nodup) :
    (∀ g ∈ l.registry.pending, l''.outcome? g = l'.outcome? g) ∧
      l''.registry.pending.Perm l'.registry.pending ∧ l''.registry.gate = l'.registry.gate := by
  have hverdict := Response.verdict?_perm hp hnone hids
  have hpending : l''.registry.pending.Perm l'.registry.pending := by
    have hnodup' : l'.registry.pending.Nodup := List.Nodup.of_map _ hl'.nodup_ids
    have hnodup'' : l''.registry.pending.Nodup := List.Nodup.of_map _ hl''.nodup_ids
    rw [List.perm_ext_iff_of_nodup hnodup'' hnodup']
    intro g
    rw [h.pending, h'.pending, hverdict]
  refine ⟨?_, hpending, ?_⟩
  · intro g hg
    rw [h.outcome g hg, h'.outcome g hg, hverdict]
  · obtain ⟨n, hgate, hlen⟩ := h.slots hnone
    obtain ⟨k, hgate', hlen'⟩ := h'.slots (Response.farewell?_perm hp hnone)
    have hsame : k = n := by
      have hleft := hpending.length_eq
      omega
    rw [hgate, hgate', hsame]

end Link

namespace Scene

open Registry (Sound Staged LeadsTo)
open Response (farewell? heard verdict? strays)

/-- In every run, whatever frames with answers to ordinary requests are read by a link that
is ready: each pending request has for its outcome what the first answer under its identifier
says, unless the peer has announced before that it closes. If it announces this, all that is
still pending fails with the announcement, the link is closed with it, and the frames after
it change nothing but the list of answers that came to nobody. If it does not, the link stays
ready and the other requests go on waiting; and the order of the answers to different
requests makes no difference to what the requests are told, to which are left, and to the
slots that are taken. -/
theorem answers_demultiplexed {ceiling : Nat} {policy : Policy} {s : Scene}
    (hmake : Registry.make ceiling policy = .ok s.link.registry) (acts : List Action)
    (hready : (s.run acts).link.lifecycle = .ready) {fs : List Frame} {as : List Response}
    (hread : List.Forall₂ (fun f a => (s.run acts).link.codec.deserialize f = .ok a) fs as)
    (hids : ∀ a ∈ as, a.id ≠ RequestId.handshake) :
    let l := (s.run acts).link
    let l' := fs.foldl Link.onFrame l
    let k := (heard as).length
    let lk := (fs.take k).foldl Link.onFrame l
    l.Demultiplexes as l' ∧ l' = lk.note ((as.drop k).map Response.id) ∧
      ∀ gs bs, List.Forall₂ (fun f a => l.codec.deserialize f = .ok a) gs bs → as.Perm bs →
        farewell? as = none → (as.map Response.id).Nodup →
        let l'' := gs.foldl Link.onFrame l
        (∀ h ∈ l.registry.pending, l''.outcome? h = l'.outcome? h) ∧
          l''.registry.pending.Perm l'.registry.pending ∧
          l''.registry.gate = l'.registry.gate := by
  intro l l' k lk
  have hleads := s.leadsTo_run acts
  have hsound : Sound l.registry := hleads.sound (Registry.sound_of_make hmake)
  have hstaged : Staged l.registry := hleads.staged (Registry.staged_of_make hmake)
  have hl' : l' = as.foldl Link.onResponse l := Link.foldl_onFrame hread
  have hlk : lk = (as.take k).foldl Link.onResponse l :=
    Link.foldl_onFrame (List.forall₂_take k hread)
  have hdemux : l.Demultiplexes as l' := by
    rw [hl']
    exact Link.demultiplexes_foldl hsound hstaged hready hids
  refine ⟨hdemux, ?_, ?_⟩
  · rw [hl', hlk]
    exact Link.foldl_onResponse_late hsound hstaged hready hids
  · intro gs bs hreads hp hnone hnodup l''
    have hl'' : l'' = bs.foldl Link.onResponse l := Link.foldl_onFrame hreads
    have hdemux' : l.Demultiplexes bs l'' := by
      rw [hl'']
      exact Link.demultiplexes_foldl hsound hstaged hready fun b hb => hids b (hp.mem_iff.mpr hb)
    have hsound' : Sound l'.registry := by
      rw [hl']
      exact (Link.leadsTo_foldl_onResponse l as).sound hsound
    have hsound'' : Sound l''.registry := by
      rw [hl'']
      exact (Link.leadsTo_foldl_onResponse l bs).sound hsound
    exact hdemux.perm hdemux' hsound' hsound'' hp hnone hnodup

/-- Two requests are pending on a link that is ready. -/
def servingTwo : List Action := serving ++ [.registry .register]

/-- The frame that answers a request with success. -/
def success (id : RequestId) : Frame :=
  ("\x7b\"callbackIdx\":" ++ id.text ++ ",\"type\":\"ok\"\x7d").toUTF8

/-- The second request is answered first, and twice. Then the peer closes, under an
identifier that nobody has, and still answers the first request. -/
theorem answers_before_farewell :
    let l := (fresh.run servingTwo).link
    let fs := [success ⟨2⟩, success ⟨2⟩, announcement ⟨9⟩, success ⟨1⟩]
    let l' := fs.foldl Link.onFrame l
    l'.outcome? ⟨⟨2⟩, ⟨2⟩⟩ = some (.ok .ok) ∧
      l'.outcome? ⟨⟨1⟩, ⟨1⟩⟩ = some (.error (.closing "bye")) ∧
      l'.lifecycle = .closed ∧ l'.registry.closedWith = some (.closing "bye") ∧
      l'.registry.unmatched = [⟨2⟩, ⟨9⟩, ⟨1⟩] := by
  intro l fs l'
  let as : List Response :=
    [⟨⟨2⟩, .ok⟩, ⟨⟨2⟩, .ok⟩, ⟨⟨9⟩, .closingError "bye"⟩, ⟨⟨1⟩, .ok⟩]
  have hmake : Registry.make 2 .block = .ok fresh.link.registry := rfl
  have hready : l.lifecycle = .ready := by decide +kernel
  have hread : List.Forall₂ (fun f a => l.codec.deserialize f = .ok a) fs as := by
    have hcodec : l.codec = .json := rfl
    have htwo : Codec.json.deserialize (success ⟨2⟩) = .ok ⟨⟨2⟩, .ok⟩ := rfl
    rw [hcodec]
    exact .cons htwo (.cons htwo (.cons rfl (.cons rfl .nil)))
  have hids : ∀ a ∈ as, a.id ≠ RequestId.handshake := by
    simp only [as, List.forall_mem_cons]
    decide
  have hpending : l.registry.pending = [⟨⟨1⟩, ⟨1⟩⟩, ⟨⟨2⟩, ⟨2⟩⟩] := by decide +kernel
  have hempty : l.registry.unmatched = [] := by decide +kernel
  have hsecond : verdict? as ⟨2⟩ = some (.ok .ok) := Response.verdict?_cons_self _ _
  have hfirst : verdict? as ⟨1⟩ = some (.error (.closing "bye")) := by
    rw [Response.verdict?_cons_of_ne rfl (by decide), Response.verdict?_cons_of_ne rfl (by decide),
      Response.verdict?_cons_some rfl]
  obtain ⟨h, -, -⟩ := answers_demultiplexed hmake servingTwo hready hread hids
  obtain ⟨hlife, hclosed⟩ := h.ends "bye" rfl
  have hunmatched := h.unmatched
  rw [hpending, hempty] at hunmatched
  refine ⟨?_, ?_, hlife, hclosed, ?_⟩
  · rw [h.outcome ⟨⟨2⟩, ⟨2⟩⟩ (by rw [hpending]; decide), hsecond]
  · rw [h.outcome ⟨⟨1⟩, ⟨1⟩⟩ (by rw [hpending]; decide), hfirst]
  · rw [hunmatched]
    decide

end Scene

end Switchboard
