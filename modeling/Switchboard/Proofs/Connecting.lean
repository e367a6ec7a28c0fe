import Switchboard.Proofs.Attempts
import Switchboard.Proofs.Deadlines
import Switchboard.Proofs.Onlookers
import Switchboard.Proofs.OutboundOrder

/-!
The outcome of connecting. With usable options there is always a link to connect, and
whatever the peer does, the call that connects it ends with the first thing that is decided:
it is connected if the peer accepts the handshake, it has run out of time if the clock
decides, and otherwise the handshake has failed. A link that is not opened goes from connecting
to closed at one stroke; nobody was registered with it but the handshake, and its peer has
received the setup at most and comes to the end of the stream. The clock decides when the call
looks at it and a whole millisecond has come at or after the deadline.
-/
namespace Switchboard

open Registry (Sound Staged LeadsTo Change)

namespace Registry

variable {r s : Registry}

/-- The move with which a link gets ready. -/
def opening : Move := ⟨.connecting, .ready⟩

theorem opening_mem_after {op : Op} (h : r.lifecycle = .ready → opening ∈ r.moves)
    (hready : (r.after op).lifecycle = .ready) : opening ∈ (r.after op).moves := by
  by_cases hop : op = .markReady
  · subst hop
    by_cases hc : r.lifecycle = .connecting
    · simp [after, act, markReady, hc, moveTo, opening]
    · have hsame : r.after .markReady = r := by simp [after, act, markReady, hc]
      rw [hsame] at hready ⊢
      exact h hready
  · exact (LeadsTo.after r op).moves_grow.mem (h ((change_of_act r op).ready hready hop))

/-- Nobody but the handshake is registered with a registry that is never opened. -/
theorem id_of_granted_of_unopened {ops : List Op} (hr : r.lifecycle = .ready → opening ∈ r.moves)
    (hnever : opening ∉ (r.run ops).moves) {g : Handle} (hg : g ∈ r.granted ops) :
    g.id = RequestId.handshake := by
  induction ops generalizing r with
  | nil => exact absurd hg List.not_mem_nil
  | cons op ops ih =>
    rcases List.mem_append.mp hg with hnow | hlater
    · have hc : Change r op (r.after op) (r.grants op) := change_of_act r op
      rw [Option.mem_toList.mp hnow] at hc
      generalize r.after op = s at hc
      cases hc with
      | enters _ hready _ =>
        have hleads : r.LeadsTo (r.run (op :: ops)) := ⟨op :: ops, rfl⟩
        exact absurd (hleads.moves_grow.mem (hr hready)) hnever
      | greets _ _ => rfl
    · exact ih (opening_mem_after hr) hnever hlater

end Registry

theorem Course.eq_refused {ms : List Move} {s : Lifecycle} {f : Option Failure}
    (h : Course ms s f) (hbegins : refused <+: ms) : ms = refused ∧ s = .closed := by
  obtain ⟨way, hway, hstart⟩ := h.exists_way
  have hrefused : ∀ way ∈ ways, refused <+: way → way = refused := by decide
  obtain rfl := hrefused way hway (hbegins.trans hstart)
  have hms : ms = refused := hstart.eq_of_length_le hbegins.length_le
  refine ⟨hms, ?_⟩
  rw [← h.last, hms]
  rfl

namespace Decision

variable {d : Decision}

theorem answer_eq_connected_iff : d.answer = .connected ↔ d = accepted := by
  cases d <;> simp [answer]

theorem answer_eq_refused_iff {m : String} :
    d.answer = .failed (.handshakeFailed m) ↔ d = refused m := by
  cases d <;> simp [answer, Link.connectTimeout]

theorem answer_eq_timeout_iff {limit : Duration} (hd : d.isExpiry = true → d = expired limit) :
    d.answer = .failed (.connectionTimeout limit.wholeMillis) ↔ d = expired limit := by
  cases d with
  | accepted => simp [answer]
  | refused m => simp [answer]
  | expired l =>
    obtain rfl : l = limit := expired.inj (hd rfl)
    simp [answer, Link.connectTimeout]

end Decision

namespace Link

variable {l l' : Link}

/-- The frame of the setup, if it can be encoded. -/
def setupFrames (l : Link) (s : Setup) : List Frame :=
  match l.codec.serialize RequestId.handshake (.connect s) with
  | .ok f => [f]
  | .error _ => []

theorem outbox_establish (l : Link) (now : Instant) (s : Setup) (limit : Duration)
    (deadline : Instant) :
    ∃ fs, fs <+: l.setupFrames s ∧
      (l.establish now s limit deadline).1.outbox = l.outbox ++ fs := by
  have hcases := l.connect_cases s
  unfold establish
  generalize l.connect s = a at hcases ⊢
  obtain ⟨k, answer⟩ := a
  dsimp only at hcases
  have hqueue : ∃ fs, fs <+: l.setupFrames s ∧ k.outbox = l.outbox ++ fs := by
    rcases hcases with ⟨f, -, rfl⟩ | ⟨h, -, -, ⟨-, hsame⟩ | ⟨g, hg, rfl⟩⟩
    · exact ⟨[], List.nil_prefix, (List.append_nil _).symm⟩
    · exact ⟨[], List.nil_prefix, hsame.trans (List.append_nil _).symm⟩
    · refine ⟨[g], ?_, rfl⟩
      simp [setupFrames, hg]
  cases answer with
  | error f => exact hqueue
  | ok h =>
    dsimp only
    rw [k.outbox_awaitGreeting now h limit deadline]
    exact hqueue

theorem Follows.halts {queued : List Frame} {read : ByteArray} (h : l.Follows queued read)
    (hend : l.Halts l') : l'.Follows queued read := by
  cases h with
  | flowing _ _ _ hqueued hsizes hbytes =>
    rw [← hend.outbound] at hbytes
    refine .stopped (Or.inl hend.ended) ?_ hsizes hbytes
    rw [hqueued]
    exact List.prefix_append _ _
  | stopped _ hsent hsizes hbytes =>
    rw [← hend.outbound] at hbytes
    exact .stopped (Or.inl hend.ended) hsent hsizes hbytes

theorem Follows.failRead {queued : List Frame} {read : ByteArray} (h : l.Follows queued read)
    (m : String) : (l.failRead m).Follows queued read := by
  unfold Link.failRead
  split
  · exact h.halts (l.halts_endLoop_of_error _)
  · exact h

theorem Follows.failWrite {queued : List Frame} {read : ByteArray} (h : l.Follows queued read)
    (m : String) : (l.failWrite m).Follows queued read := by
  rcases l.failWrite_cases m with ⟨rest, heq⟩ | heq
  · rw [heq]
    have hend := halts_endLoop_of_error { l with outbox := rest } (.io m)
    exact h.halts ⟨hend.ended, hend.linkOpen, hend.outbound⟩
  · rwa [heq]

theorem Follows.drained {queued : List Frame} {read b : ByteArray} (h : l.Follows queued read)
    {stream : Stream} (hpeer : stream.peerOpen = l.stream.peerOpen)
    (hopen : stream.linkOpen = l.stream.linkOpen)
    (hb : b ++ stream.outbound = l.stream.outbound) :
    Follows { l with stream := stream } queued (read ++ b) := by
  cases h with
  | flowing hgoing hpeerOpen hlinkOpen hqueued hsizes hbytes =>
    refine .flowing hgoing (hpeer.trans hpeerOpen) (hopen.trans hlinkOpen) hqueued hsizes ?_
    rwa [← hb, ByteArray.append_assoc, ← ByteArray.append_assoc] at hbytes
  | stopped hgone hsent hsizes hbytes =>
    rw [← hb, ByteArray.append_assoc, ← ByteArray.append_assoc] at hbytes
    refine .stopped (hgone.imp_right fun ⟨hclosed, hempty⟩ => ⟨hpeer.trans hclosed, ?_⟩) hsent
      hsizes hbytes
    rw [hempty] at hb
    exact (ByteArray.append_eq_empty_iff.mp hb).2

/-- The peer of a closed link comes to the end of the stream when everything is still. -/
theorem Agrees.peerAtEnd (h : l.Agrees) {held : Bool} (hrest : l.ready held = [])
    (hread : l.stream.outbound.isEmpty = true) (hroom : l.stream.capacity ≠ some 0)
    (hclosed : l.lifecycle = .closed) : l.stream.peerAtEnd = true := by
  have hended : l.loop.isEnded = true := by
    by_contra hgoing
    have htakes := Stream.writable_of_read hread hroom
    exact (h.held_of_ready hrest htakes (Bool.eq_false_iff.mpr hgoing)).1 hclosed
  simp [Stream.peerAtEnd, (h.ends hended).2, hread]

/-- The clock has decided about the first look if its time was over. -/
theorem late_of_openingDecision? (l : Link) (now : Instant) (s : Setup) (limit : Duration)
    (deadline : Instant) (d : Decision)
    (hd : l.openingDecision? now s limit deadline = some d) (hexpiry : d.isExpiry = true) :
    d = .expired limit ∧ now.reached deadline = true := by
  unfold openingDecision? at hd
  split at hd
  · cases hd
    cases hexpiry
  · exact Decision.of_byClock? hd

/-- Nobody has done anything with the link. -/
structure IsNew (l : Link) : Prop where
  connecting : l.lifecycle = .connecting
  ungreeted : l.registry.greeted = false
  staged : Staged l.registry
  onCourse : l.registry.OnCourse
  running : l.loop.isEnded = false
  unasked : l.shutdown = false

/-! What the peer says -/

/-- Well-formed answers to other requests decide nothing, unless the peer announces that it
closes. -/
theorem decisionOfFrame?_eq_none_iff {f : Frame} : l.decisionOfFrame? f = none ↔
    ∃ a, l.codec.deserialize f = .ok a ∧ a.id ≠ RequestId.handshake ∧
      ∀ m, a.body ≠ .closingError m := by
  unfold decisionOfFrame?
  cases l.codec.deserialize f with
  | error e => simp
  | ok a =>
    obtain ⟨id, b⟩ := a
    by_cases hid : id = RequestId.handshake
    · subst hid
      cases b <;> simp [Response.decision?, handshakeComplaint, RequestId.isHandshake]
    · cases b <;> simp [Response.decision?, RequestId.isHandshake, hid]

theorem decisionOfFrame?_eq_accepted_iff {f : Frame} : l.decisionOfFrame? f = some .accepted ↔
    l.codec.deserialize f = .ok ⟨RequestId.handshake, .ok⟩ := by
  unfold decisionOfFrame?
  cases l.codec.deserialize f with
  | error e => simp [Decision.brokenBy]
  | ok a =>
    obtain ⟨id, b⟩ := a
    by_cases hid : id = RequestId.handshake
    · subst hid
      cases b <;> simp [Response.decision?, handshakeComplaint, RequestId.isHandshake]
    · cases b <;> simp [Response.decision?, RequestId.isHandshake, hid, Decision.brokenBy]

end Link

theorem Plan.isNew_of_link {p : Plan} {policy : Policy} {stream : Stream} {l : Link}
    (hlink : p.link policy stream = .ok l) : l.IsNew := by
  obtain ⟨r, hmake, rfl⟩ := Plan.eq_of_link hlink
  obtain ⟨g, -, hr⟩ := Registry.eq_of_make hmake
  exact ⟨congrArg Registry.lifecycle hr, congrArg Registry.greeted hr,
    Registry.staged_of_make hmake, Registry.onCourse_of_make hmake, rfl, rfl⟩

namespace Scene

variable {t : Scene} {h : Handle} {limit : Duration} {deadline : Instant}
  {d : Option Decision} {i : Incident} {queued : List Frame} {read : ByteArray}

/-! What the peer gets -/

/-- The bytes that the peer reads. -/
def gets (s : Scene) : Occurrence → ByteArray
  | .incident i => s.taken i
  | .sip n => s.link.stream.outbound.extract 0 n
  | .resize _ => .empty

def gotIn : Scene → List Occurrence → ByteArray
  | _, [] => .empty
  | s, o :: os => s.gets o ++ gotIn (s.onOccurrence o) os

theorem making_onOccurrence (t : Scene) (o : Occurrence) :
    (t.onOccurrence o).link.making = t.link.making := by
  cases o with
  | incident i => exact t.making_onIncident i
  | sip n => rfl
  | resize capacity => rfl

theorem codec_runOccurrences (t : Scene) (occurrences : List Occurrence) :
    (t.runOccurrences occurrences).link.codec = t.link.codec :=
  List.foldlRecOn (motive := fun u => u.link.codec = t.link.codec) occurrences onOccurrence rfl
    fun u hu o _ => (congrArg Prod.fst (u.making_onOccurrence o)).trans hu

namespace Attempts

variable (ha : t.Attempts h limit deadline d)

include ha

theorem queues_eq_nil {a : Action} (hi : (Incident.act a).isAmbient = true) :
    t.queues a = [] := by
  have hsame : (∀ e, a ≠ .loop e) → (t.perform a).link.outbox = t.link.outbox →
      t.queues a = [] := by
    intro hloop houtbox
    exact queues_of_append hloop (houtbox.trans (List.append_nil _).symm)
  cases a with
  | loop e => rfl
  | poll n =>
    refine hsame (fun _ => Action.noConfusion) ?_
    rw [perform]
    cases hn : t.calls[n]? with
    | none => rfl
    | some c =>
      rw [ha.eq_of_mem_calls (List.mem_of_getElem? hn)]
      dsimp only
      rw [link_rejoin]
      exact t.link.outbox_awaitGreeting t.now h limit deadline
  | advance e => exact hsame (fun _ => Action.noConfusion) rfl
  | peerWrite b => exact hsame (fun _ => Action.noConfusion) rfl
  | peerRead => exact hsame (fun _ => Action.noConfusion) rfl
  | peerClose => exact hsame (fun _ => Action.noConfusion) rfl
  | _ => cases hi

theorem follows_onIncident (hf : t.link.Follows queued read) (hi : i.isAmbient = true) :
    (t.onIncident i).link.Follows queued (read ++ t.taken i) := by
  cases i with
  | readError m => exact (ByteArray.append_empty (b := read)).symm ▸ hf.failRead m
  | writeError m => exact (ByteArray.append_empty (b := read)).symm ▸ hf.failWrite m
  | act a =>
    have hnext := follows_perform ha.quiet hf (Incident.isOwn_of_isAmbient hi)
    rwa [ha.queues_eq_nil hi, List.append_nil] at hnext

theorem follows_onOccurrence (hf : t.link.Follows queued read) {o : Occurrence}
    (ho : o.isAmbient = true) : (t.onOccurrence o).link.Follows queued (read ++ t.gets o) := by
  cases o with
  | incident i => exact ha.follows_onIncident hf ho
  | sip n =>
    refine hf.drained rfl rfl ?_
    rw [gets, ByteArray.extract_append_extract, Nat.zero_min, ByteArray.extract_zero_max_size]
  | resize capacity => exact hf.drained rfl rfl (ByteArray.empty_append)

theorem follows_runOccurrences (hf : t.link.Follows queued read) {occurrences : List Occurrence}
    (hall : ∀ o ∈ occurrences, o.isAmbient = true) :
    (t.runOccurrences occurrences).link.Follows queued (read ++ t.gotIn occurrences) := by
  induction occurrences generalizing t d read with
  | nil =>
    rw [gotIn, ByteArray.append_empty]
    exact hf
  | cons o os ih =>
    obtain ⟨hfirst, hrest⟩ := List.forall_mem_cons.mp hall
    have hrun := ih (ha.onOccurrence hfirst) (ha.follows_onOccurrence hf hfirst) hrest
    rwa [ByteArray.append_assoc] at hrun

end Attempts

/-! The start -/

/-- The call that connects a link has had its first look. -/
def outset (l : Link) (now : Instant) (clones : Nat) (s : Setup) (limit : Duration)
    (deadline : Instant) : Scene :=
  join { link := l, now := now, clones := clones } (l.establish now s limit deadline)

section Outset

variable {l : Link} (now : Instant) (clones : Nat) (s : Setup) (limit : Duration)
  (deadline : Instant)

theorem link_outset : (outset l now clones s limit deadline).link =
    (l.establish now s limit deadline).1 :=
  link_join _ _

/-- The first look of the call at a new link is the beginning of an attempt. -/
theorem attempts_outset (hl : Sound l.registry) (hagrees : l.Agrees) (hnew : l.IsNew) :
    ∃ h, (outset l now clones s limit deadline).Attempts h limit deadline
      (l.openingDecision? now s limit deadline) := by
  obtain ⟨h, hpending, hheeds, hgoes⟩ := Link.heeds_establish hl hnew.connecting hnew.ungreeted
    hnew.running now s limit deadline
  have hsound := (l.leadsTo_establish now s limit deadline).sound hl
  have hstaged := (l.leadsTo_establish now s limit deadline).staged hnew.staged
  have hproper := Link.routine_proper.establish l now s limit deadline (Or.inl rfl)
  have hcourse : (l.establish now s limit deadline).1.registry.OnCourse :=
    hproper.preserves (fun r op hop hr => (Registry.change_of_act r op).onCourse hop hr)
      hnew.onCourse
  have hagrees := hagrees.of_spares (l.spares_establish now s limit deadline)
  have hlate := l.late_of_openingDecision? now s limit deadline
  unfold outset
  generalize l.establish now s limit deadline = a at hheeds hgoes hsound hstaged hcourse hagrees
  generalize l.openingDecision? now s limit deadline = d at hheeds hgoes hlate ⊢
  obtain ⟨k, p⟩ := a
  obtain rfl := hgoes
  cases d with
  | none =>
    obtain ⟨hconnecting, hsame, hunasked⟩ := hheeds
    exact ⟨h, hsound, hstaged, hcourse, hagrees, rfl, rfl, hconnecting, hsame ▸ hpending,
      hunasked.trans hnew.unasked⟩
  | some e =>
    refine ⟨h, hsound, hstaged, hcourse, hagrees, Or.inl ⟨rfl, rfl⟩, ?_, hlate e rfl⟩
    exact (hheeds.course hcourse).symm ▸ List.prefix_refl _

end Outset

/-! The call -/

namespace Attempts

variable {e : Decision} (ha : t.Attempts h limit deadline d)

include ha

/-- The call ends with what is decided. -/
theorem call : (∃ e, d = some e ∧ t.calls = [] ∧ t.answers = [e.answer]) ∨
    t.calls = [.greeted h limit deadline] ∧ t.answers = [] := by
  have hresolves := ha.resolves
  cases d with
  | none => exact Or.inr ⟨hresolves.calls, hresolves.answers⟩
  | some e =>
    rcases hresolves.call with hended | ⟨hcalls, hanswers, -⟩
    · exact Or.inl ⟨e, rfl, hended⟩
    · exact Or.inr ⟨hcalls, hanswers⟩

theorem answers_eq_iff (a : Answer) :
    t.answers = [a] ↔ t.calls = [] ∧ ∃ e, d = some e ∧ e.answer = a := by
  rcases ha.call with ⟨e, rfl, hcalls, hanswers⟩ | ⟨hcalls, hanswers⟩
  · simp [hcalls, hanswers]
  · simp [hcalls, hanswers]

theorem decided (hd : d = some e) : t.Decided h limit deadline e := by
  subst hd
  exact ha.resolves

theorem expects (hd : d = none) : t.Expects h limit deadline := by
  subst hd
  exact ha.resolves

theorem connected_iff : t.answers = [.connected] ↔ t.calls = [] ∧ d = some .accepted := by
  rw [ha.answers_eq_iff]
  simp [Decision.answer_eq_connected_iff]

theorem refused_iff (m : String) : t.answers = [.failed (.handshakeFailed m)] ↔
    t.calls = [] ∧ d = some (.refused m) := by
  rw [ha.answers_eq_iff]
  simp [Decision.answer_eq_refused_iff]

theorem timeout_iff : t.answers = [.failed (.connectionTimeout limit.wholeMillis)] ↔
    t.calls = [] ∧ d = some (.expired limit) := by
  rw [ha.answers_eq_iff]
  refine and_congr_right fun _ => ⟨?_, fun hd => ⟨_, hd, rfl⟩⟩
  rintro ⟨e, hd, hanswer⟩
  have hlate := fun hexpiry => ((ha.decided hd).late hexpiry).1
  rw [hd, (Decision.answer_eq_timeout_iff hlate).mp hanswer]

/-- A look when the time is over tells so, if nothing else is decided. -/
theorem expires (hd : d = none) (hover : t.now.reached deadline = true) :
    (t.perform (.poll 0)).calls = [] ∧
      (t.perform (.poll 0)).answers = [.failed (.connectionTimeout limit.wholeMillis)] := by
  have hfirst : t.calls[0]? = some (.greeted h limit deadline) := by simp [(ha.expects hd).calls]
  have hdecision : t.decision? (.act (.poll 0)) = some (.expired limit) := by
    rw [decision?, hfirst, Option.bind_some, Call.decision?, Call.greeting?, Option.bind_some]
    exact if_pos hover
  have hlook := ha.onIncident (i := .act (.poll 0)) rfl
  rw [hd, Option.none_or, hdecision] at hlook
  rcases hlook.resolves.call with hended | ⟨-, -, hexpiry, -⟩
  · exact hended
  · cases hexpiry

/-- At rest the call waits just if nothing is decided, and then its time is not over. -/
theorem rest (hrest : t.AtRest) :
    (t.calls ≠ [] ↔ d = none) ∧ (d = none → t.now.reached deadline = false) := by
  have hstuck : ∀ c, t.calls = [c] → (t.perform (.poll 0)).calls ≠ [] := by
    intro c hc hended
    have hwaits := hrest.calls c (hc ▸ List.mem_singleton_self c)
    simp only [perform, hc, List.getElem?_cons_zero] at hended
    unfold Call.isStuck at hwaits
    generalize c.poll t.now t.link = a at hended hwaits
    obtain ⟨k, p⟩ := a
    cases p with
    | waiting c' => simp [rejoin, hc] at hended
    | finished o => cases hwaits
  constructor
  · rcases ha.call with ⟨e, rfl, hcalls, -⟩ | ⟨hcalls, -⟩
    · simp [hcalls]
    · simp only [hcalls, ne_eq, List.cons_ne_self, not_false_eq_true, true_iff]
      cases hd : d with
      | none => rfl
      | some e => exact absurd (ha.decided hd).look.1 (hstuck _ hcalls)
  · intro hd
    by_contra hover
    exact hstuck _ (ha.expects hd).calls (ha.expires hd (Bool.eq_true_of_not_eq_false hover)).1

/-! The link -/

theorem undecided (hd : d = none) :
    t.link.lifecycle = .connecting ∧ t.link.registry.moves = [] := by
  have hconnecting := (ha.expects hd).connecting
  have hcourse := ha.onCourse
  rw [Registry.OnCourse, show t.link.registry.lifecycle = .connecting from hconnecting] at hcourse
  exact ⟨hconnecting, hcourse.of_connecting.1⟩

/-- A link that is not opened is closed at one stroke. -/
theorem closed (hd : d = some e) (hne : e ≠ .accepted) : t.link.lifecycle = .closed ∧
    t.link.registry.moves = Course.refused ∧ t.link.registry.pending = [] := by
  have hbegins : Course.refused <+: t.link.registry.moves := by
    have hcourse := (ha.decided hd).course
    cases e with
    | accepted => exact absurd rfl hne
    | refused m => exact hcourse
    | expired limit => exact hcourse
  obtain ⟨hmoves, hclosed⟩ := Course.eq_refused ha.onCourse hbegins
  exact ⟨hclosed, hmoves, ha.staged.closed hclosed⟩

theorem released (hd : d = some e) (hne : e ≠ .accepted) (hstill : t.Still)
    (hroom : t.link.stream.capacity ≠ some 0) : t.link.stream.peerAtEnd = true :=
  ha.agrees.peerAtEnd hstill.loop hstill.read hroom (ha.closed hd hne).1

end Attempts

/-! What can be relied on -/

/-- What can be relied on by whoever connects the link `l`, if `d` is the first thing that is
decided. -/
structure Concludes (l : Link) (t : Scene) (limit : Duration) (deadline : Instant)
    (d : Option Decision) : Prop where
  /-- The call has ended with what is decided, or waits. -/
  call : (∃ e, d = some e ∧ t.calls = [] ∧ t.answers = [e.answer]) ∨
    ∃ h, t.calls = [.greeted h limit deadline] ∧ t.answers = []
  connected_iff : t.answers = [.connected] ↔ t.calls = [] ∧ d = some .accepted
  timeout_iff : t.answers = [.failed (.connectionTimeout limit.wholeMillis)] ↔
    t.calls = [] ∧ d = some (.expired limit)
  refused_iff : ∀ m, t.answers = [.failed (.handshakeFailed m)] ↔
    t.calls = [] ∧ d = some (.refused m)
  late : d = some (.expired limit) → t.now.reached deadline = true
  /-- The next look tells what is decided. -/
  look : ∀ e, d = some e →
    (t.perform (.poll 0)).calls = [] ∧ (t.perform (.poll 0)).answers = [e.answer]
  /-- If nothing is, it tells whether the time is over. -/
  expires : d = none → t.now.reached deadline = true → (t.perform (.poll 0)).calls = [] ∧
    (t.perform (.poll 0)).answers = [.failed (.connectionTimeout limit.wholeMillis)]
  /-- At rest the call waits just if nothing is decided, and then its time is not over. -/
  rest : t.AtRest → (t.calls ≠ [] ↔ d = none) ∧ (d = none → t.now.reached deadline = false)
  undecided : d = none → t.link.lifecycle = .connecting ∧ t.link.registry.moves = []
  opened : d = some .accepted → [Registry.opening] <+: t.link.registry.moves
  /-- A link that is not opened is closed at one stroke, and leaves nothing pending. -/
  closed : ∀ e, d = some e → e ≠ .accepted → t.link.lifecycle = .closed ∧
    t.link.registry.moves = Course.refused ∧ t.link.registry.pending = []
  /-- Nobody but the handshake has been registered with it. -/
  unserved : ∀ e, d = some e → e ≠ .accepted → l.registry.LeadsTo t.link.registry ∧
    ∀ ops, t.link.registry = l.registry.run ops →
      ∀ g ∈ l.registry.granted ops, g.id = RequestId.handshake
  /-- Its peer comes to the end of the stream, unless the stream cannot take a single byte. -/
  released : ∀ e, d = some e → e ≠ .accepted → t.Still → t.link.stream.capacity ≠ some 0 →
    t.link.stream.peerAtEnd = true
  /-- Well-formed answers under ordinary identifiers are ignored, unless the peer announces
  that it closes. -/
  ignored : ∀ f, t.link.decisionOfFrame? f = none ↔
    ∃ a, l.codec.deserialize f = .ok a ∧ a.id ≠ RequestId.handshake ∧
      ∀ m, a.body ≠ .closingError m
  accepted : ∀ f, t.link.decisionOfFrame? f = some .accepted ↔
    l.codec.deserialize f = .ok ⟨RequestId.handshake, .ok⟩

theorem Attempts.concludes (ha : t.Attempts h limit deadline d) {l : Link}
    (hc : l.lifecycle = .connecting) (hleads : l.registry.LeadsTo t.link.registry)
    (hcodec : t.link.codec = l.codec) : Concludes l t limit deadline d where
  call := ha.call.imp_right fun hwaits => ⟨h, hwaits⟩
  connected_iff := ha.connected_iff
  timeout_iff := ha.timeout_iff
  refused_iff := ha.refused_iff
  late hd := ((ha.decided hd).late rfl).2
  look _ hd := (ha.decided hd).look
  expires := ha.expires
  rest := ha.rest
  undecided := ha.undecided
  opened hd := (ha.decided hd).course
  closed _ := ha.closed
  unserved e hd hne := by
    refine ⟨hleads, fun ops hops g hg => ?_⟩
    have hready : l.registry.lifecycle = .ready → Registry.opening ∈ l.registry.moves := by
      rw [show l.registry.lifecycle = .connecting from hc]
      exact Lifecycle.noConfusion
    have hnever : Registry.opening ∉ (l.registry.run ops).moves := by
      rw [← hops, (ha.closed hd hne).2.1]
      decide
    exact Registry.id_of_granted_of_unopened hready hnever hg
  released _ := ha.released
  ignored f := hcodec ▸ Link.decisionOfFrame?_eq_none_iff
  accepted f := hcodec ▸ Link.decisionOfFrame?_eq_accepted_iff

/-- With usable options there is a link, and an open stream is greeted at once if the clock
can hold the deadline. Then, whatever stream, peer and clock do and in whatever order the loop
does its part, the call that connects ends with the first thing that is decided, and what that
is can be relied on. The peer receives the setup at most. -/
theorem outcome_of_connecting {p : Plan} {policy : Policy}
    (hvalid : p.options.validate = .ok policy) (capacity : Option Nat) :
    let limit := p.options.connectTimeout
    ∃ l, p.link policy { capacity := capacity } = .ok l ∧
      (p.endpoint = .stream → capacity = none → ∀ now : Instant,
        now.nanos + limit.nanos < Instant.limit →
        let a := l.establish now p.setup limit ⟨now.nanos + limit.nanos⟩
        p.attempt now = .under a.1 a.2) ∧
      ∀ now clones deadline occurrences, (∀ o ∈ occurrences, o.isAmbient = true) →
        let start := outset l now clones p.setup limit deadline
        let d := (l.openingDecision? now p.setup limit deadline).or
          (start.firstDecision? occurrences)
        Concludes l (start.runOccurrences occurrences) limit deadline d ∧
          (({} : Deframer).feed (start.gotIn occurrences)).decoded <+: l.setupFrames p.setup := by
  intro limit
  obtain ⟨l, hlink, -⟩ := Plan.link_of_validate hvalid { capacity := capacity }
  refine ⟨l, hlink, ?_, ?_⟩
  · rintro hendpoint rfl now hreach
    have hplan : p.validate = .ok policy := by
      simp [Plan.validate, hvalid, hendpoint, Endpoint.complaint]
    rw [Plan.attempt_of_inReach hplan hlink hreach, hendpoint]
    rfl
  · intro now clones deadline occurrences hall start d
    have hnew := Plan.isNew_of_link hlink
    obtain ⟨-, hsound, hagrees, -, hfollows⟩ := starts_of_link (s := { link := l }) hlink
    obtain ⟨h, hbegins⟩ := attempts_outset now clones p.setup limit deadline hsound hagrees hnew
    have hspares := l.spares_establish now p.setup limit deadline
    have hfirst := l.leadsTo_establish now p.setup limit deadline
    rw [← link_outset now clones] at hspares hfirst
    refine ⟨(hbegins.runOccurrences hall).concludes hnew.connecting
      (hfirst.trans (start.leadsTo_runOccurrences occurrences))
      ((start.codec_runOccurrences occurrences).trans hspares.codec), ?_⟩
    obtain ⟨fs, hsetup, hqueue⟩ := l.outbox_establish now p.setup limit deadline
    rw [← link_outset now clones] at hqueue
    have hrun := hbegins.follows_runOccurrences (hfollows.of_spares hspares hqueue) hall
    rw [ByteArray.empty_append, List.nil_append] at hrun
    exact hrun.decoded_prefix.trans hsetup

/-- The peer accepts the handshake, and the loop reads that. -/
def accepting : List Occurrence :=
  [.incident (.act (.peerWrite acceptance.packet)), .incident (.act (.loop .receive))]

/-- The peer closes its end, and the loop comes to it. -/
def hangingUp : List Occurrence :=
  [.incident (.act .peerClose), .incident (.act (.loop .receive))]

/-- A client that waits that long for the connection has begun when the clock started. -/
def calling (limit : Duration) : Scene :=
  outset { registry := { gate := { ceiling := 4, policy := .reject, free := 4 } } } ⟨0⟩ 1 {}
    limit ⟨limit.nanos⟩

/-- A client that is accepted is connected, one whose peer closes is refused, and one that
nobody answers has run out of time after half a minute. -/
theorem outcome_when_accepted_closed_or_late :
    let start := calling (Duration.ofSeconds 30)
    let tardy : List Occurrence := [.incident (.act (.advance (Duration.ofSeconds 30)))]
    ((start.runOccurrences accepting).perform (.poll 0)).answers = [.connected] ∧
      ((start.runOccurrences hangingUp).perform (.poll 0)).answers =
        [.failed (.handshakeFailed "Connection closed: connection closed by peer")] ∧
      (start.runOccurrences hangingUp).link.registry.moves = Course.refused ∧
      ((start.runOccurrences tardy).perform (.poll 0)).answers =
        [.failed (.connectionTimeout 30000)] := by
  intro start tardy
  obtain ⟨l, hlink, -, hall⟩ := outcome_of_connecting
    (Plan.validate_patient (d := Duration.ofSeconds 30) (by decide)) none
  obtain rfl := Except.ok.inj hlink
  obtain ⟨haccepted, -⟩ := hall ⟨0⟩ 1 ⟨30000000000⟩ accepting (by decide)
  obtain ⟨hclosed, -⟩ := hall ⟨0⟩ 1 ⟨30000000000⟩ hangingUp (by decide)
  obtain ⟨htardy, -⟩ := hall ⟨0⟩ 1 ⟨30000000000⟩ tardy (by decide)
  let broken : Decision := .refused "Connection closed: connection closed by peer"
  refine ⟨(haccepted.look .accepted ?_).2, (hclosed.look broken ?_).2,
    (hclosed.closed broken ?_ nofun).2.1, (htardy.expires ?_ ?_).2⟩
  all_goals decide +kernel

/-- Half a millisecond is allowed for connecting, and the peer accepts after seven tenths of
one: the client is connected. -/
theorem connected_behind_time :
    let start := calling (Duration.ofMicros 500)
    let pause : List Occurrence :=
      [.incident (.act (.advance (Duration.ofMicros 700))), .incident (.act (.poll 0))]
    (Duration.ofMicros 500).nanos < (start.runOccurrences pause).now.nanos ∧
      start.firstDecision? pause = none ∧
      ((start.runOccurrences (pause ++ accepting)).perform (.poll 0)).answers = [.connected] := by
  intro start pause
  refine ⟨by decide +kernel, by decide +kernel, ?_⟩
  obtain ⟨l, hlink, -⟩ := Plan.link_of_validate
    (Plan.validate_patient (d := Duration.ofMicros 500) (by decide)) { capacity := none }
  obtain ⟨-, hsound, hagrees, -, -⟩ := starts_of_link (s := { link := l }) hlink
  have hnew := Plan.isNew_of_link hlink
  obtain rfl := Except.ok.inj hlink
  obtain ⟨h, hbegins⟩ := attempts_outset ⟨0⟩ 1 {} (Duration.ofMicros 500) ⟨500000⟩ hsound hagrees
    hnew
  have hall : ∀ o ∈ pause ++ accepting, o.isAmbient = true := by decide
  have hends := hbegins.runOccurrences hall
  exact (hends.decided (e := .accepted) (by decide +kernel)).look.2

end Scene

end Switchboard
