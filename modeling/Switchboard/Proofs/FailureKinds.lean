import Mathlib.Data.List.Induction
import Switchboard.Proofs.Refusals
import Switchboard.Proofs.Verdicts

/-!
What the kind of a failure says. Callers read off the failure of a request whether the
connection is gone: it is, or is about to be, just if the failure is a connection error. All
others are failures of one request, of which no other request and not even the lifecycle of
the link takes notice.
-/
namespace Switchboard

open Registry (Sound Staged LeadsTo LeadsBy Change)

/-- The request whose outcome the call waits for. -/
def Call.awaited? : Call → Option Handle
  | .settled h => some h
  | .settledBy h _ _ => some h
  | .answered h _ _ => some h
  | _ => none

namespace Link

variable {l : Link}

/-! What a handle tells -/

/-- What a step tells an ordinary request is a connection error just if the step closes the
link; otherwise the request alone is concerned. -/
theorem Tells.discerns {l' : Link} (htells : l.Tells l') (hl : Sound l.registry) {h : Handle}
    (hh : h ∈ l.registry.pending) (hid : h.id ≠ RequestId.handshake) {e : Failure}
    (he : l'.outcome? h = some (.error e)) :
    (e.isConnectionError = true ∧ l'.lifecycle = .closed) ∨
      (e.isConnectionError = false ∧ l'.lifecycle = l.lifecycle ∧
        ∀ g : Handle, g.ticket ≠ h.ticket → l'.outcome? g = l.outcome? g) := by
  cases htells with
  | nothing hushes =>
    have hsilent : l'.outcome? h = none :=
      (hushes.outcome? h.ticket (hl.isOpen hh).serial_lt).trans (hl.outcome?_eq_none hh)
    rw [hsilent] at he
    cases he
  | loss hopen hends herror =>
    have houtcome := hends.outcome h hh
    rw [houtcome] at he
    cases he
    exact Or.inl ⟨herror, hends.lifecycle⟩
  | @answer g o answers =>
    by_cases hticket : h.ticket = g.ticket
    · -- the tickets of the table are told apart
      have hgh : g = h := List.inj_on_of_nodup_map hl.tickets answers.mem hh hticket.symm
      subst hgh
      have ho : o = .error e := Option.some.inj (answers.outcome?.symm.trans he)
      exact Or.inr ⟨answers.mild hid e ho, answers.lifecycle hid, fun k hk => answers.others _ hk⟩
    · have hsilent : l'.outcome? h = none :=
        (answers.others h.ticket hticket).trans (hl.outcome?_eq_none hh)
      rw [hsilent] at he
      cases he

/-- A step that closes the link tells everybody who is pending that the connection is gone. -/
theorem Tells.drains {l' : Link} (htells : l.Tells l') (hopen : l.lifecycle ≠ .closed)
    (hclosed : l'.lifecycle = .closed) {h : Handle} (hh : h ∈ l.registry.pending) :
    ∃ e, l'.outcome? h = some (.error e) ∧ e.isConnectionError = true := by
  cases htells with
  | nothing hushes => exact absurd (hushes.closed hclosed) hopen
  | answer answers => exact absurd (answers.closed hclosed) hopen
  | loss _ hends herror => exact ⟨_, hends.outcome h hh, herror⟩

end Link

namespace Link

variable {l : Link}

/-- A link is failed with connection errors only. -/
theorem routine_blamesConnection : Routine Registry.BlamesConnection where
  atGate r op hop := by
    rintro f rfl
    cases hop
  settle r id o _ := nofun
  beginClosing r := nofun
  refuse r m _ := by
    rintro f hf
    cases hf
    rfl
  finish r m _ := by
    rintro f hf
    cases hf
    rfl

/-- What a link is made with and keeps. -/
def making (l : Link) : Codec × Duration := (l.codec, l.closeTimeout)

theorem Spares.making {l' : Link} (h : l.Spares l') : l'.making = l.making := by
  rw [Link.making, Link.making, h.codec, h.closeTimeout]

theorem making_writeBytes (l : Link) (b : ByteArray) : (l.writeBytes b).making = l.making := by
  unfold writeBytes
  split
  · rfl
  · exact (spares_onTransportError _ loopGone).making.trans (l.spares_onTransportError _).making

theorem making_endLoop (l : Link) : l.endLoop.making = l.making :=
  (l.spares_onTransportError loopGone).making

theorem making_endLoop_of_error (l : Link) (f : Failure) :
    (l.onTransportError f).endLoop.making = l.making :=
  (making_endLoop _).trans (l.spares_onTransportError f).making

theorem making_takeUp (l : Link) : l.takeUp.making = l.making := by
  unfold takeUp
  cases l.outbox with
  | nil => rfl
  | cons f rest =>
    dsimp only
    cases Frame.toBytes f with
    | ok b => exact making_writeBytes _ b
    | error e => exact making_endLoop_of_error _ _

theorem making_receive (l : Link) : l.receive.making = l.making := by
  unfold receive
  generalize l.inboundItem = a
  obtain ⟨item, d⟩ := a
  cases item with
  | frame f => exact (spares_onFrame _ f).making
  | fault f => exact making_endLoop_of_error _ _
  | finished => exact making_endLoop_of_error _ _
  | starved => rfl

theorem making_handle (l : Link) (e : Event) : (l.handle e).making = l.making := by
  cases e with
  | receive => exact l.making_receive
  | send => exact l.making_takeUp
  | continueWriting =>
    simp only [handle]
    cases l.loop with
    | writing rest => exact l.making_writeBytes rest
    | running => rfl
    | ended => rfl
  | stop => exact l.making_endLoop
  | release => exact l.making_endLoop

theorem making_failRead (l : Link) (m : String) : (l.failRead m).making = l.making := by
  unfold failRead
  split
  · exact l.making_endLoop_of_error _
  · rfl

theorem making_failWrite (l : Link) (m : String) : (l.failWrite m).making = l.making := by
  unfold failWrite
  split
  · exact making_endLoop_of_error _ _
  · exact l.making_endLoop_of_error _
  · rfl

end Link

namespace Scene

variable {s : Scene}

theorem making_onIncident (s : Scene) (i : Incident) :
    (s.onIncident i).link.making = s.link.making := by
  cases i with
  | readError m => exact s.link.making_failRead m
  | writeError m => exact s.link.making_failWrite m
  | act a =>
    cases hbytes : a.movesBytes with
    | false =>
      cases hfails : a.failsAll with
      | false => exact (s.spares_perform hfails hbytes).making
      | true =>
        cases a with
        | registry op => rfl
        | _ => cases hfails
    | true =>
      cases a with
      | loop e =>
        rw [onIncident, perform]
        split
        · exact s.link.making_handle e
        · rfl
      | peerWrite b => rfl
      | peerRead => rfl
      | peerClose => rfl
      | _ => cases hbytes

/-- Whatever happens to a link, it is failed with connection errors only. -/
theorem leadsBy_onIncident (s : Scene) {i : Incident} (hown : i.isOwn = true) :
    LeadsBy Registry.BlamesConnection s.link.registry (s.onIncident i).link.registry := by
  refine leadsBy_incident Link.routine_blamesConnection s ?_
  rintro a rfl
  refine ⟨?_, fun _ _ => nofun, ?_, fun _ _ _ => nofun⟩
  · rintro op rfl f rfl
    cases hown
  · rintro i c - -
    cases c with
    | closing deadline? =>
      rintro f hf
      cases hf
      rfl
    | dialling s limit deadline => exact nofun
    | _ => trivial

theorem candid_onIncident (h : s.link.registry.Candid) {i : Incident} (hown : i.isOwn = true) :
    (s.onIncident i).link.registry.Candid := by
  refine (s.leadsBy_onIncident hown).preserves (I := Registry.Candid) ?_ h
  intro r op hop hr
  have hc := Registry.change_of_act r op
  exact ⟨hc.sound hr.sound, hc.shut hr.shut, hc.closedByLoss hop hr.closedByLoss⟩

/-- What holds of a link in every run of its own. -/
structure Sincere (s : Scene) : Prop where
  candid : s.link.registry.Candid
  staged : Staged s.link.registry
  agrees : s.link.Agrees

theorem Sincere.onIncident (h : s.Sincere) {i : Incident} (hown : i.isOwn = true) :
    (s.onIncident i).Sincere where
  candid := candid_onIncident h.candid hown
  staged := (s.leadsTo_onIncident i).staged h.staged
  agrees := agrees_onIncident h.agrees (Incident.failsAll_of_isOwn hown)

theorem sincere_of_make {ceiling : Nat} {policy : Policy}
    (hmake : Registry.make ceiling policy = .ok s.link.registry)
    (hnew : s.link.loop = .running) : s.Sincere where
  candid := by
    obtain ⟨g, hg, hr⟩ := Registry.eq_of_make hmake
    refine ⟨Registry.sound_of_make hmake, ?_, ?_⟩
    · rw [hr]
      exact Gate.shut_of_make hg
    · intro f hf
      rw [hr] at hf
      cases hf
  staged := Registry.staged_of_make hmake
  agrees := by
    refine ⟨fun hclosed => ?_, fun hended => ?_⟩
    · obtain ⟨g, -, hr⟩ := Registry.eq_of_make hmake
      rw [Link.lifecycle, hr] at hclosed
      cases hclosed
    · rw [hnew] at hended
      cases hended

@[simp] theorem runIncidents_append (s : Scene) (before after : List Incident) :
    s.runIncidents (before ++ after) = (s.runIncidents before).runIncidents after :=
  List.foldl_append

theorem Sincere.runIncidents (h : s.Sincere) {incidents : List Incident}
    (hown : ∀ i ∈ incidents, i.isOwn = true) : (s.runIncidents incidents).Sincere :=
  List.foldlRecOn incidents Scene.onIncident h fun _ ht i hmem => ht.onIncident (hown i hmem)

theorem making_runIncidents (s : Scene) (incidents : List Incident) :
    (s.runIncidents incidents).link.making = s.link.making :=
  List.foldlRecOn (motive := fun t => t.link.making = s.link.making) incidents onIncident rfl
    fun t ht i _ => (t.making_onIncident i).trans ht

theorem codec_runIncidents (s : Scene) (incidents : List Incident) :
    (s.runIncidents incidents).link.codec = s.link.codec :=
  congrArg Prod.fst (s.making_runIncidents incidents)

/-- The request has been in the table at some moment of the run. -/
def HasIssued (s : Scene) (incidents : List Incident) (h : Handle) : Prop :=
  ∃ before after, incidents = before ++ after ∧ h ∈ (s.runIncidents before).link.registry.pending

theorem HasIssued.append {incidents : List Incident} {h : Handle}
    (hissued : s.HasIssued incidents h) (more : List Incident) :
    s.HasIssued (incidents ++ more) h := by
  obtain ⟨before, after, rfl, hh⟩ := hissued
  exact ⟨before, after ++ more, List.append_assoc _ _ _, hh⟩

/-- A handle that tells of a connection error is one of a link that has been closed. -/
theorem Sincere.closed_of_told (h : s.Sincere) {g : Handle} (hid : g.id ≠ RequestId.handshake)
    (hg : g ∈ s.link.registry.pending) {incidents : List Incident}
    (hown : ∀ i ∈ incidents, i.isOwn = true) {e : Failure}
    (he : (s.runIncidents incidents).link.outcome? g = some (.error e))
    (herror : e.isConnectionError = true) :
    (s.runIncidents incidents).link.lifecycle = .closed := by
  induction incidents using List.reverseRecOn with
  | nil =>
    have hnone : s.link.outcome? g = none := h.candid.sound.outcome?_eq_none hg
    exact absurd (hnone.symm.trans he) nofun
  | append_singleton incidents i ih =>
    have hbefore : ∀ j ∈ incidents, j.isOwn = true := fun j hj =>
      hown j (List.mem_append_left _ hj)
    have hi : i.isOwn = true := hown i (List.mem_append_right _ List.mem_cons_self)
    rw [runIncidents_append] at he ⊢
    have hsincere : (s.runIncidents incidents).Sincere := h.runIncidents hbefore
    obtain ⟨ops, hops⟩ := s.leadsTo_runIncidents incidents
    have hpending := (Registry.outcome?_run_of_pending h.candid.sound h.staged hg ops)
    rw [← hops] at hpending
    cases htold : (s.runIncidents incidents).link.outcome? g with
    | some o =>
      have hsame := ((s.runIncidents incidents).leadsTo_onIncident i).outcome? htold
      have ho : o = .error e := Option.some.inj (hsame.symm.trans he)
      exact ((s.runIncidents incidents).leadsTo_onIncident i).closed (ih hbefore (ho ▸ htold))
    | none =>
      have hmem : g ∈ (s.runIncidents incidents).link.registry.pending :=
        hpending.2 (hpending.1.symm.trans htold)
      rcases (tells_onIncident hsincere.candid.sound hsincere.staged hi).discerns
        hsincere.candid.sound hmem hid he with ⟨-, hclosed⟩ | ⟨hmild, -⟩
      · exact hclosed
      · exact absurd (hmild.symm.trans herror) nofun

end Scene

namespace Registry

variable {r s : Registry}

theorem Change.ordinary_of_granted {op : Op} {h : Handle} (hc : Change r op s (some h))
    (hr : Sound r) (hop : op.isAtGate = true) : h.id ≠ RequestId.handshake := by
  cases hc with
  | enters _ _ _ => exact hr.acquire_ne_handshake
  | greets _ _ => cases hop

end Registry

namespace Link

variable {l : Link}

/-- An errand that waits stands in line, or waits for the answer to its own request. -/
theorem waiting_proceed_cases (hl : Sound l.registry) {op : Registry.Op} {r : Registry}
    {a : Registration} (hc : Change l.registry op r a.handle?) (hop : op.isAtGate = true)
    (hloop : l.loop.isEnded = true → l.lifecycle = .closed) {now : Instant} {e : Errand}
    {d : Call} (hd : (proceed now e ({ l with registry := r }, a)).2 = .waiting d) :
    (∃ w, d = .inLine w e) ∨ ∃ h limit deadline?, d = .answered h limit deadline? ∧
      h.id ≠ RequestId.handshake ∧
      h ∈ (proceed now e ({ l with registry := r }, a)).1.registry.pending := by
  rcases waiting_proceed hd with ⟨w, -, rfl, -⟩ |
    ⟨g, p, limit, h, l', hgranted, rfl, hsent, hafter, -, rfl⟩
  · exact Or.inl ⟨w, rfl⟩
  · obtain rfl : a = .granted g := hgranted
    obtain ⟨hready, hgoing, hg⟩ := going_of_granted hc hop hloop
    rcases transmit_of_ready (l := { l with registry := r }) hready hgoing g p with
      ⟨f, -, hfails⟩ | ⟨hok, hsame⟩
    · rw [hsent] at hfails
      cases hfails
    · rw [hsent] at hok hsame
      obtain rfl : h = g := Except.ok.inj hok
      refine Or.inr ⟨h, limit, _, rfl, hc.ordinary_of_granted hl hop, ?_⟩
      rw [hafter, hsame]
      exact hg

/-- Whoever waits for the answer to its own request has done so before, or has just been
registered. -/
theorem answered_of_poll (hl : Sound l.registry)
    (hloop : l.loop.isEnded = true → l.lifecycle = .closed) {now : Instant} {c : Call}
    {h : Handle} {limit : Duration} {deadline? : Option Instant}
    (hd : (c.poll now l).2 = .waiting (.answered h limit deadline?)) :
    c = .answered h limit deadline? ∨
      h.id ≠ RequestId.handshake ∧ h ∈ (c.poll now l).1.registry.pending := by
  rcases waiting_poll hd with hsame | ⟨w, e, rfl, hd⟩ | ⟨s, limit', deadline', rfl, hd⟩
  · exact Or.inl hsame.symm
  · rcases waiting_proceed_cases hl (Registry.change_of_act l.registry (.resume w)) rfl hloop hd
      with ⟨w', hw'⟩ | ⟨g, limit', deadline', heq, hid, hg⟩
    · cases hw'
    · cases heq
      exact Or.inr ⟨hid, hg⟩
  · obtain ⟨g, l', -, hg⟩ := waiting_establish hd
    cases hg

theorem answered_of_close (l : Link) (now : Instant) {h : Handle} {limit : Duration}
    {deadline? : Option Instant} : (l.close now).2 ≠ .waiting (.answered h limit deadline?) := by
  intro hd
  rcases (waiting_close hd).1 with h | h
  · cases h
  · cases h

/-- A wait leaves the link alone, and fails with the outcome of the request or for lack of
time. -/
theorem failure_of_awaited {c : Call} {h : Handle} (hc : c.awaited? = some h) (now : Instant) :
    (c.poll now l).1 = l ∧ ∀ f, (c.poll now l).2.failure? = some f →
      l.outcome? h = some (.error f) ∨ ∃ limit, f = responseTimeout h limit := by
  have hawait : ∀ limit deadline? d f, (l.awaitBy now h limit deadline? d).failure? = some f →
      l.outcome? h = some (.error f) ∨ ∃ limit, f = responseTimeout h limit := by
    intro limit deadline? d f hf
    cases houtcome : l.outcome? h with
    | none => exact Or.inr ⟨limit, failure_awaitBy houtcome hf⟩
    | some o =>
      simp only [awaitBy, houtcome] at hf
      cases o with
      | ok reply => cases hf
      | error e =>
        cases hf
        exact Or.inl rfl
  cases c with
  | settled g =>
    cases hc
    refine ⟨rfl, fun f hf => Or.inl ?_⟩
    simp only [Call.poll] at hf
    cases houtcome : l.outcome? h with
    | none =>
      rw [houtcome] at hf
      cases hf
    | some o =>
      rw [houtcome] at hf
      cases o with
      | ok reply => cases hf
      | error e =>
        cases hf
        rfl
  | settledBy g limit deadline? =>
    cases hc
    exact ⟨rfl, hawait limit deadline? _⟩
  | answered g limit deadline? =>
    cases hc
    exact ⟨rfl, hawait limit deadline? _⟩
  | _ => cases hc

end Link

namespace Scene

variable {s : Scene}

theorem answered_of_onIncident (hs : s.Sincere) {i : Incident} {h : Handle} {limit : Duration}
    {deadline? : Option Instant} (hc : .answered h limit deadline? ∈ (s.onIncident i).calls) :
    .answered h limit deadline? ∈ s.calls ∨
      h.id ≠ RequestId.handshake ∧ h ∈ (s.onIncident i).link.registry.pending := by
  have hsound := hs.candid.sound
  have hloop : s.link.loop.isEnded = true → s.link.lifecycle = .closed :=
    fun hended => (hs.agrees.ends hended).1
  cases i with
  | readError m => exact Or.inl hc
  | writeError m => exact Or.inl hc
  | act a =>
    simp only [onIncident] at hc ⊢
    cases comesToWait hc with
    | waits hold => exact Or.inl hold
    | starts hd =>
      rw [perform, link_join]
      rcases Link.waiting_proceed_cases hsound
        (Registry.change_of_act s.link.registry .register) rfl hloop hd
        with ⟨w, hw⟩ | ⟨g, limit', deadline', heq, hid, hg⟩
      · cases hw
      · cases heq
        exact Or.inr ⟨hid, hg⟩
    | closes hd => exact absurd hd (s.link.answered_of_close s.now)
    | looks hlook hd =>
      rw [link_of_looks? hlook]
      refine (Link.answered_of_poll hsound hloop hd).imp_left ?_
      rintro rfl
      cases a with
      | poll j => exact List.mem_of_getElem? hlook
      | _ => cases hlook

/-- Whoever waits for the answer to its own request waits for one that has been issued. -/
theorem Sincere.issued_of_answered (h : s.Sincere) (hcalls : s.calls = [])
    {incidents : List Incident} (hown : ∀ i ∈ incidents, i.isOwn = true) {g : Handle}
    {limit : Duration} {deadline? : Option Instant}
    (hc : .answered g limit deadline? ∈ (s.runIncidents incidents).calls) :
    g.id ≠ RequestId.handshake ∧ s.HasIssued incidents g := by
  induction incidents using List.reverseRecOn with
  | nil =>
    have hnobody : (s.runIncidents []).calls = [] := hcalls
    rw [hnobody] at hc
    exact absurd hc List.not_mem_nil
  | append_singleton incidents i ih =>
    have hbefore : ∀ j ∈ incidents, j.isOwn = true := fun j hj =>
      hown j (List.mem_append_left _ hj)
    have hsincere : (s.runIncidents incidents).Sincere := h.runIncidents hbefore
    rw [runIncidents_append] at hc
    rcases answered_of_onIncident hsincere hc with hold | ⟨hid, hpending⟩
    · obtain ⟨hid, hissued⟩ := ih hbefore hold
      exact ⟨hid, hissued.append [i]⟩
    · refine ⟨hid, incidents ++ [i], [], (List.append_nil _).symm, ?_⟩
      rw [runIncidents_append]
      exact hpending

/-- The failures of ordinary requests tell what has failed: the connection, with a connection
error, or the request alone, with another. -/
structure TellsApart (s : Scene) (incidents : List Incident) : Prop where
  /-- Whatever happens next: a pending request that fails with a connection error is told so by
  a link that is closed by then; if it fails with another, the lifecycle and all other handles
  are what they were. -/
  handle : ∀ i, Incident.isOwn i = true → ∀ h ∈ (s.runIncidents incidents).link.registry.pending,
    h.id ≠ RequestId.handshake → ∀ e,
    let l := (s.runIncidents incidents).link
    let l' := ((s.runIncidents incidents).onIncident i).link
    l'.outcome? h = some (.error e) →
      (e.isConnectionError = true ∧ l'.lifecycle = .closed) ∨
      (e.isConnectionError = false ∧ l'.lifecycle = l.lifecycle ∧
        ∀ g : Handle, g.ticket ≠ h.ticket → l'.outcome? g = l.outcome? g)
  /-- A call that waits for a request that has been issued leaves the link alone; if it fails
  with a connection error, the link is closed. -/
  wait : ∀ c h, Call.awaited? c = some h → h.id ≠ RequestId.handshake →
    s.HasIssued incidents h →
    let t := s.runIncidents incidents
    (c.poll t.now t.link).1 = t.link ∧
      ∀ e, (c.poll t.now t.link).2.failure? = some e → e.isConnectionError = true →
        t.link.lifecycle = .closed
  blockingWait : ∀ h limit e, h.id ≠ RequestId.handshake → s.HasIssued incidents h →
    (s.runIncidents incidents).link.blockingWait h limit = .error e → e.isConnectionError = true →
      (s.runIncidents incidents).link.lifecycle = .closed
  /-- The requests of which the callers wait that have submitted them themselves have been
  issued. -/
  issued : ∀ h limit deadline?, .answered h limit deadline? ∈ (s.runIncidents incidents).calls →
    h.id ≠ RequestId.handshake ∧ s.HasIssued incidents h
  /-- A submission leaves the lifecycle and all handles that there are as they were; if it fails
  with a connection error, the link shuts down. -/
  submission : ∀ a : Attempt,
    let t := s.runIncidents incidents
    let l' := (a.make t.now t.link).1
    l'.lifecycle = t.link.lifecycle ∧
      (∀ g : Handle, g.ticket.serial < t.link.registry.ledger.outcomes.size →
        l'.outcome? g = t.link.outcome? g) ∧
      ∀ e, (a.make t.now t.link).2.failure? = some e → e.isConnectionError = true →
        l'.lifecycle.isShuttingDown = true
  /-- A link that is closed has been closed with a connection error. -/
  closedWith : ∀ e, (s.runIncidents incidents).link.registry.closedWith = some e →
    e.isConnectionError = true
  /-- Whatever closes the link tells all who are pending of a connection error. -/
  drained : ∀ i, Incident.isOwn i = true → (s.runIncidents incidents).link.lifecycle ≠ .closed →
    ((s.runIncidents incidents).onIncident i).link.lifecycle = .closed →
      ∀ h ∈ (s.runIncidents incidents).link.registry.pending,
        ∃ e, ((s.runIncidents incidents).onIncident i).link.outcome? h = some (.error e) ∧
          e.isConnectionError = true

/-- In every run of a link, the kind of a failure tells what has failed. -/
theorem failures_tell_apart {ceiling : Nat} {policy : Policy}
    (hmake : Registry.make ceiling policy = .ok s.link.registry) (hnew : s.link.loop = .running)
    (hcalls : s.calls = []) (hcodec : s.link.codec.RefusesToEncode) {incidents : List Incident}
    (hown : ∀ i ∈ incidents, i.isOwn = true) : s.TellsApart incidents := by
  have hstart : s.Sincere := sincere_of_make hmake hnew
  have hsincere : (s.runIncidents incidents).Sincere := hstart.runIncidents hown
  have hsound := hsincere.candid.sound
  have hrefuses : (s.runIncidents incidents).link.codec.RefusesToEncode := by
    rw [codec_runIncidents]
    exact hcodec
  have htold : ∀ h e, h.id ≠ RequestId.handshake → s.HasIssued incidents h →
      (s.runIncidents incidents).link.outcome? h = some (.error e) → e.isConnectionError = true →
        (s.runIncidents incidents).link.lifecycle = .closed := by
    rintro h e hid ⟨before, after, rfl, hh⟩ he herror
    rw [runIncidents_append] at he ⊢
    have hmiddle : (s.runIncidents before).Sincere :=
      hstart.runIncidents fun i hi => hown i (List.mem_append_left _ hi)
    exact hmiddle.closed_of_told hid hh (fun i hi => hown i (List.mem_append_right _ hi)) he
      herror
  refine ⟨?_, ?_, ?_, ?_, ?_, hsincere.candid.closedByLoss, ?_⟩
  · intro i hi h hh hid e l l' he
    exact (tells_onIncident hsound hsincere.staged hi).discerns hsound hh hid he
  · intro c h hc hid hissued t
    obtain ⟨hsame, hfails⟩ := Link.failure_of_awaited (l := t.link) hc t.now
    refine ⟨hsame, fun e he herror => ?_⟩
    rcases hfails e he with houtcome | ⟨limit, rfl⟩
    · exact htold h e hid hissued houtcome herror
    · cases herror
  · intro h limit e hid hissued he herror
    unfold Link.blockingWait at he
    cases houtcome : (s.runIncidents incidents).link.outcome? h with
    | some o =>
      rw [houtcome] at he
      exact htold h e hid hissued (houtcome.trans (congrArg some he)) herror
    | none =>
      rw [houtcome] at he
      cases he
      cases herror
  · intro h limit deadline? hc
    exact hstart.issued_of_answered hcalls hown hc
  · intro a t l'
    have hlife : l'.lifecycle = t.link.lifecycle := Link.lifecycle_attempt a t.now
    refine ⟨hlife, fun g hg => (Link.hushes_attempt hsound a t.now).outcome? g.ticket hg, ?_⟩
    intro e he herror
    rw [hlife]
    exact Link.shuttingDown_of_attempt hsincere.candid
      (fun hended => (hsincere.agrees.ends hended).1) hrefuses he herror
  · intro i hi hopen hclosed h hh
    exact (tells_onIncident hsound hsincere.staged hi).drains hopen hclosed hh

/-- A request is pending when reading fails: it is told of the lost connection, and the link
is closed. Whoever submits then meets a link that is closed. -/
theorem failures_when_reading_fails :
    let t := fresh.runIncidents inService
    let gone := t.onIncident (.readError "connection reset by peer")
    ∃ e, gone.link.outcome? ⟨⟨1⟩, ⟨1⟩⟩ = some (.error e) ∧ e.isConnectionError = true ∧
      gone.link.lifecycle = .closed := by
  have hmake : Registry.make 2 .block = .ok fresh.link.registry := rfl
  have hcodec : fresh.link.codec.RefusesToEncode := fun _ _ _ h => nomatch h
  have happart : fresh.TellsApart inService :=
    failures_tell_apart hmake rfl rfl hcodec (by decide)
  have hdrained := happart.drained (.readError "connection reset by peer") rfl
  have hstate : (fresh.runIncidents inService).link.lifecycle ≠ .closed ∧
      ((fresh.runIncidents inService).onIncident
        (.readError "connection reset by peer")).link.lifecycle = .closed ∧
      ⟨⟨1⟩, ⟨1⟩⟩ ∈ (fresh.runIncidents inService).link.registry.pending := by
    decide +kernel
  generalize fresh.runIncidents inService = t at hdrained hstate ⊢
  intro gone
  obtain ⟨hopen, hclosed, hpending⟩ := hstate
  obtain ⟨e, he, herror⟩ := hdrained hopen hclosed _ hpending
  exact ⟨e, he, herror, hclosed⟩

end Scene

end Switchboard
