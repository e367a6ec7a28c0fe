import Switchboard.Proofs.Courses
import Switchboard.Proofs.Duplicates
import Switchboard.Proofs.LoopTurns

/-!
Answers that announce that the peer closes. Such an answer closes the link and fails
whatever is pending, the request it answers included. An answer to the handshake is the
exception: once the link has got beyond connecting it counts as a late one, whatever it
says, and the announcement is lost. `closing_answer_closes_iff` draws the line.
-/
namespace Switchboard

open Registry (Sound LeadsTo)

namespace Registry

variable {r : Registry}

theorem mem_settle_of_ne {h : Handle} {id : RequestId} (hh : h ∈ r.pending) (hid : h.id ≠ id)
    (o : Outcome) : h ∈ (r.settle id o).1.pending := by
  unfold settle
  cases hfind : r.pending.find? fun g => g.id = id with
  | none => exact hh
  | some g =>
    have hg : g.id = id := by simpa using List.find?_some hfind
    have hne : h ≠ g := by
      rintro rfl
      exact hid hg
    exact (List.mem_erase_of_ne hne).mpr hh

theorem closedWith_settle (r : Registry) (id : RequestId) (o : Outcome) :
    (r.settle id o).1.closedWith = r.closedWith := by
  unfold settle
  split
  · rfl
  · rfl

end Registry

namespace Link

variable {l l' : Link} {e : Failure}

/-- The link has been closed with a failure, which is the outcome of every request that was
pending, and its loop is asked to end. -/
structure EndsWith (l l' : Link) (e : Failure) : Prop where
  lifecycle : l'.lifecycle = .closed
  pending : l'.registry.pending = []
  closedWith : l'.registry.closedWith = some e
  shutdown : l'.shutdown = true
  outcome : ∀ h ∈ l.registry.pending, l'.outcome? h = some (.error e)

theorem leadsTo_failing (l : Link) : l.registry.LeadsTo l.failing := by
  unfold failing
  split
  · exact LeadsTo.refl _
  · exact LeadsTo.after _ .beginClosing

theorem shutdown_fail (hopen : l.lifecycle ≠ .closed) (e : Failure) :
    (l.fail e).shutdown = true := by
  have hmoved : (l.failing.failAll e).2 = true := by
    have hne := lifecycle_failing_ne hopen
    simp [Registry.failAll, Registry.isClosed, Lifecycle.isClosed, hne]
  unfold fail
  unfold failing at hmoved
  by_cases hc : l.lifecycle = .connecting
  · rw [if_pos hc] at hmoved
    simp [hc, via, hmoved]
  · rw [if_neg hc] at hmoved
    simp [hc, via, hmoved]

theorem endsWith_fail (hl : Sound l.registry) (hopen : l.lifecycle ≠ .closed) (e : Failure) :
    l.EndsWith (l.fail e) e where
  lifecycle := l.lifecycle_fail e
  pending := pending_fail hopen e
  closedWith := by
    rw [registry_fail_eq]
    exact (Registry.over_failAll (lifecycle_failing_ne hopen) e).closedWith
  shutdown := shutdown_fail hopen e
  outcome h hh := by
    have hmem : h.ticket ∈ l.failing.pending.map Handle.ticket := by
      rw [pending_failing]
      exact List.mem_map_of_mem hh
    have hsound : Sound l.failing := l.leadsTo_failing.sound hl
    rw [outcome?, registry_fail_eq,
      Registry.outcome?_failAll hsound (lifecycle_failing_ne hopen), if_pos hmem]

/-- A request that is told before the end is told the same as all others. -/
theorem EndsWith.of_settle {id : RequestId} {o : Outcome}
    (h : EndsWith (l.via (·.settle id o)).1 l' e)
    (htold : ∀ g ∈ l.registry.pending, g.id = id → l'.outcome? g = some (.error e)) :
    l.EndsWith l' e where
  lifecycle := h.lifecycle
  pending := h.pending
  closedWith := h.closedWith
  shutdown := h.shutdown
  outcome g hg := by
    by_cases hid : g.id = id
    · exact htold g hg hid
    · exact h.outcome g (Registry.mem_settle_of_ne hg hid o)

theorem lossOf_closing {state : Lifecycle} (h : state ≠ .connecting) (m : String) :
    lossOf state (.closing m) = .closing m := by
  rw [lossOf, if_neg h]
  rfl

theorem isConnectionError_lossOf (state : Lifecycle) (f : Failure) :
    (lossOf state f).isConnectionError = true := by
  by_cases h : state = .connecting
  · rw [lossOf, if_pos h]
    rfl
  · obtain ⟨m, hm⟩ := lossOf_of_ne h f
    rw [hm]
    rfl

/-- Under an ordinary identifier the announcement is told to the request and then breaks
the link. -/
theorem onResponse_closing (hopen : l.lifecycle ≠ .closed) {id : RequestId}
    (hid : id ≠ RequestId.handshake) (m : String) :
    l.onResponse ⟨id, .closingError m⟩ =
      (l.via (·.settle id (.error (.closing m)))).1.fail (lossOf l.lifecycle (.closing m)) := by
  have hlife : (l.via (·.settle id (.error (.closing m)))).1.lifecycle = l.lifecycle :=
    Registry.lifecycle_settle _ _ _
  have hstill : (l.via (·.settle id (.error (.closing m)))).1.lifecycle ≠ .closed := by
    rw [hlife]
    exact hopen
  have hordinary : id.isHandshake = false := by simp [RequestId.isHandshake, hid]
  rw [← hlife, ← onTransportError_of_open hstill]
  simp only [onResponse, hordinary, Bool.false_eq_true, if_false]
  rfl

/-- Under an ordinary identifier, or while the link connects, the announcement is heard. -/
theorem endsWith_onResponse (hl : Sound l.registry) (hs : l.registry.Staged)
    (hopen : l.lifecycle ≠ .closed) {id : RequestId} (m : String)
    (hheard : id ≠ RequestId.handshake ∨ l.lifecycle = .connecting) :
    ∃ e, l.EndsWith (l.onResponse ⟨id, .closingError m⟩) e ∧ e.isConnectionError = true ∧
      (l.lifecycle ≠ .connecting → e = .closing m) := by
  by_cases hid : id = RequestId.handshake
  · have hc : l.lifecycle = .connecting := hheard.resolve_left (not_not_intro hid)
    have hfail : l.onResponse ⟨id, .closingError m⟩ =
        l.fail (.handshakeFailed ("connection closed: " ++ m)) := by
      rw [hid, onResponse_handshake, onHandshake, if_neg (not_not_intro hc)]
      rfl
    rw [hfail]
    exact ⟨_, endsWith_fail hl hopen _, rfl, fun hne => absurd hc hne⟩
  · have hsettled : Sound (l.via (·.settle id (.error (.closing m)))).1.registry :=
      (LeadsTo.after l.registry (.settle id (.error (.closing m)))).sound hl
    have hstill : (l.via (·.settle id (.error (.closing m)))).1.lifecycle ≠ .closed := by
      rw [lifecycle, registry_via, Registry.lifecycle_settle]
      exact hopen
    have hends := endsWith_fail hsettled hstill (lossOf l.lifecycle (.closing m))
    rw [← onResponse_closing hopen hid m] at hends
    refine ⟨_, hends.of_settle ?_, isConnectionError_lossOf _ _, fun hc => lossOf_closing hc m⟩
    rintro g hg rfl
    by_cases hc : l.lifecycle = .connecting
    · -- while the link connects, nothing but the handshake is pending
      exact absurd (hs.connecting hc g hg) hid
    · rw [lossOf_closing hc]
      exact outcome?_onResponse hl hg hid (.closingError m)

/-- To a link that has got beyond connecting an answer to the handshake says nothing. -/
theorem onResponse_late (hc : l.lifecycle ≠ .connecting) (b : Body) :
    let l' := l.onResponse ⟨RequestId.handshake, b⟩
    l'.lifecycle = l.lifecycle ∧ l'.registry.closedWith = l.registry.closedWith ∧
      ∀ h ∈ l.registry.pending, h.id ≠ RequestId.handshake → h ∈ l'.registry.pending := by
  dsimp only
  rw [onResponse_handshake, onHandshake, if_pos hc]
  refine ⟨Registry.lifecycle_settle _ _ _, Registry.closedWith_settle _ _ _, ?_⟩
  intro h hh hid
  exact Registry.mem_settle_of_ne hh hid _

end Link

namespace Scene

/-- In every run, the announcement of the peer that it closes ends a link that is not closed
just if it comes under an ordinary identifier, pending or not, or while the link connects.
If it does, every pending request fails with the failure of the connection, which is the
announcement itself once the handshake is over. If it does not, the link goes on as before
and the ordinary requests go on waiting. -/
theorem closing_answer_closes_iff {ceiling : Nat} {policy : Policy} {s : Scene}
    (hmake : Registry.make ceiling policy = .ok s.link.registry) (acts : List Action)
    (hopen : (s.run acts).link.lifecycle ≠ .closed) {f : Frame} {id : RequestId} {m : String}
    (hf : (s.run acts).link.codec.deserialize f = .ok ⟨id, .closingError m⟩) :
    let l := (s.run acts).link
    let l' := l.onFrame f
    (l'.lifecycle = .closed ↔ id ≠ RequestId.handshake ∨ l.lifecycle = .connecting) ∧
      (l'.lifecycle = .closed → ∃ e, l.EndsWith l' e ∧ e.isConnectionError = true ∧
        (l.lifecycle ≠ .connecting → e = .closing m)) ∧
      (l'.lifecycle ≠ .closed → l'.lifecycle = l.lifecycle ∧
        l'.registry.closedWith = l.registry.closedWith ∧
        ∀ h ∈ l.registry.pending, h.id ≠ RequestId.handshake → h ∈ l'.registry.pending) := by
  intro l l'
  have hleads := s.leadsTo_run acts
  have hsound : Sound l.registry := hleads.sound (Registry.sound_of_make hmake)
  have hstaged : l.registry.Staged := hleads.staged (Registry.staged_of_make hmake)
  have hl' : l' = l.onResponse ⟨id, .closingError m⟩ := by
    simp only [l', Link.onFrame]
    rw [show l.codec.deserialize f = .ok ⟨id, .closingError m⟩ from hf]
  rw [hl']
  by_cases hheard : id ≠ RequestId.handshake ∨ l.lifecycle = .connecting
  · obtain ⟨e, hends, herror, hclosing⟩ :=
      Link.endsWith_onResponse hsound hstaged hopen m hheard
    exact ⟨⟨fun _ => hheard, fun _ => hends.lifecycle⟩, fun _ => ⟨e, hends, herror, hclosing⟩,
      fun hne => absurd hends.lifecycle hne⟩
  · obtain ⟨hid, hc⟩ := not_or.mp hheard
    obtain rfl : id = RequestId.handshake := not_not.mp hid
    have hlate := Link.onResponse_late hc (.closingError m)
    have hstill : (l.onResponse ⟨RequestId.handshake, .closingError m⟩).lifecycle ≠ .closed := by
      rw [hlate.1]
      exact hopen
    exact ⟨⟨fun h => absurd h hstill, fun h => absurd h hheard⟩, fun h => absurd h hstill,
      fun _ => hlate⟩

/-- A request is pending on a link that is ready. -/
def serving : List Action := [.connect {}, .frame acceptance, .registry .register]

/-- What a peer that closes says under an identifier. -/
def announcement (id : RequestId) : Frame :=
  ("\x7b\"callbackIdx\":" ++ id.text ++
    ",\"type\":\"closingError\",\"message\":\"bye\"\x7d").toUTF8

/-- The announcement is lost under the identifier of the handshake, and heard under another,
although nobody waits for it. -/
theorem closing_answers_while_serving :
    let l := (fresh.run serving).link
    let lost := l.onFrame (announcement RequestId.handshake)
    lost.lifecycle = .ready ∧ lost.registry.closedWith = none ∧
      ⟨⟨1⟩, ⟨1⟩⟩ ∈ lost.registry.pending ∧
      l.EndsWith (l.onFrame (announcement ⟨7⟩)) (.closing "bye") := by
  intro l lost
  have hmake : Registry.make 2 .block = .ok fresh.link.registry := rfl
  have hready : l.lifecycle = .ready := by decide +kernel
  have hopen : l.lifecycle ≠ .closed := by
    rw [hready]
    exact nofun
  have hclosedWith : l.registry.closedWith = none := by decide +kernel
  have hcodec : l.codec = .json := rfl
  have hread : ∀ id ∈ [RequestId.handshake, ⟨7⟩],
      l.codec.deserialize (announcement id) = .ok ⟨id, .closingError "bye"⟩ := by
    rw [hcodec]
    simp only [List.forall_mem_cons]
    exact ⟨rfl, rfl, nofun⟩
  obtain ⟨hlost, -, hkept⟩ := closing_answer_closes_iff hmake serving hopen
    (hread RequestId.handshake (by decide))
  obtain ⟨hheard, hends, -⟩ := closing_answer_closes_iff hmake serving hopen
    (hread ⟨7⟩ (by decide))
  have hstill : lost.lifecycle ≠ .closed := by
    rw [Ne, hlost, hready]
    decide
  obtain ⟨hlife, hsame, hpending⟩ := hkept hstill
  obtain ⟨e, hends, -, he⟩ := hends (hheard.mpr (Or.inl (by decide)))
  refine ⟨hlife.trans hready, hsame.trans hclosedWith, ?_, ?_⟩
  · exact hpending ⟨⟨1⟩, ⟨1⟩⟩ (by decide +kernel) (by decide)
  · have hclosing : e = .closing "bye" := he (by rw [hready]; exact nofun)
    rwa [hclosing] at hends

end Scene

end Switchboard
