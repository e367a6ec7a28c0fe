import Switchboard.Proofs.LinkFailure
import Switchboard.Proofs.Settlement

/-!
Answers to requests that have been answered before. An answer carries the identifier of
its request and nothing else that tells requests apart, and an identifier is issued again
as soon as it is free. So an answer that comes twice is lost on the registry as long as
its identifier has not been issued again, and is taken for the answer to another request
once it has. `duplicate_harmless_iff` draws the line.
-/
namespace Switchboard

/-- The requests of the table and the outcomes of all handles are the same. -/
structure Registry.Unmoved (r s : Registry) : Prop where
  pending : s.pending = r.pending
  ledger : s.ledger = r.ledger

namespace Registry

variable {r : Registry}

theorem Unmoved.trans {s t : Registry} (h : r.Unmoved s) (h' : s.Unmoved t) :
    r.Unmoved t :=
  ⟨h'.pending.trans h.pending, h'.ledger.trans h.ledger⟩

theorem settle_of_not_isPending {id : RequestId} (h : r.isPending id = false) (o : Outcome) :
    (r.settle id o).1 = { r with unmatched := r.unmatched ++ [id] } := by
  have hfind : (r.pending.find? fun g => g.id = id) = none := by
    simpa [isPending] using h
  simp [settle, hfind]

theorem lifecycle_settle (r : Registry) (id : RequestId) (o : Outcome) :
    (r.settle id o).1.lifecycle = r.lifecycle := by
  unfold settle
  split <;> rfl

theorem notMem_strike (hr : Sound r) (g : Handle) (o : Outcome) :
    g ∉ (r.strike g o).pending := by
  have hnodup : r.pending.Nodup := List.Nodup.of_map _ hr.nodup_ids
  intro h
  exact (hnodup.mem_erase_iff.mp h).1 rfl

theorem not_unmoved_of_notMem {s : Registry} {g : Handle} (hg : g ∈ r.pending)
    (hs : g ∉ s.pending) : ¬ r.Unmoved s := by
  intro h
  rw [h.pending] at hs
  exact hs hg

theorem unmoved_settle_iff (hr : Sound r) (id : RequestId) (o : Outcome) :
    r.Unmoved (r.settle id o).1 ↔ r.isPending id = false := by
  constructor
  · intro h
    rw [Bool.eq_false_iff]
    intro hpending
    obtain ⟨g, hg, rfl⟩ := isPending_iff.mp hpending
    rw [settle_of_mem hr hg] at h
    exact not_unmoved_of_notMem hg (notMem_strike hr g o) h
  · intro h
    rw [settle_of_not_isPending h]
    exact ⟨rfl, rfl⟩

end Registry

namespace Link

open Registry (Sound Staged)

variable {l : Link}

/-- The failure of a link moves its requests just if there are any. -/
theorem unmoved_fail_iff (hopen : l.lifecycle ≠ .closed) (f : Failure) :
    l.registry.Unmoved (l.fail f).registry ↔ l.registry.pending = [] := by
  constructor
  · intro h
    rw [← h.pending]
    exact pending_fail hopen f
  · intro h
    exact ⟨(pending_fail hopen f).trans h.symm, ledger_fail h f⟩

theorem pending_eq_nil_iff (hs : Staged l.registry) (hc : l.lifecycle = .connecting) :
    l.registry.pending = [] ↔ l.registry.isPending RequestId.handshake = false := by
  rw [Bool.eq_false_iff]
  constructor
  · intro h hpending
    obtain ⟨g, hg, -⟩ := Registry.isPending_iff.mp hpending
    rw [h] at hg
    exact List.not_mem_nil hg
  · intro h
    rw [List.eq_nil_iff_forall_not_mem]
    intro g hg
    exact h (Registry.isPending_iff.mpr ⟨g, hg, hs.connecting hc g hg⟩)

theorem unmoved_onHandshake_iff (hr : Sound l.registry) (hs : Staged l.registry) (b : Body) :
    l.registry.Unmoved (l.onHandshake b).registry ↔
      l.registry.isPending RequestId.handshake = false := by
  unfold onHandshake
  split_ifs with hlate
  · exact Registry.unmoved_settle_iff hr _ _
  · have hc : l.lifecycle = .connecting := not_not.mp hlate
    cases handshakeComplaint b with
    | none =>
      have hready : l.registry.markReady.1 = l.registry.moveTo .ready := by
        simp [Registry.markReady, show l.registry.lifecycle = .connecting from hc]
      have hsound : Sound (l.registry.moveTo .ready) := hr.of_eq rfl rfl rfl rfl rfl rfl
      have hiff := Registry.unmoved_settle_iff hsound RequestId.handshake (.ok .ok)
      dsimp only
      rw [registry_via, registry_via, hready]
      constructor
      · intro h
        exact hiff.mp ⟨h.pending, h.ledger⟩
      · intro h
        exact ⟨(hiff.mpr h).pending, (hiff.mpr h).ledger⟩
    | some m =>
      rw [unmoved_fail_iff (by rw [hc]; decide), pending_eq_nil_iff hs hc]

/-- An answer moves nothing just if nobody waits for it, and it does not announce the end
of the link to an ordinary request while others are pending. -/
theorem unmoved_onFrame_iff (hr : Sound l.registry) (hs : Staged l.registry)
    (hopen : l.lifecycle ≠ .closed) {f : Frame} {id : RequestId} {b : Body}
    (hf : l.codec.deserialize f = .ok ⟨id, b⟩) :
    l.registry.Unmoved (l.onFrame f).registry ↔
      l.registry.isPending id = false ∧
        ∀ m, b = .closingError m → id = RequestId.handshake ∨ l.registry.pending = [] := by
  rw [onFrame, hf]
  dsimp only
  by_cases hid : id = RequestId.handshake
  · subst hid
    rw [onResponse_handshake, unmoved_onHandshake_iff hr hs]
    exact ⟨fun h => ⟨h, fun _ _ => Or.inl rfl⟩, fun h => h.1⟩
  · have hsettle := Registry.unmoved_settle_iff hr id b.outcome
    rcases l.onResponse_of_ordinary hid b with ⟨m, rfl, heq⟩ | ⟨hb, heq⟩
    · have hlife : (l.via (·.settle id (Body.closingError m).outcome)).1.lifecycle ≠
          .closed := by
        rw [lifecycle, registry_via, Registry.lifecycle_settle]
        exact hopen
      rw [heq, onTransportError_of_open hlife]
      constructor
      · intro h
        have hnil : l.registry.pending = [] := h.pending.symm.trans (pending_fail hlife _)
        refine ⟨?_, fun _ _ => Or.inr hnil⟩
        simp [Registry.isPending, hnil]
      · rintro ⟨hnone, hclosing⟩
        have hnil := (hclosing m rfl).resolve_left hid
        have hmoved := hsettle.mpr hnone
        exact hmoved.trans ((unmoved_fail_iff hlife _).mpr (hmoved.pending.trans hnil))
    · rw [heq, registry_via, hsettle]
      exact ⟨fun h => ⟨h, fun m hm => absurd hm (hb m)⟩, fun h => h.1⟩

end Link

namespace Scene

open Registry (Sound Staged)

/-- A request was pending and has its outcome, and the link is not closed. A second answer
under its identifier is a no-op, as an operation of the registry or as a frame, just if no
request with this identifier is pending now. If there is one, it was registered after the
first, and the second answer is its outcome. -/
theorem duplicate_harmless_iff {ceiling : Nat} {policy : Policy} {s : Scene}
    (hmake : Registry.make ceiling policy = .ok s.link.registry) (before more : List Action)
    (h : Handle) (hpending : h ∈ (s.run before).link.registry.pending)
    (hsettled : (s.run (before ++ more)).link.outcome? h ≠ none)
    (hopen : (s.run (before ++ more)).link.lifecycle ≠ .closed) :
    let l := (s.run (before ++ more)).link
    (∀ o, l.registry.Unmoved (l.registry.settle h.id o).1 ↔
        l.registry.isPending h.id = false) ∧
      (∀ f b, l.codec.deserialize f = .ok ⟨h.id, b⟩ →
        (l.registry.Unmoved (l.onFrame f).registry ↔
          l.registry.isPending h.id = false ∧
            ∀ m, b = .closingError m → h.id = RequestId.handshake ∨ l.registry.pending = [])) ∧
      ∀ g ∈ l.registry.pending, g.id = h.id →
        h.ticket.serial < g.ticket.serial ∧
          ∀ o, (l.registry.settle h.id o).1.ledger.outcome? g.ticket = some o := by
  intro l
  have hfirst := s.leadsTo_run before
  have hlater : (s.run before).link.registry.LeadsTo l.registry := by
    have hrun := (s.run before).leadsTo_run more
    rwa [← run_append] at hrun
  have hsoundFirst := hfirst.sound (Registry.sound_of_make hmake)
  have hsound := hlater.sound hsoundFirst
  have hstaged := hlater.staged (hfirst.staged (Registry.staged_of_make hmake))
  refine ⟨fun o => Registry.unmoved_settle_iff hsound h.id o,
    fun f b hf => Link.unmoved_onFrame_iff hsound hstaged hopen hf, ?_⟩
  intro g hg hid
  constructor
  · rcases hlater.mem_or_later hg with hold | hnew
    · -- the identifier was taken by one request only when the first was pending
      have heq : g = h := hsoundFirst.eq_of_id hpending hold hid
      rw [heq] at hg
      exact absurd (hsound.outcome?_eq_none hg) hsettled
    · exact (hsoundFirst.isOpen hpending).serial_lt.trans_le hnew
  · intro o
    rw [← hid, Registry.settle_of_mem hsound hg, Registry.ledger_strike]
    exact Ledger.outcome?_settle (hsound.isOpen hg) o

/-- A link with one slot: the identifier of the first request, which has been answered, is
issued to a second one. -/
def oneSlot : Scene where
  link := Link.bare { gate := { ceiling := 1, policy := .reject, free := 1 } }

theorem duplicate_settles_later_request :
    let more : List Action :=
      [.registry (.settle ⟨1⟩ (.ok .ok)), .registry .tryRegister]
    let l := (oneSlot.run ([.registry .markReady, .registry .tryRegister] ++ more)).link
    l.outcome? ⟨⟨1⟩, ⟨0⟩⟩ = some (.ok .ok) ∧ l.outcome? ⟨⟨1⟩, ⟨1⟩⟩ = none ∧
      ∀ o, (l.registry.settle ⟨1⟩ o).1.ledger.outcome? ⟨1⟩ = some o := by
  intro more l
  have hmake : Registry.make 1 .reject = .ok oneSlot.link.registry := rfl
  have hdup := duplicate_harmless_iff hmake [.registry .markReady, .registry .tryRegister]
    more ⟨⟨1⟩, ⟨0⟩⟩ (by decide) nofun nofun
  exact ⟨rfl, rfl, (hdup.2.2 ⟨⟨1⟩, ⟨1⟩⟩ (by decide) rfl).2⟩

end Scene

end Switchboard
