import Switchboard.Client
import Switchboard.Proofs.RequestLog

/-!
Runs of a client and its companion. `Kept` holds from the moment when the client sets out
to connect, and every action of either of them keeps it.
-/
namespace Switchboard.Exchange

open Registry (Sound Staged LeadsTo)

variable {readId : Frame → Option RequestId} {K : Codec}

/-- What no action upsets. -/
structure Kept (K : Codec) (x : Exchange) : Prop where
  sound : Sound x.link.registry
  staged : Staged x.link.registry
  calls : x.scene.CallsAreClients
  booked : x.link.lifecycle ≠ .closed → Booked K x.link x.companion x.requests

theorem scene_answer (x : Exchange) (k : Nat) (g : Frame) :
    (x.answer readId k g).scene = x.scene := by
  unfold answer
  split
  · split
    · rfl
    · rfl
  · rfl

theorem perform_client {x : Exchange} {a : Scene.Action} (ha : a.isClients = true) :
    x.perform readId (.client a) =
      { x with scene := x.scene.perform a, requests := x.requests ++ x.scene.posted a } := by
  rw [perform, if_pos ha]

theorem perform_client_of_not {x : Exchange} {a : Scene.Action} (ha : ¬ a.isClients = true) :
    x.perform readId (.client a) = x := by
  rw [perform, if_neg ha]

theorem leadsTo_perform (x : Exchange) (act : Action) :
    x.link.registry.LeadsTo (x.perform readId act).link.registry := by
  cases act with
  | client a =>
    by_cases ha : a.isClients = true
    · rw [perform_client ha]
      exact x.scene.leadsTo_perform a
    · rw [perform_client_of_not ha]
      exact LeadsTo.refl _
  | answer k g =>
    rw [perform, link, link, scene_answer]
    exact LeadsTo.refl _
  | read n => exact LeadsTo.refl _
  | write n => exact LeadsTo.refl _

theorem leadsTo_run (x : Exchange) (acts : List Action) :
    x.link.registry.LeadsTo (x.run readId acts).link.registry :=
  List.foldlRecOn (motive := fun y => x.link.registry.LeadsTo y.link.registry) acts
    (perform readId) (LeadsTo.refl _) fun y hy act _ => hy.trans (y.leadsTo_perform act)

theorem open_of_perform {x : Exchange} {act : Action}
    (hopen : (x.perform readId act).link.lifecycle ≠ .closed) : x.link.lifecycle ≠ .closed := by
  intro hclosed
  exact hopen ((x.leadsTo_perform act).closed hclosed)

theorem callsAreClients_perform {x : Exchange} (h : x.scene.CallsAreClients) (act : Action) :
    (x.perform readId act).scene.CallsAreClients := by
  cases act with
  | client a =>
    by_cases ha : a.isClients = true
    · rw [perform_client ha]
      exact Scene.callsAreClients_perform h ha
    · rw [perform_client_of_not ha]
      exact h
  | answer k g =>
    rw [perform, scene_answer]
    exact h
  | read n => exact h
  | write n => exact h

namespace Kept

variable {x : Exchange}

theorem booked_client (h : Kept K x) {a : Scene.Action} (ha : a.isClients = true)
    (hopen : (x.scene.perform a).link.lifecycle ≠ .closed)
    (hbooked : Booked K x.link x.companion x.requests) :
    Booked K (x.scene.perform a).link x.companion (x.requests ++ x.scene.posted a) := by
  by_cases hloop : ∃ e, a = .loop e
  · obtain ⟨e, rfl⟩ := hloop
    have hnone : x.scene.posted (.loop e) = [] := rfl
    rw [hnone, List.append_nil]
    by_cases he : e ∈ x.scene.link.ready x.scene.isHeld
    · rw [Scene.perform, if_pos he] at hopen ⊢
      exact hbooked.turn h.sound (Link.turn_of_handle he) hopen
    · rw [Scene.perform, if_neg he]
      exact hbooked
  · have hdeed := Scene.deed_of_perform h.sound h.calls ha (not_exists.mp hloop)
    exact hbooked.deed h.sound (x.scene.leadsTo_perform a) hdeed hopen

theorem booked_answer (hread : ∀ id p f, K.serialize id p = .ok f → readId f = some id)
    (k : Nat) (g : Frame) (hbooked : Booked K x.link x.companion x.requests) :
    Booked K (x.answer readId k g).link (x.answer readId k g).companion
      (x.answer readId k g).requests := by
  unfold answer
  split
  case h_1 f a hk hg =>
    split_ifs with hallowed
    · exact hbooked.answer hread hk hg hallowed.1 hallowed.2
    · exact hbooked
  case h_2 => exact hbooked

theorem perform (h : Kept K x)
    (hread : ∀ id p f, K.serialize id p = .ok f → readId f = some id) (act : Action) :
    Kept K (x.perform readId act) := by
  have hleads : x.link.registry.LeadsTo (x.perform readId act).link.registry :=
    x.leadsTo_perform act
  refine ⟨hleads.sound h.sound, hleads.staged h.staged, callsAreClients_perform h.calls act, ?_⟩
  intro hopen
  have hbooked := h.booked (open_of_perform hopen)
  cases act with
  | client a =>
    by_cases ha : a.isClients = true
    · rw [perform_client ha] at hopen ⊢
      exact h.booked_client ha hopen hbooked
    · rw [perform_client_of_not ha]
      exact hbooked
  | read n => exact hbooked.read n
  | answer k g => exact booked_answer hread k g hbooked
  | write n => exact hbooked.write n

theorem run (h : Kept K x)
    (hread : ∀ id p f, K.serialize id p = .ok f → readId f = some id) (acts : List Action) :
    Kept K (x.run readId acts) :=
  List.foldlRecOn acts (Exchange.perform readId) h fun _ hy act _ => hy.perform hread act

end Kept

theorem booked_of_link {plan : Plan} {policy : Policy} {capacity : Option Nat} {l : Link}
    (hlink : plan.link policy { capacity := capacity } = .ok l) :
    Sound l.registry ∧ Staged l.registry ∧ Booked plan.codec l {} [] := by
  obtain ⟨r, hmake, rfl⟩ := Plan.eq_of_link hlink
  have hempty : r.pending = [] ∧ r.unmatched = [] := by
    obtain ⟨g, -, rfl⟩ := Registry.eq_of_make hmake
    exact ⟨rfl, rfl⟩
  refine ⟨Registry.sound_of_make hmake, Registry.staged_of_make hmake, ?_⟩
  exact ⟨Logged.empty _ _, [], [], [], rfl, rfl, Deframer.Carries.start,
    Deframer.Carries.start, List.Forall₂.nil, List.Forall₂.nil, nofun,
    List.Perm.of_eq hempty.1, hempty.2⟩

theorem kept_opening {plan : Plan} {policy : Policy} {capacity : Option Nat} {l : Link}
    (hlink : plan.link policy { capacity := capacity } = .ok l) (now : Instant)
    (limit : Duration) (deadline : Instant) :
    Kept plan.codec (opening l now plan.setup limit deadline) := by
  obtain ⟨hsound, hstaged, hbooked⟩ := booked_of_link hlink
  have hleads := l.leadsTo_establish now plan.setup limit deadline
  have hlinked : (opening l now plan.setup limit deadline).link =
      (l.establish now plan.setup limit deadline).1 := Scene.link_join _ _
  refine ⟨?_, ?_, ?_, ?_⟩
  · rw [hlinked]
    exact hleads.sound hsound
  · rw [hlinked]
    exact hleads.staged hstaged
  · refine Scene.callsAreClients_join ?_ (l.isClients_establish now plan.setup limit deadline)
    exact fun c hc => absurd hc List.not_mem_nil
  · intro hopen
    rw [hlinked] at hopen ⊢
    exact hbooked.deed hsound hleads (l.deed_of_establish now plan.setup limit deadline) hopen

end Switchboard.Exchange
