import Switchboard.Proofs.RegistryBooks

/-!
The identifiers of a registry in the course of a run. The table, the stack of returned
identifiers, the count of those checked out and the counter are changed in different
places, and agree after every operation. The counter stays below the ceiling because a
fresh number is issued only to a request that holds a slot, while all numbers issued so
far belong to requests that hold one too.
-/
namespace Switchboard.Registry

/-- The table and the pool of a registry with this ceiling agree. -/
structure IdsAgree (ceiling : Nat) (r : Registry) : Prop where
  /-- What is checked out of the pool is what the table holds, the handshake apart. -/
  lends : r.ids.Lends r.ordinaryIds r.ids.highWater.toNat
  free_nodup : r.ids.free.Nodup
  free_disjoint : ∀ h ∈ r.pending, h.id ∉ r.ids.free
  free_or_pending : ∀ i : RequestId, i ∈ r.ids.free ∨ i ∈ r.ordinaryIds ↔
    1 ≤ i.val.toNat ∧ i.val.toNat ≤ r.ids.highWater.toNat
  outstanding : r.ids.outstanding = (r.pending.filter fun h => !h.id.isHandshake).length
  highWater_le : r.ids.highWater.toNat ≤ ceiling
  /-- The counter has not come to its end. -/
  next_ne : r.ids.next + 1 ≠ 0
  /-- A request that is granted next gets an identifier that nobody in the table has. -/
  fresh : ∀ op h, op ≠ .greet → r.grants op = some h →
    h.id ≠ RequestId.handshake ∧ r.isPending h.id = false

theorem Change.id_of_granted {r s : Registry} {op : Op} {h : Handle}
    (hc : Change r op s (some h)) (hop : op ≠ .greet) : h.id = r.ids.acquire.1 := by
  cases hc with
  | enters _ _ _ => rfl
  | greets _ _ => exact absurd rfl hop

theorem mem_granted_of_run {r : Registry} {ops : List Op} {h : Handle}
    (hh : h ∈ (r.run ops).pending) : h ∈ r.pending ∨ h ∈ r.granted ops := by
  induction ops generalizing r with
  | nil => exact Or.inl hh
  | cons op ops ih =>
    simp only [granted, List.mem_append, Option.mem_toList]
    rcases ih hh with hafter | hlater
    · rcases (change_of_act r op).mem_pending hafter with hold | hnew
      · exact Or.inl hold
      · exact Or.inr (Or.inl hnew)
    · exact Or.inr (Or.inr hlater)

@[simp] theorem greeted_drain (hs : List Handle) (o : Outcome) (r : Registry) :
    (hs.foldl (discharge o) r).greeted = r.greeted := by
  induction hs generalizing r with
  | nil => rfl
  | cons h hs ih => exact ih _

/-- The handshake is granted once: it leaves its mark, and the mark stays. -/
theorem Change.countP_handshake {r s : Registry} {op : Op} {granted : Option Handle}
    (hc : Change r op s granted) (hr : Sound r) :
    granted.toList.countP (fun h => h.id.isHandshake) + (!s.greeted).toNat ≤
      (!r.greeted).toNat := by
  cases hc with
  | enters _ _ _ =>
    obtain ⟨peak, -, hlends⟩ := hr.lends
    have hlen := hr.card_lt
    have hne := hlends.acquire_ne_handshake (by rw [Multiset.coe_card]; omega)
    simp [fileNext, file, nextHandle, RequestId.isHandshake, hne]
  | greets _ hg => simp [hg, nextHandle, RequestId.isHandshake]
  | fails _ => simp [shutDown, moveTo]
  | waits _ _ => simp
  | stays _ => simp
  | notes _ => simp
  | strikes _ => simp [strike, discharge_eq]
  | opens _ => simp [moveTo]
  | closes _ => simp [moveTo]
  | failsLate _ => simp

theorem countP_granted_handshake {r : Registry} (hr : Sound r) (ops : List Op) :
    (r.granted ops).countP (fun h => h.id.isHandshake) ≤ (!r.greeted).toNat := by
  induction ops generalizing r with
  | nil => exact Nat.zero_le _
  | cons op ops ih =>
    have hc := change_of_act r op
    have hstep := hc.countP_handshake hr
    have hrest := ih (hc.sound hr)
    rw [granted, List.countP_append]
    omega

/-- Books that agree in gate, pool and ledger agree in the numbers. -/
theorem Sound.idsAgree {r : Registry} (hr : Sound r) : IdsAgree r.gate.ceiling r := by
  obtain ⟨peak, hpeak, hlends⟩ := hr.lends
  have hceiling := hr.ceiling_le
  have hmax : Gate.maxCeiling < UInt32.size - 2 := by decide
  have hlen := hr.card_lt
  have hwater := hlends.toNat_highWater (by omega)
  have hnodup := Multiset.nodup_add.mp hlends.nodup
  have hmem : ∀ i : RequestId, i ∈ r.ids.free ∨ i ∈ r.ordinaryIds ↔
      1 ≤ i.val.toNat ∧ i.val.toNat ≤ r.ids.highWater.toNat := by
    intro i
    rw [hwater, ← IdPool.mem_upTo hlends.balance.peak_lt, ← hlends.balance.ids,
      Multiset.mem_add, Multiset.mem_coe, Multiset.mem_coe, or_comm]
  refine ⟨hwater ▸ hlends, Multiset.coe_nodup.mp hnodup.2.1, ?_, hmem, ?_, by omega,
    hlends.next_add_one_ne_zero (by omega), ?_⟩
  · intro h hh hfree
    by_cases hid : h.id = RequestId.handshake
    · have hlow := ((hmem h.id).mp (Or.inl hfree)).1
      rw [hid] at hlow
      exact absurd hlow (by decide)
    · have hordinary : h.id ∈ r.ordinaryIds := by
        simp only [ordinaryIds, List.mem_filter]
        exact ⟨List.mem_map_of_mem hh, by simp [RequestId.isHandshake, hid]⟩
      exact Multiset.disjoint_left.mp hnodup.2.2 (Multiset.mem_coe.mpr hordinary)
        (Multiset.mem_coe.mpr hfree)
  · rw [hlends.balance.outstanding, Multiset.coe_card, ordinaryIds, List.filter_map,
      List.length_map]
    rfl
  · intro op h hop hgrant
    have hc := change_of_act r op
    rw [hgrant] at hc
    have hcard : Multiset.card (r.ordinaryIds : Multiset RequestId) < UInt32.size - 1 := by
      rw [Multiset.coe_card]
      omega
    have hne := hlends.acquire_ne_handshake hcard
    rw [hc.id_of_granted hop]
    refine ⟨hne, ?_⟩
    rw [Bool.eq_false_iff]
    intro hpending
    obtain ⟨g, hg, hid⟩ := isPending_iff.mp hpending
    have hordinary : r.ids.acquire.1 ∈ r.ordinaryIds := by
      simp only [ordinaryIds, List.mem_filter]
      exact ⟨hid ▸ List.mem_map_of_mem hg, by simp [RequestId.isHandshake, hne]⟩
    exact hlends.acquire_notMem hcard (Multiset.mem_coe.mpr hordinary)

/-- In every run, table and pool agree, whatever is in the table has been granted, and the
identifier of the handshake has entered the table once at most. -/
theorem ids_agree_with_table {ceiling : Nat} {policy : Policy} {r : Registry}
    (hmake : make ceiling policy = .ok r) (ops : List Op) :
    IdsAgree ceiling (r.run ops) ∧ (∀ h ∈ (r.run ops).pending, h ∈ r.granted ops) ∧
      (r.granted ops).countP (fun h => h.id.isHandshake) ≤ 1 := by
  have hsound := sound_of_make hmake
  obtain ⟨hceiling, hempty⟩ := ceiling_of_make hmake
  refine ⟨?_, ?_, ?_⟩
  · have hagree := (sound_run hsound ops).idsAgree
    rwa [ceiling_run, hceiling] at hagree
  · intro h hh
    rcases mem_granted_of_run hh with hold | hgranted
    · rw [hempty] at hold
      exact absurd hold List.not_mem_nil
    · exact hgranted
  · exact (countP_granted_handshake hsound ops).trans (Bool.toNat_le _)

/-- A registry with two slots: its first identifier is issued to a second request while
the third waits in line, and everything is drained in the end. -/
def reissue : List Op :=
  [.greet, .settle RequestId.handshake (.ok .ok), .markReady, .register, .register, .register,
    .settle ⟨1⟩ (.ok .nil), .resume ⟨0⟩, .settle ⟨7⟩ (.ok .ok), .register]

theorem ids_agree_after_reissue :
    ∃ r, make 2 .block = .ok r ∧ IdsAgree 2 (r.run reissue) ∧
      (r.granted reissue).map (fun h => h.id.val) = [0, 1, 2, 1] :=
  ⟨_, rfl, (ids_agree_with_table rfl reissue).1, by decide⟩

end Switchboard.Registry
