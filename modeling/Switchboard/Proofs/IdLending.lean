import Mathlib.Data.Multiset.MapFold
import Mathlib.Data.Multiset.Range
import Switchboard.IdPool

/-!
What a pool of identifiers owes to those who use it with discipline: they return only
what is checked out, and never check out the whole space of identifiers. Then the
identifiers that are checked out and those that are free are together the numbers from
one up to the largest count ever checked out at once. So an identifier that is checked
out is never issued a second time, and the space in use does not grow with the length
of the run. `Lends.balance` is the invariant; the rest is read off it.
-/
namespace Switchboard.IdPool

/-- A pool, the identifiers that are checked out of it, and the largest number that were
ever checked out at once. -/
inductive Lends : IdPool → Multiset RequestId → Nat → Prop
  | start : Lends {} 0 0
  | acquire {p : IdPool} {out : Multiset RequestId} {peak : Nat} :
      Lends p out peak → out.card < UInt32.size - 1 →
      Lends p.acquire.2 (p.acquire.1 ::ₘ out) (max peak (out.card + 1))
  | release {p : IdPool} {out : Multiset RequestId} {peak : Nat} {id : RequestId} :
      Lends p out peak → id ∈ out → Lends (p.release id) (out.erase id) peak

/-- The identifiers with the numbers from one up to `n`. -/
def upTo (n : Nat) : Multiset RequestId :=
  (Multiset.range n).map fun i => ⟨UInt32.ofNat (i + 1)⟩

@[simp] theorem card_upTo (n : Nat) : (upTo n).card = n := by
  simp [upTo]

theorem upTo_succ (n : Nat) : upTo (n + 1) = ⟨UInt32.ofNat (n + 1)⟩ ::ₘ upTo n := by
  simp [upTo, Multiset.range_succ]

private theorem toNat_ofNat_succ {i n : Nat} (hi : i < n) (hn : n < UInt32.size) :
    (UInt32.ofNat (i + 1)).toNat = i + 1 :=
  UInt32.toNat_ofNat_of_lt' (by omega)

theorem mem_upTo {n : Nat} (hn : n < UInt32.size) (id : RequestId) :
    id ∈ upTo n ↔ 1 ≤ id.val.toNat ∧ id.val.toNat ≤ n := by
  simp only [upTo, Multiset.mem_map, Multiset.mem_range]
  constructor
  · rintro ⟨i, hi, rfl⟩
    have h := toNat_ofNat_succ hi hn
    simp only [h]
    omega
  · rintro ⟨hlow, hhigh⟩
    refine ⟨id.val.toNat - 1, by omega, ?_⟩
    have h : id.val.toNat - 1 + 1 = id.val.toNat := by omega
    rw [h, UInt32.ofNat_toNat]

theorem nodup_upTo {n : Nat} (hn : n < UInt32.size) : (upTo n).Nodup := by
  refine Multiset.Nodup.map_on ?_ (Multiset.nodup_range n)
  intro i hi j hj h
  have hi' := toNat_ofNat_succ (Multiset.mem_range.mp hi) hn
  have hj' := toNat_ofNat_succ (Multiset.mem_range.mp hj) hn
  have h' : (UInt32.ofNat (i + 1)).toNat = (UInt32.ofNat (j + 1)).toNat :=
    congrArg (fun r : RequestId => r.val.toNat) h
  omega

/-- The counter of a pool from which at most `peak` identifiers were checked out at once.
Past the last number it starts again. -/
def counterAt (peak : Nat) : UInt32 :=
  if peak = UInt32.size - 1 then 1 else UInt32.ofNat (peak + 1)

theorem following_counterAt {peak : Nat} (h : peak < UInt32.size - 1) :
    following (counterAt peak) = counterAt (peak + 1) := by
  have hne : peak ≠ UInt32.size - 1 := by omega
  unfold counterAt following
  rw [if_neg hne]
  by_cases hlast : peak + 1 = UInt32.size - 1
  · rw [if_pos hlast, hlast]
    decide
  · rw [if_neg hlast, ← UInt32.ofNat_one, ← UInt32.ofNat_add, if_neg]
    intro hzero
    have h' : (UInt32.ofNat (peak + 1 + 1)).toNat = 0 := by rw [hzero]; rfl
    rw [UInt32.toNat_ofNat_of_lt' (by omega)] at h'
    omega

namespace Lends

/-- The books of a pool balance. -/
structure Balance (p : IdPool) (out : Multiset RequestId) (peak : Nat) : Prop where
  ids : out + (p.free : Multiset RequestId) = upTo peak
  next : p.next = counterAt peak
  outstanding : p.outstanding = out.card
  peak_lt : peak < UInt32.size

variable {p : IdPool} {out : Multiset RequestId} {peak : Nat}

namespace Balance

theorem card_add_length (h : Balance p out peak) : out.card + p.free.length = peak := by
  have hc := congrArg Multiset.card h.ids
  simpa using hc

theorem ne_handshake (h : Balance p out peak) {id : RequestId} (hid : id ∈ out) :
    id ≠ RequestId.handshake := by
  rintro rfl
  have hmem : RequestId.handshake ∈ upTo peak := by
    rw [← h.ids]
    exact Multiset.mem_add.mpr (Or.inl hid)
  have hlow := ((mem_upTo h.peak_lt _).mp hmem).1
  exact absurd hlow (by decide)

theorem acquire (h : Balance p out peak) (hroom : out.card < UInt32.size - 1) :
    Balance p.acquire.2 (p.acquire.1 ::ₘ out) (max peak (out.card + 1)) := by
  have hlen := h.card_add_length
  cases hfree : p.free with
  | nil =>
    -- every identifier issued so far is checked out, so the counter moves on
    have hpeak : out.card = peak := by simpa [hfree] using hlen
    have hids : out = upTo peak := by simpa [hfree] using h.ids
    have hmax : max peak (out.card + 1) = peak + 1 := by omega
    have hnext : p.next = UInt32.ofNat (peak + 1) := by
      rw [h.next, counterAt, if_neg (by omega)]
    rw [hmax]
    refine ⟨?_, ?_, ?_, by omega⟩
    · simp [IdPool.acquire, hfree, hids, upTo_succ, hnext]
    · simp only [IdPool.acquire, hfree]
      rw [h.next, following_counterAt (by omega)]
    · simp [h.outstanding]
  | cons id rest =>
    have hmax : max peak (out.card + 1) = peak := by
      simp only [hfree, List.length_cons] at hlen
      omega
    rw [hmax]
    refine ⟨?_, ?_, ?_, h.peak_lt⟩
    · rw [← h.ids]
      simp [IdPool.acquire, hfree, ← Multiset.cons_coe]
    · simpa [IdPool.acquire, hfree] using h.next
    · simp [h.outstanding]

theorem release (h : Balance p out peak) {id : RequestId} (hid : id ∈ out) :
    Balance (p.release id) (out.erase id) peak := by
  have hne : id.isHandshake = false := by
    simpa [RequestId.isHandshake] using h.ne_handshake hid
  refine ⟨?_, ?_, ?_, h.peak_lt⟩
  · rw [← h.ids]
    simp only [IdPool.release, hne, Bool.false_eq_true, if_false]
    rw [← Multiset.cons_coe, Multiset.add_cons, ← Multiset.cons_add, Multiset.cons_erase hid]
  · simpa [IdPool.release, hne] using h.next
  · simp [IdPool.release, hne, h.outstanding, Multiset.card_erase_of_mem hid]

end Balance

theorem balance (h : Lends p out peak) : Balance p out peak := by
  induction h with
  | start => exact ⟨by simp [upTo], by decide, rfl, by decide⟩
  | acquire _ hroom ih => exact ih.acquire hroom
  | release _ hid ih => exact ih.release hid

theorem nodup (h : Lends p out peak) : (out + (p.free : Multiset RequestId)).Nodup := by
  rw [h.balance.ids]
  exact nodup_upTo h.balance.peak_lt

theorem acquire_notMem (h : Lends p out peak) (hroom : out.card < UInt32.size - 1) :
    p.acquire.1 ∉ out := by
  have hd := (h.acquire hroom).nodup
  rw [Multiset.cons_add, Multiset.nodup_cons] at hd
  exact fun hm => hd.1 (Multiset.mem_add.mpr (Or.inl hm))

theorem acquire_ne_handshake (h : Lends p out peak) (hroom : out.card < UInt32.size - 1) :
    p.acquire.1 ≠ RequestId.handshake :=
  (h.acquire hroom).balance.ne_handshake (Multiset.mem_cons_self _ _)

/-- While the counter has not started again, the highest number issued is the largest
number of identifiers that were ever checked out at once. -/
theorem toNat_highWater (h : Lends p out peak) (hpeak : peak < UInt32.size - 1) :
    p.highWater.toNat = peak := by
  rw [highWater, h.balance.next, counterAt, if_neg (by omega)]
  have hcancel : UInt32.ofNat (peak + 1) - 1 = UInt32.ofNat peak := by
    rw [UInt32.ofNat_add, UInt32.ofNat_one, UInt32.add_sub_cancel]
  rw [hcancel, UInt32.toNat_ofNat_of_lt' (by omega)]

theorem next_add_one_ne_zero (h : Lends p out peak) (hpeak : peak < UInt32.size - 2) :
    p.next + 1 ≠ 0 := by
  rw [h.balance.next, counterAt, if_neg (by omega)]
  intro hzero
  have hsum : (UInt32.ofNat (peak + 1 + 1)).toNat = 0 := by
    rw [UInt32.ofNat_add, UInt32.ofNat_one, hzero]
    rfl
  rw [UInt32.toNat_ofNat_of_lt' (by omega)] at hsum
  omega

end Lends

end Switchboard.IdPool
