import Mathlib.Data.List.Induction
import Switchboard.Proofs.IdLending

/-!
What a pool of identifiers answers, told from the history of the calls on it alone. The
history says which identifiers are checked out, which were returned and not issued again,
and how many were ever checked out at once. As long as the callers return only what is
checked out and leave one number of the space over, the pool agrees with its history, up
to and including the call that checks out the last number and makes the counter start
again. `Recorded` is the invariant, `Recorded.deal` its step.
-/
namespace Switchboard.IdPool

/-- A call on a pool. -/
inductive Call where
  | acquire
  | release (id : RequestId)

/-- A call on a pool, with the identifier it was about. -/
inductive Deal where
  | issued (id : RequestId)
  | returned (id : RequestId)

/-- The identifiers that are checked out after a history, whose latest deal comes first. -/
def out : List Deal → Multiset RequestId
  | [] => 0
  | .issued id :: past => id ::ₘ out past
  | .returned id :: past => (out past).erase id

/-- The largest number of identifiers that were ever checked out at once. -/
def peak : List Deal → Nat
  | [] => 0
  | d :: past => max (peak past) (out (d :: past)).card

/-- The highest number that was ever issued. -/
def highest : List Deal → Nat
  | [] => 0
  | .issued id :: past => max (highest past) id.val.toNat
  | .returned _ :: past => highest past

/-- The identifiers that were returned and not issued again, the latest return first. The
handshake identifier is not taken back. -/
def idle : List Deal → List RequestId
  | [] => []
  | .issued id :: past => (idle past).erase id
  | .returned id :: past => if id.isHandshake then idle past else id :: idle past

/-- One call, and how the history goes on. -/
def deal : IdPool × List Deal → Call → IdPool × List Deal
  | (p, past), .acquire => (p.acquire.2, .issued p.acquire.1 :: past)
  | (p, past), .release id => (p.release id, .returned id :: past)

/-- A new pool after these calls, and their history. -/
def deals (calls : List Call) : IdPool × List Deal := calls.foldl deal ({}, [])

/-- What a caller may do after a history. -/
def Allows (past : List Deal) : Call → Prop
  | .acquire => (out past).card < UInt32.size - 1
  | .release id => id = RequestId.handshake ∨ id ∈ out past

/-- Every one of these calls on a new pool is allowed when it is made. -/
def Disciplined (calls : List Call) : Prop :=
  ∀ before c, before ++ [c] <+: calls → Allows (deals before).2 c

theorem deals_append (calls : List Call) (c : Call) :
    deals (calls ++ [c]) = deal (deals calls) c := by
  simp [deals]

theorem head?_idle_release (calls : List Call) {id : RequestId}
    (h : id ≠ RequestId.handshake) :
    (idle (deals (calls ++ [.release id])).2).head? = some id := by
  simp [deals_append, deal, idle, RequestId.isHandshake, h]

theorem Disciplined.of_append {calls : List Call} {c : Call}
    (h : Disciplined (calls ++ [c])) : Disciplined calls ∧ Allows (deals calls).2 c :=
  ⟨fun before d hd => h before d (hd.trans (List.prefix_append _ _)),
    h calls c (List.prefix_refl _)⟩

theorem Disciplined.append {calls : List Call} {c : Call} (h : Disciplined calls)
    (hc : Allows (deals calls).2 c) : Disciplined (calls ++ [c]) := by
  intro before d hd
  rcases List.prefix_concat_iff.mp hd with heq | hlt
  · obtain ⟨rfl, hdc⟩ := List.append_inj' heq rfl
    obtain rfl : d = c := by simpa using hdc
    exact hc
  · exact h before d hlt

/-- A pool and the history of its calls agree. -/
structure Recorded (p : IdPool) (past : List Deal) : Prop where
  lends : p.Lends (out past) (peak past)
  free : p.free = idle past
  highest : highest past = peak past

namespace Recorded

variable {p : IdPool} {past : List Deal}

theorem start : Recorded {} [] := ⟨.start, rfl, rfl⟩

theorem acquire (h : Recorded p past) (hroom : (out past).card < UInt32.size - 1) :
    Recorded p.acquire.2 (.issued p.acquire.1 :: past) := by
  have hlends := h.lends.acquire hroom
  have hlen := h.lends.balance.card_add_length
  refine ⟨by simpa [out, peak] using hlends, ?_, ?_⟩
  · rw [idle, ← h.free]
    cases hfree : p.free <;> simp [IdPool.acquire, hfree]
  · -- the number issued is at most the peak; a fresh one is the peak itself
    simp only [IdPool.highest, peak, out, Multiset.card_cons, h.highest]
    have hle : p.acquire.1.val.toNat ≤ max (peak past) ((out past).card + 1) := by
      refine ((mem_upTo hlends.balance.peak_lt _).mp ?_).2
      rw [← hlends.balance.ids]
      simp
    cases hfree : p.free with
    | nil =>
      have hpeak : (out past).card = peak past := by simpa [hfree] using hlen
      have hnumber : p.acquire.1.val.toNat = peak past + 1 := by
        simp only [IdPool.acquire, hfree, h.lends.balance.next, counterAt]
        rw [if_neg (by omega), UInt32.toNat_ofNat_of_lt' (by omega)]
      omega
    | cons id rest =>
      simp only [hfree, List.length_cons] at hlen
      omega

theorem release (h : Recorded p past) {id : RequestId}
    (hid : id = RequestId.handshake ∨ id ∈ out past) :
    Recorded (p.release id) (.returned id :: past) := by
  have hlen := h.lends.balance.card_add_length
  rcases hid with rfl | hid
  · have hnot : RequestId.handshake ∉ out past := fun hm =>
      h.lends.balance.ne_handshake hm rfl
    have hout : (out past).erase RequestId.handshake = out past :=
      Multiset.erase_of_notMem hnot
    have hpeak : max (peak past) (out past).card = peak past := by omega
    rw [release_handshake]
    refine ⟨?_, ?_, ?_⟩
    · simpa only [out, peak, hout, hpeak] using h.lends
    · simpa [idle, RequestId.isHandshake] using h.free
    · simpa only [IdPool.highest, peak, out, hout, hpeak] using h.highest
  · have hne : id.isHandshake = false := by
      simpa [RequestId.isHandshake] using h.lends.balance.ne_handshake hid
    have hpeak : max (peak past) ((out past).erase id).card = peak past := by
      have := Multiset.card_erase_le (a := id) (s := out past)
      omega
    refine ⟨?_, ?_, ?_⟩
    · simpa only [out, peak, hpeak] using h.lends.release hid
    · simp [IdPool.release, idle, hne, h.free]
    · simpa only [IdPool.highest, peak, out, hpeak] using h.highest

theorem deal {s : IdPool × List Deal} {c : Call} (h : Recorded s.1 s.2)
    (hc : Allows s.2 c) : Recorded (deal s c).1 (deal s c).2 := by
  cases c with
  | acquire => exact h.acquire hc
  | release id => exact h.release hc

/-- What was returned last and not issued again is issued next. -/
theorem acquire_latest (h : Recorded p past) {id : RequestId}
    (hid : (idle past).head? = some id) : p.acquire.1 = id := by
  obtain ⟨rest, hrest⟩ := List.head?_eq_some_iff.mp hid
  simp [IdPool.acquire, h.free, hrest]

end Recorded

theorem recorded_deals {calls : List Call} (h : Disciplined calls) :
    Recorded (deals calls).1 (deals calls).2 := by
  induction calls using List.reverseRecOn with
  | nil => exact .start
  | append_singleton calls c ih =>
    obtain ⟨hcalls, hc⟩ := h.of_append
    rw [deals_append]
    exact (ih hcalls).deal hc

/-- A pool answers as its history says. -/
structure Answers (p : IdPool) (past : List Deal) : Prop where
  /-- It counts what is checked out, and nothing is checked out twice. -/
  outstanding : p.outstanding = (out past).card
  nodup : (out past).Nodup
  /-- What it issues next is new to those who hold identifiers. -/
  fresh : (out past).card < UInt32.size - 1 →
    p.acquire.1 ≠ RequestId.handshake ∧ p.acquire.1 ∉ out past
  /-- What was returned last is issued first. -/
  latest : ∀ id, (idle past).head? = some id → p.acquire.1 = id
  /-- The numbers in use go as far as the largest number checked out at once. -/
  bounded : peak past < UInt32.size - 1 →
    p.highWater.toNat = peak past ∧ p.highWater.toNat = highest past

/-- A pool whose callers keep to the rules issues only what nobody holds, the latest return
first, and needs no more numbers than were ever checked out at once. -/
theorem lends_safely {calls : List Call} (h : Disciplined calls) :
    Answers (deals calls).1 (deals calls).2 := by
  have hrec := recorded_deals h
  refine ⟨hrec.lends.balance.outstanding, ?_, ?_, fun id hid => hrec.acquire_latest hid, ?_⟩
  · exact (Multiset.nodup_add.mp hrec.lends.nodup).1
  · exact fun hroom =>
      ⟨hrec.lends.acquire_ne_handshake hroom, hrec.lends.acquire_notMem hroom⟩
  · intro hpeak
    have hwater := hrec.lends.toNat_highWater hpeak
    exact ⟨hwater, hwater.trans hrec.highest.symm⟩

/-! The end of the space -/

theorem out_replicate {n : Nat} :
    (out (deals (List.replicate n .acquire)).2).card = n := by
  induction n with
  | zero => rfl
  | succ n ih =>
    rw [List.replicate_succ', deals_append]
    simpa [deal, out] using ih

theorem disciplined_replicate {n : Nat} (hn : n < UInt32.size) :
    Disciplined (List.replicate n .acquire) := by
  induction n with
  | zero =>
    intro before c h
    simp at h
  | succ n ih =>
    rw [List.replicate_succ']
    refine (ih (by omega)).append ?_
    rw [Allows, out_replicate]
    omega

theorem mem_out_replicate {n : Nat} (hn : n < UInt32.size) {id : RequestId}
    (hlow : 1 ≤ id.val.toNat) (hhigh : id.val.toNat ≤ n) :
    id ∈ out (deals (List.replicate n .acquire)).2 := by
  have hrec := recorded_deals (disciplined_replicate hn)
  have hpeak : peak (deals (List.replicate n .acquire)).2 = n ∧
      idle (deals (List.replicate n .acquire)).2 = [] := by
    clear hlow hhigh hrec
    induction n with
    | zero => exact ⟨rfl, rfl⟩
    | succ n ih =>
      obtain ⟨hp, hi⟩ := ih (by omega)
      have hcard := out_replicate (n := n)
      rw [List.replicate_succ', deals_append]
      simp [deal, peak, out, idle, hp, hi, hcard]
  have hids := hrec.lends.balance.ids
  rw [hrec.free, hpeak.1, hpeak.2] at hids
  have hout : out (deals (List.replicate n .acquire)).2 = upTo n := by simpa using hids
  rw [hout]
  exact (mem_upTo hn id).mpr ⟨hlow, hhigh⟩

theorem disciplined_release {n : Nat} (hn : n < UInt32.size) {id : RequestId}
    (hlow : 1 ≤ id.val.toNat) (hhigh : id.val.toNat ≤ n) :
    Disciplined (List.replicate n .acquire ++ [.release id]) :=
  (disciplined_replicate hn).append (Or.inr (mem_out_replicate hn hlow hhigh))

/-- When every number is checked out and the counter has started again, the pool has only
the number that comes back, and issues it. -/
theorem lends_safely_when_exhausted :
    Disciplined (List.replicate (UInt32.size - 1) .acquire ++ [.release ⟨7⟩]) ∧
      (deals (List.replicate (UInt32.size - 1) .acquire ++ [.release ⟨7⟩])).1.acquire.1 =
        ⟨7⟩ := by
  have hd : Disciplined (List.replicate (UInt32.size - 1) .acquire ++ [.release ⟨7⟩]) :=
    disciplined_release (by decide) (by decide) (by decide)
  exact ⟨hd, (lends_safely hd).latest _ (head?_idle_release _ (by decide))⟩

end Switchboard.IdPool
