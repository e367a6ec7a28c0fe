import Switchboard.Proofs.Wire

/-!
A reader that is fed in parts. It makes no difference to the frames that come off whether
bytes arrive before or after a reader has looked for the next one: a frame that is there comes
off in the same way when more bytes follow, and a reader that needs more is none the worse for
having looked. So all frames of a buffer are the first one and those of what it leaves.
-/
namespace Switchboard

theorem extract_append_of_le {a b : ByteArray} {n : Nat} (h : n ≤ a.size) :
    (a ++ b).extract 0 n = a.extract 0 n ∧
      (a ++ b).extract n (a.size + b.size) = a.extract n a.size ++ b := by
  have hsize : (a.extract 0 n).size = n := by
    rw [ByteArray.size_extract]
    omega
  have hsplit : (a ++ b) ++ .empty = a.extract 0 n ++ (a.extract n a.size ++ b) := by
    rw [ByteArray.append_empty, ← ByteArray.append_assoc, Stream.extract_append_extract_size h]
  have hle : (a.extract 0 n).size ≤ (a ++ b).size := by
    rw [hsize, ByteArray.size_append]
    omega
  have hcut := extract_of_append_eq hsplit hle
  rwa [hsize, ByteArray.append_empty, ByteArray.size_append] at hcut

namespace Deframer

variable {d d' : Deframer} {b : ByteArray} {f : Frame} {e : Bool}

/-! Feeding in parts -/

theorem feed_append (d : Deframer) (b c : ByteArray) : d.feed (b ++ c) = (d.feed b).feed c := by
  simp only [feed, ByteArray.append_assoc]

@[simp] theorem feed_empty (d : Deframer) : d.feed .empty = d := by
  simp [feed, ByteArray.append_empty]

theorem takeHeader_of_announced {n : Nat} (h : d.announced = some n) : d.takeHeader = d := by
  simp [takeHeader, h]

/-- It makes no difference whether a header is taken off before more bytes come. -/
theorem takeHeader_feed (d : Deframer) (b : ByteArray) :
    (d.takeHeader.feed b).takeHeader = (d.feed b).takeHeader := by
  cases hannounced : d.announced with
  | some n => rw [takeHeader_of_announced hannounced]
  | none =>
    by_cases hshort : d.buffer.size < Frame.headerSize
    · have hsame : d.takeHeader = d := by simp [takeHeader, hannounced, hshort]
      rw [hsame]
    · obtain ⟨hheader, hrest⟩ := extract_append_of_le (b := b) (Nat.le_of_not_lt hshort)
      have hlong : ¬ d.buffer.size + b.size < Frame.headerSize := by omega
      have hbefore : (d.takeHeader.feed b).takeHeader = d.takeHeader.feed b := by
        refine takeHeader_of_announced
          (n := Frame.headerValue (d.buffer.extract 0 Frame.headerSize)) ?_
        simp [takeHeader, feed, hannounced, hshort]
      rw [hbefore]
      simp [takeHeader, feed, hannounced, hshort, hlong, hheader, hrest]

theorem takeBody_of_frame (h : d.takeBody e = (.frame f, d')) :
    ∃ n, d.announced = some n ∧ n ≤ Frame.maxSize ∧ n ≤ d.buffer.size ∧
      f = d.buffer.extract 0 n ∧ d' = { buffer := d.buffer.extract n d.buffer.size } := by
  unfold takeBody at h
  cases hannounced : d.announced with
  | none =>
    rw [hannounced] at h
    simp only [Prod.mk.injEq] at h
    split at h
    · split at h <;> cases h.1
    · cases h.1
  | some n =>
    rw [hannounced] at h
    simp only at h
    by_cases hfits : Frame.maxSize < n
    · rw [if_pos hfits] at h
      cases h
    · rw [if_neg hfits] at h
      by_cases hthere : d.buffer.size < n
      · rw [if_pos hthere] at h
        simp only [Prod.mk.injEq] at h
        split at h
        · split at h <;> cases h.1
        · cases h.1
      · rw [if_neg hthere] at h
        simp only [Prod.mk.injEq, Inbound.frame.injEq] at h
        exact ⟨n, rfl, Nat.le_of_not_lt hfits, Nat.le_of_not_lt hthere, h.1.symm, h.2.symm⟩

theorem takeBody_of_starved (h : d.takeBody e = (.starved, d')) : d' = d := by
  unfold takeBody at h
  cases hannounced : d.announced with
  | none =>
    rw [hannounced] at h
    exact (Prod.mk.inj h).2.symm
  | some n =>
    rw [hannounced] at h
    simp only at h
    split at h
    · cases h
    · split at h
      · exact (Prod.mk.inj h).2.symm
      · cases h

/-- A frame that is there comes off in the same way when more bytes follow. -/
theorem next_feed_of_frame (h : d.next e = (.frame f, d')) (b : ByteArray) (e' : Bool) :
    (d.feed b).next e' = (.frame f, d'.feed b) := by
  obtain ⟨n, hannounced, hfits, hthere, rfl, rfl⟩ := takeBody_of_frame h
  have hmore : (d.takeHeader.feed b).announced = some n := hannounced
  obtain ⟨hbody, hrest⟩ := extract_append_of_le (b := b) hthere
  have hlong : ¬ d.takeHeader.buffer.size + b.size < n := by omega
  rw [next, ← takeHeader_feed, takeHeader_of_announced hmore]
  simp [takeBody, feed, hannounced, Nat.not_lt.mpr hfits, hlong, hbody, hrest]

/-- A reader that needs more bytes may be fed before or after it finds that out. -/
theorem next_feed_of_starved (h : d.next e = (.starved, d')) (b : ByteArray) (e' : Bool) :
    (d.feed b).next e' = (d'.feed b).next e' := by
  rw [takeBody_of_starved h, next, next, takeHeader_feed]

/-! All frames that a buffer holds -/

/-- A bound on the number of frames that can be taken off. -/
def stock (d : Deframer) : Nat := d.buffer.size + d.announced.toList.length

theorem stock_le_succ (d : Deframer) : d.stock ≤ d.buffer.size + 1 := by
  unfold stock
  cases d.announced <;> simp

theorem stock_takeHeader_le (d : Deframer) : d.takeHeader.stock ≤ d.stock := by
  cases hannounced : d.announced with
  | some n => exact Nat.le_of_eq (congrArg stock (takeHeader_of_announced hannounced))
  | none =>
    have hheader : Frame.headerSize = 4 := rfl
    by_cases hshort : d.buffer.size < Frame.headerSize
    · simp [takeHeader, hannounced, hshort]
    · simp only [takeHeader, hannounced, hshort, if_false, stock, ByteArray.size_extract,
        Option.toList_some, Option.toList_none, List.length_cons, List.length_nil]
      omega

theorem stock_of_frame (h : d.next e = (.frame f, d')) : d'.stock < d.stock := by
  have hle := d.stock_takeHeader_le
  obtain ⟨n, hannounced, -, -, -, rfl⟩ := takeBody_of_frame h
  have hlt : stock { buffer := d.takeHeader.buffer.extract n d.takeHeader.buffer.size } <
      d.takeHeader.stock := by
    simp only [stock, hannounced, ByteArray.size_extract, Option.toList_some, Option.toList_none,
      List.length_cons, List.length_nil]
    omega
  omega

theorem frames_eq_nil (h : ∀ f d', d.next false ≠ (.frame f, d')) (fuel : Nat) :
    (d.frames fuel).1 = [] := by
  cases fuel with
  | zero => rfl
  | succ fuel =>
    rw [frames]
    cases hnext : d.next false with
    | mk item d' =>
      cases item with
      | frame f => exact absurd hnext (h f d')
      | starved | finished | fault => rfl

theorem frames_congr {fuel fuel' : Nat} (h : d.stock ≤ fuel) (h' : d.stock ≤ fuel') :
    (d.frames fuel).1 = (d.frames fuel').1 := by
  induction fuel generalizing d fuel' with
  | zero =>
    have hnone : ∀ f d', d.next false ≠ (.frame f, d') := by
      intro f d' hnext
      have := stock_of_frame hnext
      omega
    rw [frames_eq_nil hnone, frames_eq_nil hnone]
  | succ fuel ih =>
    by_cases hnext : ∃ f d', d.next false = (.frame f, d')
    · obtain ⟨f, d', hnext⟩ := hnext
      have hlt := stock_of_frame hnext
      obtain ⟨fuel'', rfl⟩ : ∃ n, fuel' = n + 1 := ⟨fuel' - 1, by omega⟩
      simp only [frames, hnext]
      rw [ih (d := d') (by omega) (by omega : d'.stock ≤ fuel'')]
    · have hnone : ∀ f d', d.next false ≠ (.frame f, d') :=
        fun f d' h => hnext ⟨f, d', h⟩
      rw [frames_eq_nil hnone, frames_eq_nil hnone]

/-- The frames of a buffer are the first that comes off, and those of what it leaves. -/
theorem decoded_of_frame (h : d.next false = (.frame f, d')) : d.decoded = f :: d'.decoded := by
  have hlt := stock_of_frame h
  have hle := d.stock_le_succ
  rw [decoded, frames]
  simp only [h]
  rw [frames_congr (d := d') (by omega) d'.stock_le_succ]
  rfl

theorem decoded_of_no_frame (h : ∀ f d', d.next false ≠ (.frame f, d')) : d.decoded = [] :=
  frames_eq_nil h _

theorem decoded_congr {c : Deframer} (h : d.next false = c.next false) :
    d.decoded = c.decoded := by
  by_cases hnext : ∃ f d', d.next false = (.frame f, d')
  · obtain ⟨f, d', hnext⟩ := hnext
    rw [decoded_of_frame hnext, decoded_of_frame (h.symm.trans hnext)]
  · have hnone : ∀ f d', d.next false ≠ (.frame f, d') :=
      fun f d' h => hnext ⟨f, d', h⟩
    rw [decoded_of_no_frame hnone, decoded_of_no_frame fun f d' hc => hnone f d' (h.trans hc)]

end Deframer

end Switchboard
