import Mathlib.Tactic.SplitIfs
import Switchboard.Framing
import Switchboard.Stream

/-!
Frames in transit. `Carries` says which frames a reader will find: those whose bytes are
partly in its buffer and partly still to come. Frames come off in the order in which they
were written, each as it was, however the stream cuts their bytes.
-/
namespace Switchboard

/-- The bytes of a frame on the stream. -/
def Frame.packet (f : Frame) : ByteArray := Frame.header f.size ++ f

/-- The bytes of frames on the stream. -/
def wire : List Frame → ByteArray
  | [] => .empty
  | f :: fs => f.packet ++ wire fs

namespace Frame

theorem toBytes_eq_packet {f : Frame} {b : ByteArray} (h : f.toBytes = .ok b) :
    b = f.packet ∧ f.size ≤ maxSize := by
  unfold toBytes at h
  split_ifs at h with hsize
  cases h
  exact ⟨rfl, Nat.le_of_not_lt hsize⟩

theorem size_header (n : Nat) : (header n).size = headerSize := rfl

theorem headerValue_header {n : Nat} (h : n < 4294967296) : headerValue (header n) = n := by
  simp only [headerValue, header, List.size_toArray, List.length_cons, List.length_nil,
    List.foldl_toArray', List.foldl_cons, List.foldl_nil, UInt8.toNat_ofNat']
  omega

end Frame

@[simp] theorem wire_nil : wire [] = .empty := rfl

theorem wire_append (fs gs : List Frame) : wire (fs ++ gs) = wire fs ++ wire gs := by
  induction fs with
  | nil => simp
  | cons f fs ih => rw [List.cons_append, wire, wire, ih, ByteArray.append_assoc]

theorem wire_singleton (f : Frame) : wire [f] = f.packet := ByteArray.append_empty

theorem length_le_size_wire (fs : List Frame) : Frame.headerSize * fs.length ≤ (wire fs).size := by
  induction fs with
  | nil => exact Nat.zero_le _
  | cons f fs ih =>
    have hheader := Frame.size_header f.size
    rw [wire, Frame.packet, ByteArray.size_append, ByteArray.size_append, List.length_cons,
      Nat.mul_add, Nat.mul_one]
    omega

theorem extract_of_append_eq {a b c d : ByteArray} (h : a ++ b = c ++ d)
    (hle : c.size ≤ a.size) :
    a.extract 0 c.size = c ∧ a.extract c.size a.size ++ b = d := by
  have hsplit : a = a.extract 0 c.size ++ a.extract c.size a.size := by
    rw [← ByteArray.extract_eq_extract_append_extract _ (Nat.zero_le _) hle,
      ByteArray.extract_zero_size]
  have hsize : (a.extract 0 c.size).size = c.size := by
    rw [ByteArray.size_extract]
    omega
  rw [hsplit, ByteArray.append_assoc,
    ByteArray.append_eq_append_iff_of_size_eq_left hsize] at h
  exact h

theorem eq_empty_of_isEmpty {b : ByteArray} (h : b.isEmpty = true) : b = .empty := by
  rw [← ByteArray.size_eq_zero_iff]
  simpa [ByteArray.isEmpty] using h

/-! Streams -/

namespace Stream

theorem room_le (s : Stream) (held wanted : Nat) : s.room held wanted ≤ wanted := by
  unfold room
  cases s.capacity with
  | none => exact Nat.le_refl _
  | some c => exact Nat.min_le_left _ _

theorem extract_append_extract_size {b : ByteArray} {n : Nat} (h : n ≤ b.size) :
    b.extract 0 n ++ b.extract n b.size = b := by
  rw [← ByteArray.extract_eq_extract_append_extract n (Nat.zero_le _) h,
    ByteArray.extract_zero_size]

theorem outbound_write (s : Stream) (b : ByteArray) :
    (s.write b).1.outbound ++ (s.write b).2 = s.outbound ++ b := by
  simp only [write]
  rw [ByteArray.append_assoc, extract_append_extract_size (s.room_le _ _)]

/-- What the peer writes is behind what it wrote before, or left over. -/
theorem inbound_peerWrite (s : Stream) (b : ByteArray) :
    (s.peerWrite b).1.inbound ++ (s.peerWrite b).2 = s.inbound ++ b := by
  unfold peerWrite
  split
  · simp only
    rw [ByteArray.append_assoc, extract_append_extract_size (s.room_le _ _)]
  · rfl

theorem outbound_peerWrite (s : Stream) (b : ByteArray) :
    (s.peerWrite b).1.outbound = s.outbound := by
  unfold peerWrite
  split <;> rfl

theorem peerOpen_peerWrite (s : Stream) (b : ByteArray) :
    (s.peerWrite b).1.peerOpen = s.peerOpen := by
  unfold peerWrite
  split <;> rfl

end Stream

/-! Readers -/

namespace Deframer

/-- With `rest` still to come, the reader will find these frames and nothing else. -/
inductive Carries : Deframer → ByteArray → List Frame → Prop
  /-- The reader is between two frames. -/
  | between {d : Deframer} {rest : ByteArray} {fs : List Frame} :
      d.announced = none → d.buffer ++ rest = wire fs → (∀ f ∈ fs, f.size ≤ Frame.maxSize) →
      Carries d rest fs
  /-- The reader has taken off a header. -/
  | within {d : Deframer} {rest : ByteArray} {f : Frame} {fs : List Frame} :
      d.announced = some f.size → d.buffer ++ rest = f ++ wire fs →
      (∀ g ∈ f :: fs, g.size ≤ Frame.maxSize) → Carries d rest (f :: fs)

/-- All frames that the buffer holds. -/
def decoded (d : Deframer) : List Frame := (d.frames (d.buffer.size + 1)).1

namespace Carries

variable {d : Deframer} {rest : ByteArray} {fs : List Frame}

theorem start : Carries {} .empty [] :=
  between rfl rfl (fun _ h => absurd h List.not_mem_nil)

theorem feed {b : ByteArray} (h : Carries d (b ++ rest) fs) : Carries (d.feed b) rest fs := by
  cases h with
  | between hd hb hs =>
    refine between hd ?_ hs
    rw [← hb, Deframer.feed, ByteArray.append_assoc]
  | within hd hb hs =>
    refine within hd ?_ hs
    rw [← hb, Deframer.feed, ByteArray.append_assoc]

theorem write {f : Frame} (h : Carries d rest fs) (hf : f.size ≤ Frame.maxSize) :
    Carries d (rest ++ f.packet) (fs ++ [f]) := by
  have hsizes : ∀ gs : List Frame, (∀ g ∈ gs, g.size ≤ Frame.maxSize) →
      ∀ g ∈ gs ++ [f], g.size ≤ Frame.maxSize := by
    intro gs hgs g hg
    rcases List.mem_append.mp hg with hold | hnew
    · exact hgs g hold
    · rw [List.mem_singleton.mp hnew]
      exact hf
  cases h with
  | between hd hb hs =>
    refine between hd ?_ (hsizes fs hs)
    rw [← ByteArray.append_assoc, hb, wire_append, wire_singleton]
  | @within g gs hd hb hs =>
    rw [List.cons_append]
    refine within hd ?_ (hsizes (g :: gs) hs)
    rw [← ByteArray.append_assoc, hb, wire_append, wire_singleton, ByteArray.append_assoc]

theorem writes {gs : List Frame} (h : Carries d rest fs)
    (hgs : ∀ g ∈ gs, g.size ≤ Frame.maxSize) :
    Carries d (rest ++ wire gs) (fs ++ gs) := by
  induction gs generalizing rest fs with
  | nil => simpa using h
  | cons g gs ih =>
    have hfirst := h.write (hgs g List.mem_cons_self)
    have hall := ih hfirst fun f hf => hgs f (List.mem_cons_of_mem _ hf)
    rwa [ByteArray.append_assoc, List.append_assoc] at hall

theorem takeHeader (h : Carries d rest fs) :
    Carries d.takeHeader rest fs ∧
      (d.takeHeader.announced = none → d.takeHeader.buffer.size < Frame.headerSize) := by
  cases h with
  | within hd hb hs =>
    have hsame : d.takeHeader = d := by simp [Deframer.takeHeader, hd]
    rw [hsame]
    refine ⟨within hd hb hs, fun hnone => ?_⟩
    rw [hd] at hnone
    cases hnone
  | between hd hb hs =>
    by_cases hshort : d.buffer.size < Frame.headerSize
    · have hsame : d.takeHeader = d := by simp [Deframer.takeHeader, hd, hshort]
      rw [hsame]
      exact ⟨between hd hb hs, fun _ => hshort⟩
    · cases fs with
      | nil =>
        have hempty := congrArg ByteArray.size hb
        rw [ByteArray.size_append, wire_nil, ByteArray.size_empty] at hempty
        have hpos : 0 < Frame.headerSize := by decide
        omega
      | cons f fs =>
        have hfirst : d.buffer ++ rest = Frame.header f.size ++ (f ++ wire fs) := by
          rw [hb, wire, Frame.packet, ByteArray.append_assoc]
        have hlong : (Frame.header f.size).size ≤ d.buffer.size :=
          Nat.le_of_not_lt hshort
        obtain ⟨hheader, hbody⟩ := extract_of_append_eq hfirst hlong
        rw [Frame.size_header] at hheader hbody
        have hsize : f.size < 4294967296 :=
          Nat.lt_of_le_of_lt (hs f List.mem_cons_self) (by decide)
        have htaken : d.takeHeader =
            { announced := some f.size
              buffer := d.buffer.extract Frame.headerSize d.buffer.size } := by
          simp [Deframer.takeHeader, hd, hshort, hheader, Frame.headerValue_header hsize]
        rw [htaken]
        exact ⟨within rfl hbody hs, nofun⟩

/-- The next item is the first of the frames, or has not all arrived. -/
theorem next (h : Carries d rest fs) :
    (∃ f gs d', fs = f :: gs ∧ d.next false = (.frame f, d') ∧ Carries d' rest gs) ∨
      ∃ d', d.next false = (.starved, d') ∧ Carries d' rest fs ∧ (rest = .empty → fs = []) := by
  obtain ⟨hcarries, hheader⟩ := h.takeHeader
  rw [Deframer.next]
  generalize d.takeHeader = d at hcarries hheader
  cases hcarries with
  | between hd hb hs =>
    right
    refine ⟨d, by simp [takeBody, hd], between hd hb hs, ?_⟩
    rintro rfl
    have hlen := length_le_size_wire fs
    have hshort := hheader hd
    have hheader : Frame.headerSize = 4 := rfl
    rw [← hb, ByteArray.append_empty, hheader] at hlen
    rw [hheader] at hshort
    rw [← List.length_eq_zero_iff]
    omega
  | @within f gs hd hb hs =>
    have hf : ¬ Frame.maxSize < f.size := Nat.not_lt.mpr (hs f List.mem_cons_self)
    by_cases hshort : d.buffer.size < f.size
    · right
      refine ⟨d, by simp [takeBody, hd, hf, hshort], within hd hb hs, ?_⟩
      rintro rfl
      have hsize := congrArg ByteArray.size hb
      rw [ByteArray.append_empty, ByteArray.size_append] at hsize
      omega
    · left
      obtain ⟨hbody, hremaining⟩ := extract_of_append_eq hb (Nat.le_of_not_lt hshort)
      refine ⟨f, gs, { buffer := d.buffer.extract f.size d.buffer.size }, rfl, ?_, ?_⟩
      · simp [takeBody, hd, hf, hshort, hbody]
      · exact between rfl hremaining fun g hg => hs g (List.mem_cons_of_mem _ hg)

theorem frames (h : Carries d rest fs) (fuel : Nat) :
    ∃ gs, fs = (d.frames fuel).1 ++ gs ∧ Carries (d.frames fuel).2 rest gs := by
  induction fuel generalizing d fs with
  | zero => exact ⟨fs, rfl, h⟩
  | succ fuel ih =>
    rcases h.next with ⟨f, gs, d', rfl, hnext, hcarries⟩ | ⟨d', hnext, hcarries, -⟩
    · obtain ⟨hs, hgs, hcarries⟩ := ih hcarries
      refine ⟨hs, ?_, ?_⟩
      · simp only [Deframer.frames, hnext]
        rw [List.cons_append, ← hgs]
      · simpa only [Deframer.frames, hnext] using hcarries
    · refine ⟨fs, ?_, ?_⟩
      · simp only [Deframer.frames, hnext, List.nil_append]
      · simpa only [Deframer.frames, hnext] using hcarries

theorem length_le (h : Carries d .empty fs) : fs.length ≤ d.buffer.size + 1 := by
  have hheader : Frame.headerSize = 4 := rfl
  cases h with
  | between hd hb hs =>
    have hlen := length_le_size_wire fs
    rw [← hb, ByteArray.append_empty, hheader] at hlen
    omega
  | @within f gs hd hb hs =>
    have hlen := length_le_size_wire gs
    have hsize := congrArg ByteArray.size hb
    rw [ByteArray.append_empty, ByteArray.size_append] at hsize
    rw [hheader] at hlen
    rw [List.length_cons]
    omega

theorem frames_eq (h : Carries d .empty fs) {fuel : Nat} (hfuel : fs.length ≤ fuel) :
    (d.frames fuel).1 = fs := by
  induction fuel generalizing d fs with
  | zero => exact (List.length_eq_zero_iff.mp (Nat.le_zero.mp hfuel)).symm
  | succ fuel ih =>
    rcases h.next with ⟨f, gs, d', rfl, hnext, hcarries⟩ | ⟨d', hnext, -, hempty⟩
    · rw [List.length_cons] at hfuel
      simp only [Deframer.frames, hnext]
      rw [ih hcarries (by omega)]
    · simp only [Deframer.frames, hnext]
      exact (hempty rfl).symm

theorem decoded_feed (h : Carries d rest fs) : (d.feed rest).decoded = fs := by
  have hall : Carries (d.feed rest) .empty fs := by
    apply feed
    rwa [ByteArray.append_empty]
  exact hall.frames_eq hall.length_le

end Carries

end Deframer

end Switchboard
