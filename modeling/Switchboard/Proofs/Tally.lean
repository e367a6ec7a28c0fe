import Switchboard.Proofs.ClientDeeds
import Switchboard.Proofs.LoopTurns

/-!
The books of an exchange. Every request of the log is at one place: its frame is in the
queue, on its way, or with the companion without an answer; or its answer is on its way; or
it has its answer. `Tally` says where each is, and that the table of the client holds the
requests of the first four kinds and no others. One lemma for each thing that can happen
says that the tally is kept as long as the link is not closed.
-/
namespace Switchboard

/-- The handles of a log of requests of which the companion has not answered the frames. It
has received the frames of the first requests, in the same order. -/
def awaiting : List (Handle × Payload) → List (Frame × Option Body) → List Handle
  | [], _ => []
  | q :: qs, [] => q.1 :: awaiting qs []
  | q :: qs, (_, none) :: rs => q.1 :: awaiting qs rs
  | _ :: qs, (_, some _) :: rs => awaiting qs rs

theorem awaiting_sublist (qs : List (Handle × Payload)) (rs : List (Frame × Option Body)) :
    (awaiting qs rs).Sublist (qs.map Prod.fst) := by
  induction qs generalizing rs with
  | nil => exact List.Sublist.refl _
  | cons q qs ih =>
    cases rs with
    | nil => exact (ih []).cons_cons q.1
    | cons r rs =>
      obtain ⟨f, answer⟩ := r
      cases answer with
      | none => exact (ih rs).cons_cons q.1
      | some b => exact (ih rs).cons q.1

theorem awaiting_append_request {qs : List (Handle × Payload)}
    {rs : List (Frame × Option Body)} (hlen : rs.length ≤ qs.length) (q : Handle × Payload) :
    awaiting (qs ++ [q]) rs = awaiting qs rs ++ [q.1] := by
  induction qs generalizing rs with
  | nil =>
    have hnil : rs = [] := List.length_eq_zero_iff.mp (Nat.le_zero.mp hlen)
    rw [hnil]
    rfl
  | cons p qs ih =>
    cases rs with
    | nil =>
      have hrest := @ih [] (Nat.zero_le _)
      simp [awaiting, hrest]
    | cons r rs =>
      obtain ⟨f, answer⟩ := r
      have hrest := ih (Nat.le_of_succ_le_succ hlen)
      cases answer with
      | none => simp [awaiting, hrest]
      | some b => simp [awaiting, hrest]

theorem awaiting_append_received (qs : List (Handle × Payload))
    (rs : List (Frame × Option Body)) (fs : List Frame) :
    awaiting qs (rs ++ fs.map fun f => (f, none)) = awaiting qs rs := by
  induction qs generalizing rs fs with
  | nil => simp [awaiting]
  | cons q qs ih =>
    cases rs with
    | nil =>
      cases fs with
      | nil => rfl
      | cons f fs =>
        have hrest := ih [] fs
        rw [List.nil_append] at hrest
        simp [awaiting, hrest]
    | cons r rs =>
      obtain ⟨f, answer⟩ := r
      cases answer with
      | none => simp [awaiting, ih]
      | some b => simp [awaiting, ih]

/-- A request is no longer awaited when its frame has been answered. -/
theorem awaiting_set {qs : List (Handle × Payload)} {rs : List (Frame × Option Body)} {k : Nat}
    {q : Handle × Payload} {f : Frame} (hq : qs[k]? = some q) (hr : rs[k]? = some (f, none))
    (b : Body) : (awaiting qs rs).Perm (q.1 :: awaiting qs (rs.set k (f, some b))) := by
  induction qs generalizing rs k with
  | nil => simp at hq
  | cons p qs ih =>
    cases rs with
    | nil => simp at hr
    | cons r rs =>
      cases k with
      | zero =>
        simp only [List.getElem?_cons_zero, Option.some.injEq] at hq hr
        subst hq hr
        exact List.Perm.refl _
      | succ k =>
        rw [List.getElem?_cons_succ] at hq hr
        have hrest := ih hq hr
        obtain ⟨g, answer⟩ := r
        rw [List.set_cons_succ]
        cases answer with
        | none => exact (hrest.cons p.1).trans (List.Perm.swap _ _ _)
        | some c => exact hrest

/-- The identifiers of the requests that are awaited are those of the frames that the
companion has not answered, or not received. -/
theorem map_id_awaiting {K : Codec} {readId : Frame → Option RequestId}
    (hread : ∀ id p f, K.serialize id p = .ok f → readId f = some id)
    {qs : List (Handle × Payload)} {rs : List (Frame × Option Body)} {more : List Frame}
    (h : List.Forall₂ (fun q f => K.serialize q.1.id q.2 = .ok f) qs (rs.map Prod.fst ++ more)) :
    (awaiting qs rs).map Handle.id =
      ((rs.filterMap fun r => if r.2.isNone then some r.1 else none) ++ more).filterMap
        readId := by
  induction qs generalizing rs more with
  | nil =>
    obtain ⟨hrs, hmore⟩ := List.append_eq_nil_iff.mp (List.forall₂_nil_left_iff.mp h)
    rw [List.map_eq_nil_iff.mp hrs, hmore]
    rfl
  | cons q qs ih =>
    cases rs with
    | nil =>
      obtain ⟨f, fs, hf, hfs, hmore⟩ := List.forall₂_cons_left_iff.mp h
      have hrest := @ih [] fs hfs
      rw [List.map_nil, List.nil_append] at hmore
      rw [hmore]
      simpa [awaiting, hread _ _ _ hf] using hrest
    | cons r rs =>
      obtain ⟨g, answer⟩ := r
      rw [List.map_cons, List.cons_append, List.forall₂_cons] at h
      have hrest := ih h.2
      cases answer with
      | none => simpa [awaiting, hread _ _ _ h.1] using hrest
      | some b => simpa [awaiting] using hrest

private theorem exists_of_forall₂ {α β : Type} {R : α → β → Prop} {as : List α} {bs : List β}
    (h : List.Forall₂ R as bs) {k : Nat} {b : β} (hb : bs[k]? = some b) :
    ∃ a, as[k]? = some a ∧ R a b := by
  induction h generalizing k with
  | nil => simp at hb
  | @cons a b' as bs hab hrest ih =>
    cases k with
    | zero =>
      simp only [List.getElem?_cons_zero, Option.some.injEq] at hb
      subst hb
      exact ⟨a, rfl, hab⟩
    | succ k => exact ih hb

private theorem map_fst_set {rs : List (Frame × Option Body)} {k : Nat} {f : Frame}
    {answer : Option Body} (h : rs[k]? = some (f, answer)) (b : Body) :
    (rs.set k (f, some b)).map Prod.fst = rs.map Prod.fst := by
  have hsame : (rs.map Prod.fst)[k]? = some f := by
    rw [List.getElem?_map, h]
    rfl
  obtain ⟨hlt, hget⟩ := List.getElem?_eq_some_iff.mp hsame
  rw [List.map_set]
  conv_rhs => rw [← List.set_getElem_self hlt, hget]

/-- The companion has answered the frame of the request of this handle with this body. -/
def AnsweredWith (K : Codec) (qs : List (Handle × Payload)) (rs : List (Frame × Option Body))
    (h : Handle) (b : Body) : Prop :=
  ∃ (k : Nat) (p : Payload) (f : Frame), qs[k]? = some (h, p) ∧ K.serialize h.id p = .ok f ∧
    rs[k]? = some (f, some b)

/-- The table of a link tallies with the log of requests and with what is under way: frames
`ws` on their way to the companion, and frames `gs` on their way back, which are the answers
`flight`. -/
structure Tally (K : Codec) (l : Link) (c : Companion) (qs : List (Handle × Payload))
    (ws gs : List Frame) (flight : List (Handle × Body)) : Prop where
  codec : l.codec = K
  peerOpen : l.stream.peerOpen = true
  outward : c.deframer.Carries (l.stream.outbound ++ l.loop.rest) ws
  inward : l.deframer.Carries (l.stream.inbound ++ c.unsent) gs
  posted : List.Forall₂ (fun q f => K.serialize q.1.id q.2 = .ok f) qs
    (c.received.map Prod.fst ++ (ws ++ l.outbox))
  answers : List.Forall₂ (fun q g => K.deserialize g = .ok ⟨q.1.id, q.2⟩) flight gs
  answered : ∀ q ∈ flight, AnsweredWith K qs c.received q.1 q.2
  pending : l.registry.pending.Perm (flight.map Prod.fst ++ awaiting qs c.received)
  unmatched : l.registry.unmatched = []

theorem AnsweredWith.post {K : Codec} {qs : List (Handle × Payload)}
    {rs : List (Frame × Option Body)} {h : Handle} {b : Body} (ha : AnsweredWith K qs rs h b)
    (new : List (Handle × Payload)) : AnsweredWith K (qs ++ new) rs h b := by
  obtain ⟨k, p, f, hq, hf, hr⟩ := ha
  refine ⟨k, p, f, ?_, hf, hr⟩
  rw [List.getElem?_append_left (List.getElem?_eq_some_iff.mp hq).1]
  exact hq

theorem AnsweredWith.receive {K : Codec} {qs : List (Handle × Payload)}
    {rs : List (Frame × Option Body)} {h : Handle} {b : Body} (ha : AnsweredWith K qs rs h b)
    (new : List (Frame × Option Body)) : AnsweredWith K qs (rs ++ new) h b := by
  obtain ⟨k, p, f, hq, hf, hr⟩ := ha
  refine ⟨k, p, f, hq, hf, ?_⟩
  rw [List.getElem?_append_left (List.getElem?_eq_some_iff.mp hr).1]
  exact hr

theorem AnsweredWith.set {K : Codec} {qs : List (Handle × Payload)}
    {rs : List (Frame × Option Body)} {h : Handle} {b : Body} (ha : AnsweredWith K qs rs h b)
    {i : Nat} {g : Frame} (hi : rs[i]? = some (g, none)) (c : Body) :
    AnsweredWith K qs (rs.set i (g, some c)) h b := by
  obtain ⟨k, p, f, hq, hf, hr⟩ := ha
  have hne : i ≠ k := by
    rintro rfl
    rw [hi] at hr
    cases hr
  refine ⟨k, p, f, hq, hf, ?_⟩
  rw [List.getElem?_set_ne hne]
  exact hr

namespace Tally

open Registry (Sound)

variable {K : Codec} {l : Link} {c : Companion} {qs : List (Handle × Payload)}
  {ws gs : List Frame} {flight : List (Handle × Body)}

theorem length_le (h : Tally K l c qs ws gs flight) : c.received.length ≤ qs.length := by
  have hlen := h.posted.length_eq
  rw [List.length_append, List.length_map] at hlen
  omega

theorem mem_of_flight (h : Tally K l c qs ws gs flight) {q : Handle × Body}
    (hq : q ∈ flight) : q.1 ∈ l.registry.pending :=
  h.pending.mem_iff.mpr (List.mem_append_left _ (List.mem_map_of_mem hq))

theorem mem_log (h : Tally K l c qs ws gs flight) {g : Handle} (hg : g ∈ l.registry.pending) :
    g ∈ qs.map Prod.fst := by
  rcases List.mem_append.mp (h.pending.mem_iff.mp hg) with hflight | hawaiting
  · obtain ⟨q, hq, rfl⟩ := List.mem_map.mp hflight
    obtain ⟨k, p, f, hk, -, -⟩ := h.answered q hq
    exact List.mem_map_of_mem (List.mem_of_getElem? hk)
  · exact (awaiting_sublist qs c.received).subset hawaiting

theorem deed (h : Tally K l c qs ws gs flight) {l' : Link} {new : List (Handle × Payload)}
    (hd : l.Deed l' new) (hopen : l'.lifecycle ≠ .closed) :
    Tally K l' c (qs ++ new) ws gs flight := by
  cases hd with
  | closes hclosed => exact absurd hclosed hopen
  | rests hp hu =>
    rw [List.append_nil]
    exact ⟨h.codec, h.peerOpen, h.outward, h.inward, h.posted, h.answers, h.answered,
      hp ▸ h.pending, hu.trans h.unmatched⟩
  | @posts r g p f hp hu hf =>
    refine ⟨h.codec, h.peerOpen, h.outward, h.inward, ?_, h.answers, ?_, ?_,
      hu.trans h.unmatched⟩
    · rw [h.codec] at hf
      rw [← List.append_assoc, ← List.append_assoc]
      refine List.rel_append ?_ (List.Forall₂.cons hf List.Forall₂.nil)
      rw [List.append_assoc]
      exact h.posted
    · exact fun q hq => (h.answered q hq).post _
    · change r.pending.Perm _
      rw [hp, awaiting_append_request h.length_le, ← List.append_assoc]
      exact h.pending.append_right _

theorem next (h : Tally K l c qs ws gs flight) {f : Frame} {d : Deframer}
    (hitem : l.inboundItem = (.frame f, d)) :
    ∃ q gs' flight', gs = f :: gs' ∧ flight = q :: flight' ∧
      K.deserialize f = .ok ⟨q.1.id, q.2⟩ ∧ d.Carries c.unsent gs' := by
  have hended : l.stream.ended = false := by simp [Stream.ended, h.peerOpen]
  have hcarries := h.inward.feed
  rw [Link.inboundItem, hended] at hitem
  rcases hcarries.next with ⟨g, gs', d', rfl, hnext, hrest⟩ | ⟨d', hnext, -, -⟩
  · rw [hnext] at hitem
    cases hitem
    obtain ⟨q, flight', hq, hanswers, rfl⟩ := List.forall₂_cons_right_iff.mp h.answers
    exact ⟨q, gs', flight', rfl, rfl, hq, hrest⟩
  · rw [hnext] at hitem
    cases hitem

theorem receive (h : Tally K l c qs ws gs flight) (hl : Sound l.registry) {f : Frame}
    {d : Deframer} (hitem : l.inboundItem = (.frame f, d))
    (hopen : (Link.onFrame { l with deframer := d, stream.inbound := .empty } f).lifecycle ≠
      .closed) :
    ∃ (q : Handle × Body) (gs' : List Frame) (flight' : List (Handle × Body)),
      K.deserialize f = .ok ⟨q.1.id, q.2⟩ ∧ AnsweredWith K qs c.received q.1 q.2 ∧
      Tally K (Link.onFrame { l with deframer := d, stream.inbound := .empty } f) c qs ws gs'
        flight' ∧
      (Link.onFrame { l with deframer := d, stream.inbound := .empty } f).registry.pending =
        l.registry.pending.erase q.1 := by
  obtain ⟨q, gs', flight', rfl, rfl, hf, hrest⟩ := h.next hitem
  have hmem := h.mem_of_flight List.mem_cons_self
  have hframe : Link.onFrame { l with deframer := d, stream.inbound := .empty } f =
      Link.onResponse { l with deframer := d, stream.inbound := .empty } ⟨q.1.id, q.2⟩ := by
    simp only [Link.onFrame, h.codec, hf]
  rw [hframe] at hopen ⊢
  rcases Link.onResponse_cases (l := { l with deframer := d, stream.inbound := .empty }) hl hmem
    q.2 with hclosed | ⟨r, heq, hp, hu⟩
  · exact absurd hclosed hopen
  · refine ⟨q, gs', flight', hf, h.answered q List.mem_cons_self, ?_, ?_⟩
    · rw [heq]
      refine ⟨h.codec, h.peerOpen, h.outward, ?_, h.posted, ?_, ?_, ?_, hu.trans h.unmatched⟩
      · simpa using hrest
      · exact (List.forall₂_cons.mp h.answers).2
      · exact fun p hp => h.answered p (List.mem_cons_of_mem _ hp)
      · have hperm := h.pending.erase q.1
        rw [List.map_cons, List.cons_append, List.erase_cons_head] at hperm
        change r.pending.Perm _
        rw [hp]
        exact hperm
    · rw [heq]
      exact hp

theorem turn (h : Tally K l c qs ws gs flight) (hl : Sound l.registry) {e : Link.Event}
    {l' : Link} (ht : l.Turn e l') (hopen : l'.lifecycle ≠ .closed) :
    ∃ ws' gs' flight', Tally K l' c qs ws' gs' flight' := by
  cases ht with
  | closes hclosed => exact absurd hclosed hopen
  | @writes _ taken rest s loop hqueue hsizes hbytes hin hpeer =>
    refine ⟨ws ++ taken, gs, flight, h.codec, hpeer.trans h.peerOpen, ?_, ?_, ?_, h.answers,
      h.answered, h.pending, h.unmatched⟩
    · change c.deframer.Carries (s.outbound ++ loop.rest) _
      rw [hbytes]
      exact h.outward.writes hsizes
    · change l.deframer.Carries (s.inbound ++ c.unsent) gs
      rw [hin]
      exact h.inward
    · rw [List.append_assoc, ← hqueue]
      exact h.posted
  | receives _ hitem =>
    obtain ⟨q, gs', flight', -, -, htally, -⟩ := h.receive hl hitem hopen
    exact ⟨ws, gs', flight', htally⟩
  | @starves d hitem =>
    refine ⟨ws, gs, flight, h.codec, h.peerOpen, h.outward, ?_, h.posted, h.answers, h.answered,
      h.pending, h.unmatched⟩
    have hended : l.stream.ended = false := by simp [Stream.ended, h.peerOpen]
    rw [Link.inboundItem, hended] at hitem
    rcases h.inward.feed.next with ⟨g, gs', d', -, hnext, -⟩ | ⟨d', hnext, hrest, -⟩
    · rw [hnext] at hitem
      cases hitem
    · rw [hnext] at hitem
      cases hitem
      simpa using hrest

theorem read (h : Tally K l c qs ws gs flight) (n : Nat) :
    ∃ ws', Tally K
      { l with stream.outbound := l.stream.outbound.extract n l.stream.outbound.size }
      (c.read (l.stream.outbound.extract 0 n)) qs ws' gs flight := by
  have hsplit : l.stream.outbound.extract 0 n ++
      (l.stream.outbound.extract n l.stream.outbound.size ++ l.loop.rest) =
        l.stream.outbound ++ l.loop.rest := by
    rw [← ByteArray.append_assoc, ByteArray.extract_append_extract, Nat.zero_min,
      ByteArray.extract_zero_max_size]
  have houtward := h.outward
  rw [← hsplit] at houtward
  obtain ⟨ws', hws, hrest⟩ := houtward.feed.frames
    ((c.deframer.feed (l.stream.outbound.extract 0 n)).buffer.size + 1)
  refine ⟨ws', h.codec, h.peerOpen, hrest, h.inward, ?_, h.answers, ?_, ?_, h.unmatched⟩
  · have hposted := h.posted
    rw [hws] at hposted
    simpa [Companion.read, Function.comp_def] using hposted
  · exact fun q hq => (h.answered q hq).receive _
  · rw [Companion.read]
    simp only
    rw [awaiting_append_received]
    exact h.pending

theorem write (h : Tally K l c qs ws gs flight) (n : Nat) :
    Tally K { l with stream := (l.stream.peerWrite (c.unsent.extract 0 n)).1 }
      { c with unsent :=
          (l.stream.peerWrite (c.unsent.extract 0 n)).2 ++ c.unsent.extract n c.unsent.size }
      qs ws gs flight := by
  refine ⟨h.codec, ?_, ?_, ?_, h.posted, h.answers, h.answered, h.pending, h.unmatched⟩
  · exact (l.stream.peerOpen_peerWrite _).trans h.peerOpen
  · change c.deframer.Carries ((l.stream.peerWrite _).1.outbound ++ _) ws
    rw [l.stream.outbound_peerWrite]
    exact h.outward
  · change l.deframer.Carries ((l.stream.peerWrite _).1.inbound ++ _) gs
    rw [← ByteArray.append_assoc, l.stream.inbound_peerWrite, ByteArray.append_assoc,
      ByteArray.extract_append_extract, Nat.zero_min, ByteArray.extract_zero_max_size]
    exact h.inward

/-- The companion answers a frame under the identifier that it was sent under. -/
theorem answer (h : Tally K l c qs ws gs flight) {readId : Frame → Option RequestId}
    (hread : ∀ id p f, K.serialize id p = .ok f → readId f = some id) {k : Nat} {f g : Frame}
    {a : Response} (hk : c.received[k]? = some (f, none)) (hg : K.deserialize g = .ok a)
    (hid : readId f = some a.id) (hsize : g.size ≤ Frame.maxSize) :
    ∃ gs' flight', Tally K l
      { c with received := c.received.set k (f, some a.body), unsent := c.unsent ++ g.packet }
      qs ws gs' flight' := by
  have hfrom : (c.received.map Prod.fst ++ (ws ++ l.outbox))[k]? = some f := by
    have hlt : k < (c.received.map Prod.fst).length := by
      rw [List.length_map]
      exact (List.getElem?_eq_some_iff.mp hk).1
    rw [List.getElem?_append_left hlt, List.getElem?_map, hk]
    rfl
  obtain ⟨q, hq, hf⟩ := exists_of_forall₂ h.posted hfrom
  have haid : a.id = q.1.id := by
    rw [hread _ _ _ hf] at hid
    exact (Option.some.inj hid).symm
  refine ⟨gs ++ [g], flight ++ [(q.1, a.body)], h.codec, h.peerOpen, h.outward, ?_, ?_, ?_, ?_,
    ?_, h.unmatched⟩
  · rw [← ByteArray.append_assoc]
    exact h.inward.write hsize
  · rw [map_fst_set hk]
    exact h.posted
  · refine List.rel_append h.answers (List.Forall₂.cons ?_ List.Forall₂.nil)
    rw [← haid]
    exact hg
  · intro p hp
    rcases List.mem_append.mp hp with hold | hnew
    · exact (h.answered p hold).set hk _
    · rw [List.mem_singleton.mp hnew]
      refine ⟨k, q.2, f, hq, hf, ?_⟩
      rw [List.getElem?_set_self (List.getElem?_eq_some_iff.mp hk).1]
  · rw [List.map_append, List.append_assoc]
    exact h.pending.trans ((awaiting_set hq hk a.body).append_left _)

end Tally

end Switchboard
