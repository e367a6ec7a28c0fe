import Mathlib
import Switchboard.Proofs.ExchangeRuns
import Switchboard.Proofs.RequestFrames

/-!
What the crate is for: every answer reaches the caller of its own request. In every run of
a client and its companion, an answer that arrives is the answer that the companion gave to
the very frame which carried the payload of the request that is settled with it. As long as
the client is not closed, the identifiers in its table are those under way, each of them
once, so that no answer comes to nobody.
-/
namespace Switchboard

/-- The loop is about to take the answer to an ordinary request off the stream. -/
structure Link.Answers (l : Link) (h : Handle) (b : Body) : Prop where
  running : l.loop = .running
  frame : ∃ f, l.inboundItem.1 = .frame f ∧ l.codec.deserialize f = .ok ⟨h.id, b⟩
  pending : h ∈ l.registry.pending
  ordinary : h.id ≠ RequestId.handshake

namespace Link

variable {l : Link} {f : Frame}

theorem mem_ready_receive {held : Bool} (hloop : l.loop = .running)
    (hf : l.inboundItem.1 = .frame f) : Event.receive ∈ l.ready held := by
  have hcan : l.canReceive = true := by simp [canReceive, hf]
  simp [ready, hloop, hcan]

theorem receive_of_frame (hf : l.inboundItem.1 = .frame f) :
    l.receive = onFrame { l with deframer := l.inboundItem.2, stream.inbound := .empty } f := by
  unfold receive
  generalize l.inboundItem = a at hf
  obtain ⟨item, d⟩ := a
  dsimp only at hf
  rw [hf]

end Link

/-- The table of a client agrees with its log and with what is under way. -/
structure Exchange.Accounts (readId : Frame → Option RequestId) (x : Exchange) : Prop where
  isPending_iff : ∀ i, x.link.registry.isPending i = true ↔ i ∈ x.underWay readId
  once : (x.underWay readId).Nodup
  logged : ∀ h ∈ x.link.registry.pending, h ∈ x.requests.map Prod.fst
  unmatched : x.link.registry.unmatched = []

namespace Tally

variable {K : Codec} {readId : Frame → Option RequestId} {x : Exchange} {ws gs : List Frame}
  {flight : List (Handle × Body)}

theorem map_id_flight (h : Tally K x.link x.companion x.requests ws gs flight) :
    gs.filterMap (fun g => (K.deserialize g).toOption.map Response.id) =
      (flight.map Prod.fst).map Handle.id := by
  have hanswers := h.answers
  clear h
  induction hanswers with
  | nil => rfl
  | @cons q g flight gs hg _ ih =>
    rw [List.map_cons, List.map_cons, ← ih, List.filterMap_cons, hg]
    rfl

theorem map_id_perm (h : Tally K x.link x.companion x.requests ws gs flight)
    (hread : ∀ id p f, K.serialize id p = .ok f → readId f = some id) :
    (x.link.registry.pending.map Handle.id).Perm (x.underWay readId) := by
  have houtward : x.outward = ws := h.outward.decoded_feed
  have hinward : x.inward = gs := h.inward.decoded_feed
  have hawaiting := map_id_awaiting hread h.posted
  have hpending := h.pending.map Handle.id
  rw [List.map_append, ← h.map_id_flight, hawaiting] at hpending
  rw [Exchange.underWay, houtward, hinward, h.codec, Companion.unanswered, List.append_assoc]
  exact hpending.trans List.perm_append_comm

/-- A turn of the loop that takes an ordinary request off the table of a link that stays
open takes an answer to it off the stream. -/
theorem answers_of_turn {l l' : Link} {c : Companion} {qs : List (Handle × Payload)}
    {e : Link.Event} {h : Handle} (htally : Tally K l c qs ws gs flight)
    (hl : Registry.Sound l.registry) (ht : l.Turn e l') (hopen : l'.lifecycle ≠ .closed)
    (hh : h ∈ l.registry.pending) (hid : h.id ≠ RequestId.handshake)
    (hgone : h ∉ l'.registry.pending) : e = .receive ∧ ∃ b, l.Answers h b := by
  cases ht with
  | closes hclosed => exact absurd hclosed hopen
  | writes _ _ _ _ _ => exact absurd hh hgone
  | starves _ => exact absurd hh hgone
  | @receives f d hrunning hitem =>
    obtain ⟨q, gs', flight', hq, -, -, hpending⟩ := htally.receive hl hitem hopen
    have hhq : h = q.1 := by
      by_contra hne
      rw [hpending] at hgone
      exact hgone ((List.mem_erase_of_ne hne).mpr hh)
    refine ⟨rfl, q.2, hrunning, ⟨f, ?_, ?_⟩, hh, hid⟩
    · exact congrArg Prod.fst hitem
    · rw [htally.codec, hhq]
      exact hq

end Tally

namespace Exchange

variable {readId : Frame → Option RequestId} {K : Codec} {x : Exchange}

namespace Kept

theorem accounts (h : Kept K x)
    (hread : ∀ id p f, K.serialize id p = .ok f → readId f = some id)
    (hopen : x.link.lifecycle ≠ .closed) : x.Accounts readId := by
  obtain ⟨ws, gs, flight, htally⟩ := (h.booked hopen).tally
  have hperm := htally.map_id_perm hread
  refine ⟨?_, hperm.nodup_iff.mp h.sound.nodup_ids, fun g hg => htally.mem_log hg,
    htally.unmatched⟩
  intro i
  rw [Registry.isPending_iff, ← hperm.mem_iff, List.mem_map]

theorem open_of_mem (h : Kept K x) {g : Handle} (hg : g ∈ x.link.registry.pending) :
    x.link.lifecycle ≠ .closed := by
  intro hclosed
  rw [h.staged.closed hclosed] at hg
  exact List.not_mem_nil hg

/-- An answer that arrives is the one that was given to the request. -/
theorem answeredWith (h : Kept K x) {g : Handle} {b : Body} (ha : x.link.Answers g b) :
    AnsweredWith K x.requests x.companion.received g b := by
  obtain ⟨ws, gs, flight, htally⟩ := (h.booked (h.open_of_mem ha.pending)).tally
  obtain ⟨f, hitem, hf⟩ := ha.frame
  obtain ⟨q, gs', flight', -, hflight, hq, -⟩ := htally.next (f := f)
    (d := x.link.inboundItem.2) (by rw [← hitem])
  have hmem : q ∈ flight := hflight ▸ List.mem_cons_self
  rw [htally.codec, hq] at hf
  have hresponse := Except.ok.inj hf
  have hid : q.1.id = g.id := congrArg Response.id hresponse
  have hbody : q.2 = b := congrArg Response.body hresponse
  have hhandle : q.1 = g := h.sound.eq_of_id ha.pending (htally.mem_of_flight hmem) hid
  have hanswered := htally.answered q hmem
  rwa [hhandle, hbody] at hanswered

/-- The request has this answer for its outcome when the loop has taken it. -/
theorem outcome?_receive (h : Kept K x) {g : Handle} {b : Body} (ha : x.link.Answers g b) :
    (x.perform readId (.client (.loop .receive))).link.outcome? g = some b.outcome := by
  obtain ⟨f, hitem, hf⟩ := ha.frame
  have hready : Link.Event.receive ∈ x.scene.link.ready x.scene.isHeld :=
    Link.mem_ready_receive ha.running hitem
  have hafter : (x.perform readId (.client (.loop .receive))).link = x.link.receive := by
    change (x.scene.perform (.loop .receive)).link = x.scene.link.receive
    rw [Scene.perform, if_pos hready]
    rfl
  rw [hafter, Link.receive_of_frame hitem]
  exact Link.outcome?_onFrame
    (l := { x.link with deframer := x.link.inboundItem.2, stream.inbound := .empty })
    h.sound ha.pending ha.ordinary hf

/-- Only the loop takes a request off the table of a client that is not closed, and only
when it has an answer to it. -/
theorem answers_of_gone (h : Kept K x) {act : Action} {g : Handle}
    (hg : g ∈ x.link.registry.pending) (hid : g.id ≠ RequestId.handshake)
    (hgone : g ∉ (x.perform readId act).link.registry.pending)
    (hopen : (x.perform readId act).link.lifecycle ≠ .closed) :
    act = .client (.loop .receive) ∧ ∃ b, x.link.Answers g b := by
  obtain ⟨ws, gs, flight, htally⟩ := (h.booked (open_of_perform hopen)).tally
  cases act with
  | read n => exact absurd hg hgone
  | write n => exact absurd hg hgone
  | answer k f =>
    rw [Exchange.perform, link, scene_answer] at hgone
    exact absurd hg hgone
  | client a =>
    by_cases ha : a.isClients = true
    · rw [perform_client ha] at hgone hopen
      by_cases hloop : ∃ e, a = .loop e
      · obtain ⟨e, rfl⟩ := hloop
        by_cases he : e ∈ x.scene.link.ready x.scene.isHeld
        · rw [Scene.perform, if_pos he] at hgone hopen
          obtain ⟨rfl, hanswers⟩ := htally.answers_of_turn h.sound (Link.turn_of_handle he)
            hopen hg hid hgone
          exact ⟨rfl, hanswers⟩
        · rw [Scene.perform, if_neg he] at hgone
          exact absurd hg hgone
      · have hdeed := Scene.deed_of_perform h.sound h.calls ha (not_exists.mp hloop)
        exact absurd (hdeed.mem hopen hg) hgone
    · rw [perform_client_of_not ha] at hgone
      exact absurd hg hgone

end Kept

/-- In every run of a client and its companion, with any codec that puts the identifier of
a request where the companion finds it:

An answer that arrives for an ordinary request is the body that the companion gave to the
frame that carried the payload of this request, and it is the outcome of the request from
then on. As long as the client is not closed, nothing else takes an ordinary request off
the table, the identifiers of the table are those under way, each of them once, and no
answer has come to nobody; and each request of the log is in the table or has its answer. -/
theorem routed_end_to_end {plan : Plan} {policy : Policy} {capacity : Option Nat} {l : Link}
    (hlink : plan.link policy { capacity := capacity } = .ok l)
    (hread : ∀ id p f, plan.codec.serialize id p = .ok f → readId f = some id)
    (now : Instant) (limit : Duration) (deadline : Instant) (acts : List Action) :
    let x := (opening l now plan.setup limit deadline).run readId acts
    (∀ h b, x.link.Answers h b →
        AnsweredWith plan.codec x.requests x.companion.received h b ∧
          ∀ more, ((x.perform readId (.client (.loop .receive))).run readId more).link.outcome? h =
            some b.outcome) ∧
      (∀ act h, h ∈ x.link.registry.pending → h.id ≠ RequestId.handshake →
        h ∉ (x.perform readId act).link.registry.pending →
        (x.perform readId act).link.lifecycle ≠ .closed →
          act = .client (.loop .receive) ∧ ∃ b, x.link.Answers h b) ∧
      (x.link.lifecycle ≠ .closed → x.Accounts readId ∧
        Logged plan.codec x.link.registry x.requests x.companion.received) := by
  intro x
  have hkept : Kept plan.codec x := (kept_opening hlink now limit deadline).run hread acts
  refine ⟨?_, ?_, ?_⟩
  · intro h b ha
    refine ⟨hkept.answeredWith ha, ?_⟩
    intro more
    exact (leadsTo_run _ more).outcome? (hkept.outcome?_receive ha)
  · intro act h hh hid hgone hopen
    exact hkept.answers_of_gone hh hid hgone hopen
  · intro hopen
    exact ⟨hkept.accounts hread hopen, (hkept.booked hopen).log⟩

end Exchange

namespace Codec

/-- The identifier at the beginning of a frame. -/
def bareId (f : Frame) : RequestId :=
  ⟨UInt32.ofNat (Frame.headerValue (f.extract 0 Frame.headerSize))⟩

/-- A codec that keeps of a request nothing but its identifier. The body of an answer is
empty or not. -/
def bare : Codec where
  serialize id _ := .ok (Frame.header id.val.toNat)
  deserialize f := .ok ⟨bareId f, if f.size = Frame.headerSize then .ok else .nil⟩

theorem bareId_of_serialize (id : RequestId) (p : Payload) (f : Frame)
    (h : bare.serialize id p = .ok f) : some (bareId f) = some id := by
  have hok : Except.ok (Frame.header id.val.toNat) = Except.ok f := h
  have hwhole : (Frame.header id.val.toNat).extract 0 Frame.headerSize =
      Frame.header id.val.toNat := ByteArray.extract_zero_size
  rw [← Except.ok.inj hok, bareId, hwhole, Frame.headerValue_header id.val.toNat_lt,
    UInt32.ofNat_toNat]

end Codec

namespace Exchange

/-- A link that has just been made, with a codec and otherwise by default. -/
def untouched (codec : Codec) : Link where
  registry := { gate := { ceiling := 1000, policy := .block, free := 1000 } }
  codec := codec

def barePlan : Plan := { codec := .bare }

/-- A handshake, two requests, and the answer to the second, which arrives first. -/
def overtaking : List Action :=
  [.client (.loop .send), .read 8, .answer 0 (Frame.header 0), .write 8,
    .client (.loop .receive), .client (.poll 0),
    .client (.start (.submit (.transaction []))), .client (.trySubmit (.transaction [])),
    .client (.loop .send), .client (.loop .send), .read 16,
    .answer 2 (Frame.header 2 ++ Frame.header 0), .write 7, .answer 1 (Frame.header 1), .write 99]

/-- A client on the bare codec when one answer has overtaken the other. -/
def overtaken : Exchange :=
  (opening (untouched .bare) ⟨0⟩ barePlan.setup Duration.longest ⟨1000000⟩).run
    (fun f => some (Codec.bareId f)) overtaking

deriving instance DecidableEq for Loop, Inbound

theorem untouched_bare :
    barePlan.link .block { capacity := none } = .ok (untouched .bare) := rfl

theorem answers_overtaken : overtaken.link.Answers ⟨⟨2⟩, ⟨2⟩⟩ .nil := by
  have hkept : Kept .bare overtaken :=
    (kept_opening untouched_bare ⟨0⟩ Duration.longest ⟨1000000⟩).run Codec.bareId_of_serialize
      overtaking
  obtain ⟨_, _, _, htally⟩ := (hkept.booked (by decide +kernel)).tally
  refine ⟨by decide +kernel, ⟨Frame.header 2 ++ Frame.header 0, by decide +kernel, ?_⟩,
    by decide +kernel, by decide⟩
  rw [htally.codec]
  rfl

/-- With the JSON codec, when the setup is under way; and with the bare codec, when an
answer has overtaken another. -/
theorem routed_when_overtaken :
    Plan.link {} .block { capacity := none } = .ok (untouched .json) ∧
      (opening (untouched .json) ⟨0⟩ {} Duration.longest ⟨1000000⟩).Accounts Codec.requestId? ∧
      barePlan.link .block { capacity := none } = .ok (untouched .bare) ∧
      AnsweredWith barePlan.codec overtaken.requests overtaken.companion.received ⟨⟨2⟩, ⟨2⟩⟩
        .nil ∧
      overtaken.Accounts (fun f => some (Codec.bareId f)) := by
  have hjson : Plan.link {} .block { capacity := none } = .ok (untouched .json) := rfl
  have hfirst := routed_end_to_end hjson (fun _ _ _ => Codec.requestId?_json) ⟨0⟩
    Duration.longest ⟨1000000⟩ []
  have hsecond := routed_end_to_end untouched_bare Codec.bareId_of_serialize ⟨0⟩
    Duration.longest ⟨1000000⟩ overtaking
  refine ⟨hjson, (hfirst.2.2 nofun).1, untouched_bare, ?_, ?_⟩
  · exact (hsecond.1 _ _ answers_overtaken).1
  · exact (hsecond.2.2 (by decide +kernel)).1

end Exchange

end Switchboard
