import Switchboard.Proofs.Tally

/-!
The log of the requests of a client, next to its table. A handle is in the log once, since
a ticket is issued once. As long as the link is not closed, an ordinary request of the log
is in the table, or it has been answered and the answer is its outcome. `Booked` puts this
together with the tally.
-/
namespace Switchboard

open Registry (Sound LeadsTo)

/-- The requests of a log and the answers of the companion, from the side of the client. -/
structure Logged (K : Codec) (r : Registry) (qs : List (Handle × Payload))
    (rs : List (Frame × Option Body)) : Prop where
  once : (qs.map Prod.fst).Nodup
  issued : ∀ q ∈ qs, q.1.ticket.serial < r.ledger.outcomes.size
  fate : ∀ q ∈ qs, q.1.id ≠ RequestId.handshake → q.1 ∈ r.pending ∨
    ∃ b, AnsweredWith K qs rs q.1 b ∧ r.ledger.outcome? q.1.ticket = some b.outcome

variable {K : Codec} {qs : List (Handle × Payload)} {rs : List (Frame × Option Body)}

namespace Logged

variable {r s : Registry}

theorem empty (K : Codec) (r : Registry) : Logged K r [] [] :=
  ⟨List.nodup_nil, nofun, nofun⟩

theorem heard (h : Logged K r qs rs) {rs' : List (Frame × Option Body)}
    (hanswered : ∀ g b, AnsweredWith K qs rs g b → AnsweredWith K qs rs' g b) :
    Logged K r qs rs' := by
  refine ⟨h.once, h.issued, ?_⟩
  intro q hq hid
  rcases h.fate q hq hid with hpending | ⟨b, hb, ho⟩
  · exact Or.inl hpending
  · exact Or.inr ⟨b, hanswered _ _ hb, ho⟩

theorem onward (h : Logged K r qs rs) (hleads : r.LeadsTo s)
    (hkeep : ∀ g ∈ r.pending, g.id ≠ RequestId.handshake → g ∈ s.pending ∨
      ∃ b, AnsweredWith K qs rs g b ∧ s.ledger.outcome? g.ticket = some b.outcome) :
    Logged K s qs rs := by
  refine ⟨h.once, fun q hq => (h.issued q hq).trans_le hleads.size_le, ?_⟩
  intro q hq hid
  rcases h.fate q hq hid with hpending | ⟨b, hb, ho⟩
  · exact hkeep q.1 hpending hid
  · exact Or.inr ⟨b, hb, hleads.outcome? ho⟩

theorem post (h : Logged K r qs rs) (hr : Sound r) {q : Handle × Payload}
    (hq : q.1 ∈ r.pending) (hnew : q.1 ∉ qs.map Prod.fst) : Logged K r (qs ++ [q]) rs := by
  refine ⟨?_, ?_, ?_⟩
  · rw [List.map_append, List.map_singleton, ← List.concat_eq_append]
    exact h.once.concat hnew
  · intro p hp
    rcases List.mem_append.mp hp with hold | hlast
    · exact h.issued p hold
    · rw [List.mem_singleton.mp hlast]
      exact (hr.isOpen hq).serial_lt
  · intro p hp hid
    rcases List.mem_append.mp hp with hold | hlast
    · rcases h.fate p hold hid with hpending | ⟨b, hb, ho⟩
      · exact Or.inl hpending
      · exact Or.inr ⟨b, hb.post _, ho⟩
    · rw [List.mem_singleton.mp hlast]
      exact Or.inl hq

variable {l l' : Link}

theorem deed (h : Logged K l.registry qs rs) (hl : Sound l.registry)
    (hleads : l.registry.LeadsTo l'.registry) {new : List (Handle × Payload)}
    (hd : l.Deed l' new) (hopen : l'.lifecycle ≠ .closed) :
    Logged K l'.registry (qs ++ new) rs := by
  have hkept : Logged K l'.registry qs rs :=
    h.onward hleads fun g hg _ => Or.inl (hd.mem hopen hg)
  cases hd with
  | closes hclosed => exact absurd hclosed hopen
  | rests _ _ =>
    rw [List.append_nil]
    exact hkept
  | @posts r g p f hp hu hf =>
    have hsound : Sound r := hleads.sound hl
    have hmem : g ∈ r.pending := Registry.mem_last hp
    apply hkept.post hsound hmem
    intro hold
    obtain ⟨q, hq, heq⟩ := List.mem_map.mp hold
    have hissued := h.issued q hq
    rw [heq] at hissued
    rcases hleads.mem_or_later hmem with hpending | hlater
    · exact Registry.notMem_of_last hsound hp hpending
    · exact absurd hissued (Nat.not_lt.mpr hlater)

/-- The loop takes a turn. An answer that it takes is the outcome of its request. -/
theorem turn {c : Companion} {ws gs : List Frame} {flight : List (Handle × Body)}
    (h : Logged K l.registry qs c.received) (htally : Tally K l c qs ws gs flight)
    (hl : Sound l.registry) {e : Link.Event} (ht : l.Turn e l')
    (hopen : l'.lifecycle ≠ .closed) : Logged K l'.registry qs c.received := by
  cases ht with
  | closes hclosed => exact absurd hclosed hopen
  | writes _ _ _ _ _ => exact h
  | starves _ => exact h
  | @receives f d _ hitem =>
    obtain ⟨q, gs', flight', hf, hanswered, -, hpending⟩ := htally.receive hl hitem hopen
    rw [← htally.codec] at hf
    refine h.onward (Link.leadsTo_onFrame _ f) ?_
    intro g hg hid
    by_cases hgq : g = q.1
    · subst hgq
      refine Or.inr ⟨q.2, hanswered, ?_⟩
      exact Link.outcome?_onFrame (l := { l with deframer := d, stream.inbound := .empty })
        hl hg hid hf
    · rw [hpending]
      exact Or.inl ((List.mem_erase_of_ne hgq).mpr hg)

end Logged

/-- The books of a link that is not closed. -/
structure Booked (K : Codec) (l : Link) (c : Companion) (qs : List (Handle × Payload)) :
    Prop where
  log : Logged K l.registry qs c.received
  tally : ∃ ws gs flight, Tally K l c qs ws gs flight

namespace Booked

variable {l l' : Link} {c : Companion}

theorem deed (h : Booked K l c qs) (hl : Sound l.registry)
    (hleads : l.registry.LeadsTo l'.registry) {new : List (Handle × Payload)}
    (hd : l.Deed l' new) (hopen : l'.lifecycle ≠ .closed) : Booked K l' c (qs ++ new) := by
  obtain ⟨ws, gs, flight, htally⟩ := h.tally
  exact ⟨h.log.deed hl hleads hd hopen, ws, gs, flight, htally.deed hd hopen⟩

theorem turn (h : Booked K l c qs) (hl : Sound l.registry) {e : Link.Event}
    (ht : l.Turn e l') (hopen : l'.lifecycle ≠ .closed) : Booked K l' c qs := by
  obtain ⟨ws, gs, flight, htally⟩ := h.tally
  exact ⟨h.log.turn htally hl ht hopen, htally.turn hl ht hopen⟩

theorem read (h : Booked K l c qs) (n : Nat) :
    Booked K { l with stream.outbound := l.stream.outbound.extract n l.stream.outbound.size }
      (c.read (l.stream.outbound.extract 0 n)) qs := by
  obtain ⟨ws, gs, flight, htally⟩ := h.tally
  obtain ⟨ws', hnew⟩ := htally.read n
  exact ⟨h.log.heard fun _ _ ha => ha.receive _, ws', gs, flight, hnew⟩

theorem write (h : Booked K l c qs) (n : Nat) :
    Booked K { l with stream := (l.stream.peerWrite (c.unsent.extract 0 n)).1 }
      { c with unsent :=
          (l.stream.peerWrite (c.unsent.extract 0 n)).2 ++ c.unsent.extract n c.unsent.size }
      qs := by
  obtain ⟨ws, gs, flight, htally⟩ := h.tally
  exact ⟨h.log, ws, gs, flight, htally.write n⟩

theorem answer (h : Booked K l c qs) {readId : Frame → Option RequestId}
    (hread : ∀ id p f, K.serialize id p = .ok f → readId f = some id) {k : Nat} {f g : Frame}
    {a : Response} (hk : c.received[k]? = some (f, none)) (hg : l.codec.deserialize g = .ok a)
    (hid : readId f = some a.id) (hsize : g.size ≤ Frame.maxSize) :
    Booked K l
      { c with received := c.received.set k (f, some a.body), unsent := c.unsent ++ g.packet }
      qs := by
  obtain ⟨ws, gs, flight, htally⟩ := h.tally
  rw [htally.codec] at hg
  obtain ⟨gs', flight', hnew⟩ := htally.answer hread hk hg hid hsize
  exact ⟨h.log.heard fun _ _ ha => ha.set hk _, ws, gs', flight', hnew⟩

end Booked

end Switchboard
