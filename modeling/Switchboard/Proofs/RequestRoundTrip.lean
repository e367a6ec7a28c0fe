import Switchboard.Codec
import Switchboard.Proofs.JsonCanonical

/-!
Requests survive the wire. The JSON codec writes every request; its frame is the text of an
object with the identifier and the payload as its two members, and the text of the payload
is read as the payload it was. The members of the payload may also have been sorted in the
meantime.
-/
namespace Switchboard

namespace Json

/-! Values that are read back -/

/-- All numbers are whole and fit 64 bits, and nothing is nested deeper than `d`. -/
def Printable (d : Nat) (v : Json) : Prop := v.IsWhole ∧ v.depth ≤ d

theorem printable_string (d : Nat) (s : String) : Printable d (string s) :=
  ⟨fun _ hn => absurd hn List.not_mem_nil, Nat.zero_le d⟩

theorem printable_bool (d : Nat) (b : Bool) : Printable d (bool b) :=
  ⟨fun _ hn => absurd hn List.not_mem_nil, Nat.zero_le d⟩

theorem printable_nat (d : Nat) {n : Nat} (hn : n < UInt64.size) : Printable d (nat n) := by
  have hfull : UInt64.size = 18446744073709551616 := rfl
  constructor
  · intro m hm
    exact ⟨n, List.mem_singleton.mp hm, by omega, by omega⟩
  · exact Nat.zero_le d

theorem Printable.array {d : Nat} {items : List Json} (h : ∀ v ∈ items, Printable d v) :
    Printable (d + 1) (array items) := by
  constructor
  · intro n hn
    obtain ⟨v, hv, hnv⟩ := mem_numbersItems.mp hn
    exact (h v hv).1 n hnv
  · exact Nat.succ_le_succ (depthItems_le_iff.mpr fun v hv => (h v hv).2)

theorem Printable.object {d : Nat} {members : List (String × Json)}
    (h : ∀ m ∈ members, Printable d m.2) : Printable (d + 1) (object members) := by
  constructor
  · intro n hn
    obtain ⟨m, hm, hnm⟩ := mem_numbersMembers.mp hn
    exact (h m hm).1 n hnm
  · exact Nat.succ_le_succ (depthMembers_le_iff.mpr fun m hm => (h m hm).2)

theorem Printable.of_mem_members {d : Nat} {members : List (String × Json)}
    (h : Printable (d + 1) (Json.object members)) {m : String × Json} (hm : m ∈ members) :
    Printable d m.2 :=
  ⟨h.1.of_mem_members hm, depthMembers_le_iff.mp (Nat.le_of_succ_le_succ h.2) m hm⟩

theorem Printable.mono {d d' : Nat} {v : Json} (h : Printable d v) (hd : d ≤ d') :
    Printable d' v :=
  ⟨h.1, Nat.le_trans h.2 hd⟩

theorem Printable.canonical {d : Nat} {v : Json} (h : Printable d v) : Printable d v.canonical :=
  ⟨fun n hn => h.1 n (mem_numbers_of_canonical hn), Nat.le_trans (depth_canonical_le v) h.2⟩

/-- The text of such a value stands for the value. -/
theorem parse_chars {v : Json} (h : Printable maxDepth v) : parse (bytes v.chars) = .ok v :=
  parse_of_spellsText (spellsText_chars h.1 h.2)

theorem toItems_map {β : Type} {f : Json → Except Mismatch β} {g : β → Json} {l : List β}
    (h : ∀ b ∈ l, f (g b) = .ok b) : toItems f (array (l.map g)) = .ok l := by
  rw [toItems]
  induction l with
  | nil => rfl
  | cons b l ih =>
    have hfirst : f (g b) = .ok b := h b (List.mem_cons_self ..)
    rw [List.map_cons, List.mapM_cons, hfirst, ih fun c hc => h c (List.mem_cons_of_mem _ hc)]
    rfl

theorem natural_nat {limit n : Nat} (hn : n < limit) (expected : String) :
    toNatural limit expected (nat n) = .ok n := by
  rw [nat, toNatural, natural, if_pos ⟨by omega, by omega⟩, Int.toNat_natCast]

theorem canonicalItems_map {β : Type} {f g : β → Json} (h : ∀ b, (f b).canonical = g b)
    (l : List β) : canonicalItems (l.map f) = l.map g := by
  rw [canonicalItems_eq_map, List.map_map]
  exact List.map_congr_left fun b _ => h b

theorem Record.fillMember_eq {δ α : Type} {r : Record δ α} {f : Field δ} {d : δ}
    {member : String × Json} (hf : r.fields.find? (fun g => g.name = member.1) = some f)
    (hd : f.filled d = false) : r.fillMember d member = f.fill d member.2 := by
  rw [fillMember, hf]
  simp only [hd]
  rfl

/-- The members lead from one state of a record to another. -/
inductive Record.Fills {δ α : Type} (r : Record δ α) : δ → List (String × Json) → δ → Prop
  | nil (d : δ) : Fills r d [] d
  | cons {d d' d'' : δ} {m : String × Json} {members : List (String × Json)}
      (hm : r.fillMember d m = .ok d') (hrest : Fills r d' members d'') :
      Fills r d (m :: members) d''

theorem Record.Fills.foldlM {δ α : Type} {r : Record δ α} {d d' : δ}
    {members : List (String × Json)} (h : r.Fills d members d') :
    members.foldlM r.fillMember d = .ok d' := by
  induction h with
  | nil d => rfl
  | cons hm _ ih =>
    rw [List.foldlM_cons, hm]
    exact ih

theorem Record.Fills.append {δ α : Type} {r : Record δ α} {d d' d'' : δ}
    {members more : List (String × Json)} (h : r.Fills d members d') (h' : r.Fills d' more d'') :
    r.Fills d (members ++ more) d'' := by
  induction h with
  | nil d => exact h'
  | cons hm _ ih => exact .cons hm (ih h')

theorem Record.Fills.ofJson {δ α : Type} {r : Record δ α} {d : δ}
    {members : List (String × Json)} (h : r.Fills r.blank members d) {a : α}
    (ha : r.finish d = .ok a) : r.ofJson (.object members) = .ok a := by
  rw [Record.ofJson, h.foldlM]
  exact ha

end Json

open Json

/-! The parts of a payload -/

namespace Command

theorem fill_kind (k : CommandKind) (args : Option (List String)) :
    record.fillMember ⟨none, args⟩ ("requestType", .string k.name) = .ok ⟨some k, args⟩ := by
  cases k <;> rfl

theorem fill_args (k : Option CommandKind) (args : List String) :
    record.fillMember ⟨k, none⟩ ("args", .array (args.map .string)) = .ok ⟨k, some args⟩ := by
  rw [Record.fillMember_eq rfl rfl]
  dsimp only
  rw [toItems_map (f := toText) (g := .string) fun _ _ => rfl]
  rfl

theorem ofJson_members (c : Command) : record.ofJson (.object c.members) = .ok c := by
  have hfills : record.Fills ⟨none, none⟩ c.members ⟨some c.kind, some c.args⟩ :=
    .cons (fill_kind c.kind none) (.cons (fill_args (some c.kind) c.args) (.nil _))
  exact hfills.ofJson rfl

/-- The members of a command, sorted by name. -/
def sortedMembers (c : Command) : List (String × Json) :=
  [("args", .array (c.args.map .string)), ("requestType", .string c.kind.name)]

theorem canonical_members (c : Command) :
    (Json.object c.members).canonical = .object c.sortedMembers := by
  have hsorted : (Json.object c.members).canonical =
      .object [("args", .array (canonicalItems (c.args.map .string))),
        ("requestType", .string c.kind.name)] := rfl
  rw [hsorted, canonicalItems_map fun _ => rfl]
  rfl

theorem ofJson_sortedMembers (c : Command) : record.ofJson (.object c.sortedMembers) = .ok c := by
  have hfills : record.Fills ⟨none, none⟩ c.sortedMembers ⟨some c.kind, some c.args⟩ :=
    .cons (fill_args none c.args) (.cons (fill_kind c.kind (some c.args)) (.nil _))
  exact hfills.ofJson rfl

theorem printable_members (c : Command) : Printable 2 (.object c.members) := by
  apply Printable.object
  intro m hm
  simp only [members, List.mem_cons, List.not_mem_nil, or_false] at hm
  obtain rfl | rfl := hm
  · exact printable_string 1 c.kind.name
  · apply Printable.array
    intro v hv
    obtain ⟨s, -, rfl⟩ := List.mem_map.mp hv
    exact printable_string 0 s

end Command

namespace Address

theorem ofJson_toJson (a : Address) : record.ofJson a.toJson = .ok a := by
  have hhost : record.fillMember ⟨none, none⟩ ("host", .string a.host) = .ok ⟨some a.host, none⟩ :=
    rfl
  have hport : record.fillMember ⟨some a.host, none⟩ ("port", nat a.port.toNat) =
      .ok ⟨some a.host, some a.port.toNat⟩ := by
    rw [Record.fillMember_eq rfl rfl]
    dsimp only
    rw [natural_nat a.port.toNat_lt]
    rfl
  have hfills : record.Fills ⟨none, none⟩ [("host", .string a.host), ("port", nat a.port.toNat)]
      ⟨some a.host, some a.port.toNat⟩ := .cons hhost (.cons hport (.nil _))
  have hfinish : record.finish ⟨some a.host, some a.port.toNat⟩ =
      .ok ⟨a.host, UInt16.ofNat a.port.toNat⟩ := rfl
  rw [UInt16.ofNat_toNat] at hfinish
  exact hfills.ofJson hfinish

theorem canonical_toJson (a : Address) : a.toJson.canonical = a.toJson := rfl

theorem printable_toJson (a : Address) : Printable 1 a.toJson := by
  apply Printable.object
  intro m hm
  simp only [List.mem_cons, List.not_mem_nil, or_false] at hm
  obtain rfl | rfl := hm
  · exact printable_string 0 a.host
  · exact printable_nat 0 (Nat.lt_trans a.port.toNat_lt (by decide))

end Address

namespace Setup

theorem fill_addresses {d : Draft} (hd : d.addresses = none) (l : List Address) :
    record.fillMember d ("addresses", .array (l.map Address.toJson)) =
      .ok { d with addresses := some l } := by
  rw [Record.fillMember_eq rfl (congrArg Option.isSome hd)]
  dsimp only
  rw [toItems_map fun a _ => a.ofJson_toJson]
  rfl

theorem fill_useTls {d : Draft} (hd : d.useTls = none) (b : Bool) :
    record.fillMember d ("useTls", .bool b) = .ok { d with useTls := some b } := by
  rw [Record.fillMember_eq rfl (congrArg Option.isSome hd)]
  rfl

theorem fill_clusterMode {d : Draft} (hd : d.clusterMode = none) (b : Bool) :
    record.fillMember d ("clusterModeEnabled", .bool b) = .ok { d with clusterMode := some b } := by
  rw [Record.fillMember_eq rfl (congrArg Option.isSome hd)]
  rfl

theorem fill_database {d : Draft} (hd : d.database = none) (n : UInt32) :
    record.fillMember d ("databaseId", nat n.toNat) = .ok { d with database := some n.toNat } := by
  rw [Record.fillMember_eq rfl (congrArg Option.isSome hd)]
  dsimp only
  rw [natural_nat n.toNat_lt]
  rfl

/-- The name of the client as a member, if there is one. -/
def nameMembers (s : Setup) : List (String × Json) :=
  match s.clientName with
  | some n => [("clientName", .string n)]
  | none => []

theorem fills_nameMembers {d : Draft} (hd : d.clientName = none) (s : Setup) :
    record.Fills d s.nameMembers { d with clientName := s.clientName.map some } := by
  cases hname : s.clientName with
  | none =>
    rw [nameMembers, hname, Option.map_none, ← hd]
    exact .nil d
  | some n =>
    rw [nameMembers, hname]
    have hfill : record.fillMember d ("clientName", .string n) =
        .ok { d with clientName := some (some n) } := by
      rw [Record.fillMember_eq rfl (congrArg Option.isSome hd)]
      rfl
    exact .cons hfill (.nil _)

/-- What is known once all members have been read. -/
def draft (s : Setup) : Draft :=
  ⟨some s.addresses, some s.useTls, some s.clusterMode, some s.database.toNat,
    s.clientName.map some⟩

theorem finish_draft (s : Setup) : record.finish s.draft = .ok s := by
  obtain ⟨addresses, useTls, clusterMode, database, clientName⟩ := s
  have hfinish : record.finish (draft ⟨addresses, useTls, clusterMode, database, clientName⟩) =
      .ok ⟨addresses, useTls, clusterMode, UInt32.ofNat database.toNat,
        (clientName.map some).join⟩ := rfl
  have hname : (clientName.map some).join = clientName := by cases clientName <;> rfl
  rw [hfinish, UInt32.ofNat_toNat, hname]

theorem ofJson_members (s : Setup) : record.ofJson (.object s.members) = .ok s := by
  have hfills : record.Fills {} s.members s.draft :=
    .cons (fill_addresses rfl s.addresses) (.cons (fill_useTls rfl s.useTls)
      (.cons (fill_clusterMode rfl s.clusterMode) (.cons (fill_database rfl s.database)
        (fills_nameMembers rfl s))))
  exact hfills.ofJson (finish_draft s)

/-- The members sorted by name, up to the place of the kind of payload. -/
def leadingMembers (s : Setup) : List (String × Json) :=
  ("addresses", .array (s.addresses.map Address.toJson)) :: (s.nameMembers ++
    [("clusterModeEnabled", .bool s.clusterMode), ("databaseId", nat s.database.toNat)])

theorem ofJson_sortedMembers (s : Setup) :
    record.ofJson (.object (s.leadingMembers ++ [("useTls", .bool s.useTls)])) = .ok s := by
  have hleading : record.Fills {} s.leadingMembers { s.draft with useTls := none } :=
    .cons (fill_addresses rfl s.addresses) ((fills_nameMembers rfl s).append
      (.cons (fill_clusterMode rfl s.clusterMode) (.cons (fill_database rfl s.database) (.nil _))))
  have hfills : record.Fills {} (s.leadingMembers ++ [("useTls", .bool s.useTls)]) s.draft :=
    hleading.append (.cons (fill_useTls rfl s.useTls) (.nil _))
  exact hfills.ofJson (finish_draft s)

theorem nameMembers_cases (s : Setup) :
    s.nameMembers = [] ∨ ∃ n, s.nameMembers = [("clientName", .string n)] := by
  unfold nameMembers
  cases s.clientName with
  | none => exact .inl rfl
  | some n => exact .inr ⟨n, rfl⟩

theorem members_eq (s : Setup) :
    s.members = ("addresses", .array (s.addresses.map Address.toJson)) ::
      ("useTls", .bool s.useTls) :: ("clusterModeEnabled", .bool s.clusterMode) ::
      ("databaseId", nat s.database.toNat) :: s.nameMembers := rfl

theorem printable_members (s : Setup) : ∀ m ∈ s.members, Printable 2 m.2 := by
  intro m hm
  obtain hm | hm := List.mem_append.mp hm
  · simp only [List.mem_cons, List.not_mem_nil, or_false] at hm
    obtain rfl | rfl | rfl | rfl := hm
    · apply Printable.array
      intro v hv
      obtain ⟨a, -, rfl⟩ := List.mem_map.mp hv
      exact Address.printable_toJson a
    · exact printable_bool 2 s.useTls
    · exact printable_bool 2 s.clusterMode
    · exact printable_nat 2 (Nat.lt_trans s.database.toNat_lt (by decide))
  · cases hname : s.clientName with
    | none =>
      rw [hname] at hm
      exact absurd hm List.not_mem_nil
    | some n =>
      rw [hname] at hm
      rw [List.mem_singleton.mp hm]
      exact printable_string 2 n

end Setup

namespace Payload

/-- The members before and behind the kind of the payload, from which its fields are read. -/
structure IsWrittenAs (p : Payload) (before after : List (String × Json)) : Prop where
  unkind : ∀ m ∈ before ++ after, m.1 ≠ "kind"
  fields : ofFields p.kind (.object (before ++ after)) = .ok p

theorem ofFields_connect {members : List (String × Json)} {s : Setup}
    (h : Setup.record.ofJson (.object members) = .ok s) :
    ofFields .connect (.object members) = .ok (connect s) := by
  rw [ofFields, h]
  rfl

theorem ofFields_command {members : List (String × Json)} {c : Command}
    (h : Command.record.ofJson (.object members) = .ok c) :
    ofFields .command (.object members) = .ok (command c) := by
  rw [ofFields, h]
  rfl

/-- The commands of a transaction, whatever each of them is written as. -/
theorem ofFields_transaction {g : Command → Json} {cs : List Command}
    (h : ∀ c ∈ cs, Command.record.ofJson (g c) = .ok c) :
    ofFields .transaction (.object [("commands", .array (cs.map g))]) = .ok (transaction cs) := by
  have hfill : transactionRecord.fillMember {}
      ("commands", .array (cs.map g)) = .ok { commands := some cs } := by
    rw [Record.fillMember_eq rfl rfl]
    dsimp only
    rw [toItems_map h]
    rfl
  have hfills : transactionRecord.Fills {}
      [("commands", .array (cs.map g))] { commands := some cs } :=
    .cons hfill (.nil _)
  rw [ofFields, hfills.ofJson rfl]
  rfl

theorem canonical_connect (s : Setup) :
    (connect s).toJson.canonical =
      .object (s.leadingMembers ++
        [("kind", .string Kind.connect.name), ("useTls", .bool s.useTls)]) := by
  have haddresses : canonicalItems (s.addresses.map Address.toJson) =
      s.addresses.map Address.toJson := canonicalItems_map Address.canonical_toJson s.addresses
  have hjson : (connect s).toJson =
      .object (("kind", .string Kind.connect.name) :: s.members) := rfl
  rw [hjson, s.members_eq, Setup.leadingMembers]
  obtain hname | ⟨n, hname⟩ := s.nameMembers_cases
  · have hsorted : (Json.object [("kind", .string Kind.connect.name),
        ("addresses", .array (s.addresses.map Address.toJson)), ("useTls", .bool s.useTls),
        ("clusterModeEnabled", .bool s.clusterMode),
        ("databaseId", nat s.database.toNat)]).canonical =
        .object [("addresses", .array (canonicalItems (s.addresses.map Address.toJson))),
          ("clusterModeEnabled", .bool s.clusterMode), ("databaseId", nat s.database.toNat),
          ("kind", .string Kind.connect.name), ("useTls", .bool s.useTls)] := rfl
    rw [hname, hsorted, haddresses]
    rfl
  · have hsorted : (Json.object [("kind", .string Kind.connect.name),
        ("addresses", .array (s.addresses.map Address.toJson)), ("useTls", .bool s.useTls),
        ("clusterModeEnabled", .bool s.clusterMode), ("databaseId", nat s.database.toNat),
        ("clientName", .string n)]).canonical =
        .object [("addresses", .array (canonicalItems (s.addresses.map Address.toJson))),
          ("clientName", .string n), ("clusterModeEnabled", .bool s.clusterMode),
          ("databaseId", nat s.database.toNat), ("kind", .string Kind.connect.name),
          ("useTls", .bool s.useTls)] := rfl
    rw [hname, hsorted, haddresses]
    rfl

theorem isWrittenAs_members (p : Payload) : p.IsWrittenAs [] p.members := by
  cases p with
  | connect s =>
    constructor
    · obtain hname | ⟨n, hname⟩ := s.nameMembers_cases <;>
        simp [members, Setup.members_eq, hname]
    · exact ofFields_connect s.ofJson_members
  | command c =>
    constructor
    · simp [members, Command.members]
    · exact ofFields_command c.ofJson_members
  | transaction cs =>
    constructor
    · simp [members]
    · exact ofFields_transaction (g := fun c => .object c.members) fun c _ => c.ofJson_members

theorem exists_isWrittenAs (p : Payload) : ∃ before after,
    p.toJson.canonical = .object (before ++ ("kind", .string p.kind.name) :: after) ∧
      p.IsWrittenAs before after := by
  cases p with
  | connect s =>
    refine ⟨s.leadingMembers, [("useTls", .bool s.useTls)], canonical_connect s, ?_, ?_⟩
    · obtain hname | ⟨n, hname⟩ := s.nameMembers_cases <;> simp [Setup.leadingMembers, hname]
    · exact ofFields_connect s.ofJson_sortedMembers
  | command c =>
    have hsorted : (command c).toJson.canonical =
        .object [("args", .array (canonicalItems (c.args.map .string))),
          ("kind", .string Kind.command.name), ("requestType", .string c.kind.name)] := rfl
    rw [canonicalItems_map fun _ => rfl] at hsorted
    refine ⟨[("args", .array (c.args.map .string))], [("requestType", .string c.kind.name)],
      hsorted, ?_, ?_⟩
    · simp
    · exact ofFields_command c.ofJson_sortedMembers
  | transaction cs =>
    have hsorted : (transaction cs).toJson.canonical =
        .object [("commands", .array (canonicalItems (cs.map fun c => .object c.members))),
          ("kind", .string Kind.transaction.name)] := rfl
    rw [canonicalItems_map Command.canonical_members] at hsorted
    refine ⟨[("commands", .array (cs.map fun c : Command => .object c.sortedMembers))], [],
      hsorted, ?_, ?_⟩
    · simp
    · exact ofFields_transaction (g := fun c => .object c.sortedMembers)
        fun c _ => c.ofJson_sortedMembers

/-- What the reader of payloads makes of one printed member. -/
def Members.add (m : Members) (member : String × Json) : Option Members :=
  if member.1 = "kind" then
    match member.2, m.kind with
    | .string s, none =>
      (Kind.enumeration.ofName s).toOption.map fun k => { m with kind := some k }
    | _, _ => none
  else some { m with others := member :: m.others }

theorem ofName_name (k : Kind) : Kind.enumeration.ofName k.name = .ok k := by
  cases k <;> rfl

theorem readName_chars (k : Kind) (rest : Bytes) :
    Kind.enumeration.readName (bytes (string k.name).chars ++ rest) = .ok (k, rest) := by
  have htext : ∀ r, readText "variant identifier" (34 :: r) = readString r := fun _ => rfl
  rw [Enumeration.readName, chars, bytes_quoted_append, htext, readString_escapes]
  simp only [next, ofName_name]

theorem yields_kind (m : Members) (k : Kind) (rest : Bytes) :
    Yields (readMember m "kind" (58 :: (bytes (string k.name).chars ++ rest)))
      (m.add ("kind", .string k.name)) rest := by
  rw [readMember, if_pos rfl, Members.add, if_pos rfl]
  cases hkind : m.kind with
  | some k' => exact ⟨_, rfl⟩
  | none =>
    rw [afterColon_colon, readName_chars]
    simp only [ofName_name]
    rfl

theorem yields_other (m : Members) {name : String} (hname : name ≠ "kind") {v : Json}
    (hv : Printable 126 v) {rest : Bytes} (hrest : EndsNumber rest) :
    Yields (readMember m name (58 :: (bytes v.chars ++ rest))) (m.add (name, v)) rest := by
  have hyields := readValue_chars 126 hv.1 hrest
  rw [if_pos hv.2] at hyields
  have hread : readValue (maxDepth - 1) (bytes v.chars ++ rest) = .ok (v, rest) := hyields
  rw [readMember, if_neg hname, Members.add, if_neg hname, afterColon_colon, hread]
  rfl

theorem foldlM_add {members : List (String × Json)} (h : ∀ m ∈ members, m.1 ≠ "kind")
    (m : Members) :
    members.foldlM Members.add m = some { m with others := members.reverse ++ m.others } := by
  induction members generalizing m with
  | nil => rfl
  | cons x members ih =>
    have hx : m.add x = some { m with others := x :: m.others } := by
      rw [Members.add, if_neg (h x (List.mem_cons_self ..))]
    rw [List.foldlM_cons, hx, Option.bind_eq_bind, Option.bind_some,
      ih fun y hy => h y (List.mem_cons_of_mem _ hy), List.reverse_cons, List.append_assoc]
    rfl

theorem foldlM_add_kind {before after : List (String × Json)}
    (h : ∀ m ∈ before ++ after, m.1 ≠ "kind") (k : Kind) :
    (before ++ ("kind", .string k.name) :: after).foldlM Members.add {} =
      some { kind := some k, others := (before ++ after).reverse } := by
  have hkind : Members.add { others := before.reverse } ("kind", .string k.name) =
      some { kind := some k, others := before.reverse } := by
    rw [Members.add, if_pos rfl]
    simp only [ofName_name]
    rfl
  rw [List.foldlM_append, foldlM_add fun m hm => h m (List.mem_append_left _ hm),
    Option.bind_eq_bind, Option.bind_some, List.foldlM_cons, List.append_nil, hkind,
    Option.bind_eq_bind, Option.bind_some,
    foldlM_add fun m hm => h m (List.mem_append_right _ hm), List.reverse_append]

theorem parse_chars {p : Payload} {before after : List (String × Json)} {v : Json}
    (h : p.IsWrittenAs before after)
    (hv : v = .object (before ++ ("kind", .string p.kind.name) :: after))
    (hprintable : Printable maxDepth v) : parse (bytes v.chars) = .ok p := by
  subst hv
  have hmembers := @readMembers_charsMembers _ readMember Members.add
    (before ++ ("kind", .string p.kind.name) :: after) (by
      intro m hm state rest hrest
      by_cases hkind : m.1 = "kind"
      · have hm' : m = ("kind", .string p.kind.name) := by
          obtain hm | hm := List.mem_append.mp hm
          · exact absurd hkind (h.unkind m (List.mem_append_left _ hm))
          · obtain rfl | hm := List.mem_cons.mp hm
            · rfl
            · exact absurd hkind (h.unkind m (List.mem_append_right _ hm))
        rw [hm']
        exact yields_kind state p.kind rest
      · exact yields_other state hkind (hprintable.of_mem_members hm) hrest) {} []
  rw [foldlM_add_kind h.unkind p.kind] at hmembers
  have hread : readMembers readMember {} (bytes (charsMembers
      (before ++ ("kind", .string p.kind.name) :: after)) ++ [125]) =
      .ok ({ kind := some p.kind, others := (before ++ after).reverse }, []) := hmembers
  have htext : bytes (object (before ++ ("kind", .string p.kind.name) :: after)).chars =
      123 ::
        (bytes (charsMembers (before ++ ("kind", .string p.kind.name) :: after)) ++ [125]) := by
    rw [chars, bytes_cons, bytes_append]
    rfl
  have hfields : readFields (bytes (object
      (before ++ ("kind", .string p.kind.name) :: after)).chars) =
      .ok ((p.kind, .object (before ++ after)), []) := by
    rw [htext]
    change next (readMembers readMember {} _) _ = _
    rw [hread]
    simp only [next, List.reverse_reverse]
  rw [parse, read, hfields]
  simp only [h.fields]
  rfl

theorem printable_toJson (p : Payload) : Printable 4 p.toJson := by
  apply Printable.object
  intro m hm
  obtain rfl | hm := List.mem_cons.mp hm
  · exact printable_string 3 p.kind.name
  · cases p with
    | connect s => exact (s.printable_members m hm).mono (by decide)
    | command c => exact (c.printable_members.of_mem_members hm).mono (by decide)
    | transaction cs =>
      rw [List.mem_singleton.mp hm]
      apply Printable.array
      intro v hv
      obtain ⟨c, -, rfl⟩ := List.mem_map.mp hv
      exact c.printable_members

/-- The text of a payload is read as the payload, also when its members were sorted. -/
theorem parse_toJson (p : Payload) :
    parse (bytes p.toJson.chars) = .ok p ∧ parse (bytes p.toJson.canonical.chars) = .ok p := by
  have hprintable : Printable maxDepth p.toJson := p.printable_toJson.mono (by decide)
  constructor
  · exact parse_chars p.isWrittenAs_members rfl hprintable
  · obtain ⟨before, after, hsorted, hwritten⟩ := p.exists_isWrittenAs
    exact parse_chars hwritten hsorted hprintable.canonical

theorem printable_envelope (id : RequestId) (p : Payload) :
    Printable maxDepth (p.envelope id) := by
  have hmembers : ∀ m ∈ [("callbackIdx", nat id.val.toNat), ("request", p.toJson)],
      Printable 4 m.2 := by
    intro m hm
    simp only [List.mem_cons, List.not_mem_nil, or_false] at hm
    obtain rfl | rfl := hm
    · exact printable_nat 4 (Nat.lt_trans id.val.toNat_lt (by decide))
    · exact p.printable_toJson
  exact (Printable.object hmembers).mono (by decide)

end Payload

namespace Codec

/-- Every request is written. Its frame is the text of an object with the identifier and
the payload, the payload is read as it was, and no other request has this frame. -/
theorem request_round_trip (id : RequestId) (p : Payload) :
    ∃ f, json.serialize id p = .ok f ∧
      (∃ request,
        Json.parse f.data.toList =
          .ok (.object [("callbackIdx", .number (.int id.val.toNat)), ("request", request)]) ∧
        Payload.parse request.text.toUTF8.data.toList = .ok p ∧
        Payload.parse request.canonical.text.toUTF8.data.toList = .ok p) ∧
      ∀ id' p', json.serialize id' p' = .ok f → id' = id ∧ p' = p := by
  have hparse : ∀ (id : RequestId) (p : Payload),
      Json.parse (p.envelope id).text.toUTF8.data.toList = .ok (p.envelope id) := by
    intro id p
    rw [toList_toUTF8_text]
    exact Json.parse_chars (p.printable_envelope id)
  refine ⟨(p.envelope id).text.toUTF8, rfl, ⟨p.toJson, hparse id p, ?_, ?_⟩, ?_⟩
  · rw [toList_toUTF8_text]
    exact p.parse_toJson.1
  · rw [toList_toUTF8_text]
    exact p.parse_toJson.2
  · intro id' p' hframe
    have htext : (p'.envelope id').text.toUTF8 = (p.envelope id).text.toUTF8 :=
      Except.ok.inj hframe
    have hsame : (p'.envelope id') = p.envelope id := by
      have hid' := hparse id' p'
      rw [htext, hparse id p] at hid'
      exact (Except.ok.inj hid').symm
    have hmembers := Json.object.inj hsame
    simp only [List.cons.injEq, Prod.mk.injEq, true_and, and_true] at hmembers
    obtain ⟨hid, hp⟩ := hmembers
    have hnumber : (id'.val.toNat : Int) = id.val.toNat := Number.int.inj (Json.number.inj hid)
    constructor
    · have hval : id'.val = id.val := UInt32.toNat_inj.mp (Int.ofNat.inj hnumber)
      cases id
      cases id'
      exact congrArg RequestId.mk hval
    · have hread' := p'.parse_toJson.1
      rw [hp, p.parse_toJson.1] at hread'
      exact (Except.ok.inj hread').symm

end Codec

end Switchboard
