import WorldAudit.Decode.Record
import WorldAudit.Proofs.Decode.Layout
/-!
# Record — what a record is read from

A record that is an object is read from its type and from the fields of its kind, and of the fields that hold payloads
of their own only from the fields of those (`readPart`).  Whatever else is in it, a good record stays the same record
and a bad one has the same fault.  A record that decodes stays the same record when its type or its fields are spelt in
another way (`Respelt`).
-/
namespace WorldAudit

/-- The names of the kinds of record, second spellings included. -/
def Kind.names : List String := known.map name ++ spellings.map Prod.fst

theorem Kind.ofName_of_notMem {n : String} (h : n ∉ names) : ofName n = .other := by
  rw [names, List.mem_append, not_or] at h
  have hknown : known.find? (·.name == n) = none :=
    List.find?_eq_none.2 fun k hk he => h.1 (eq_of_beq he ▸ List.mem_map_of_mem hk)
  have hspelt : spellings.find? (·.1 == n) = none :=
    List.find?_eq_none.2 fun e hm he => h.2 (eq_of_beq he ▸ List.mem_map_of_mem hm)
  rw [ofName, hknown, hspelt]
  rfl

namespace Decode

open Json (Value Fields)

/-- The names that the fields of a kind go by, second names last. -/
def declared : Kind → List String
  | .header => ["author", "description"]
  | .cell => ["id", "region", "data", "references"]
  | .pathGrid => ["cell"]
  | .dialogue => ["id", "dialogue_type"]
  | .info => ["id", "text", "result", "data", "quest_state", "script_text"]
  | .script => ["id", "text"]
  | .startScript => ["id", "script"]
  | .enchantment => ["id"]
  | .levelled _ => ["id", "list_flags", "entries", "creatures", "items"]
  | .actor _ => ["id", "name", "script", "inventory", "data"]
  | .book => ["id", "name", "script", "enchanting", "text"]
  | .object _ => ["id", "name", "script", "enchanting", "mesh"]
  | .other => []

/-- What is read of the fields of a kind that hold payloads of their own. -/
def nested : Kind → Cuts
  | .cell =>
    [("data", part ["flags", "grid"] []),
      ("references", each (part ["id", "translation", "rotation", "scale", "owner", "key", "deleted"] []))]
  | .info => [("data", part ["disposition", "dialogue_type"] [])]
  | .actor _ => [("data", part ["health", "stats"] [("stats", part ["health"] [])])]
  | _ => []

/-- What a record of a kind is read from. -/
def readPart (k : Kind) (o : Fields) : Fields := members ("type" :: declared k) (nested k) o

/-! ## Payloads in fields -/

section Nested

variable {α : Type} {l : Layout α} {names : List String} {cuts : Cuts}

theorem Layout.Declares.optional_part (h : l.Declares names cuts) (o : Origin) (v : Value) :
    optional (l.decode o) (part names cuts v) = optional (l.decode o) v := by
  cases v with
  | object fields => exact congrArg (Except.map some) (h.decode_part o (.object fields))
  | array vs => exact congrArg (Except.map some) (h.decode_part o (.array vs))
  | _ => rfl

theorem decodeEach_map {decode : Value → Result α} {f : Value → Value} (h : ∀ v, decode (f v) = decode v) :
    ∀ vs : List Value, decodeEach decode (vs.map f) = decodeEach decode vs
  | [] => rfl
  | v :: vs => by rw [List.map_cons, decodeEach, decodeEach, h v, decodeEach_map h vs]

theorem list_each {decode : Value → Result α} {f : Value → Value} (h : ∀ v, decode (f v) = decode v) (v : Value) :
    list decode (each f v) = list decode v := by
  cases v with
  | array vs => exact decodeEach_map h vs
  | _ => rfl

end Nested

theorem cellData_declares : cellData.Declares ["flags", "grid"] [] where
  named := rfl
  ordered := rfl
  unread _ _ _ _ _ _ _ := rfl
  apart := List.pairwise_pair.2 (swaps_of_put rfl rfl fun _ _ _ => rfl)

theorem reference_declares :
    reference.Declares ["id", "translation", "rotation", "scale", "owner", "key", "deleted"] [] where
  named := rfl
  ordered := rfl
  unread _ _ _ _ _ _ _ := rfl
  apart := by
    simp only [reference, List.pairwise_cons, List.forall_mem_cons, List.not_mem_nil, false_implies, implies_true,
      List.Pairwise.nil, and_true]
    and_intros <;> exact swaps_of_put rfl rfl fun _ _ _ => rfl

theorem infoData_declares : infoData.Declares ["disposition", "dialogue_type"] [] where
  named := rfl
  ordered := rfl
  unread _ _ _ _ _ _ _ := rfl
  apart := List.pairwise_pair.2 (swaps_of_put rfl rfl fun _ _ _ => rfl)

theorem actorStats_declares : actorStats.Declares ["health"] [] where
  named := rfl
  ordered := rfl
  unread _ _ _ _ _ _ _ := rfl
  apart := List.pairwise_singleton _ _

theorem actorData_declares : actorData.Declares ["health", "stats"] [("stats", part ["health"] [])] where
  named := rfl
  ordered := rfl
  unread := by
    simp only [actorData, Field.default, List.forall_mem_cons, List.not_mem_nil, false_implies, implies_true, and_true]
    exact ⟨fun _ _ _ => rfl, fun o v _ => congrArg (Except.map _) (actorStats_declares.optional_part o v)⟩
  apart := List.pairwise_pair.2 (swaps_of_put rfl rfl fun _ _ _ => rfl)

theorem cell_unread : ∀ f ∈ cell.fields, ∀ key ∈ f.name :: f.aliases, ∀ o v a,
    f.set o (cut (nested .cell) key v) a = f.set o v a := by
  simp only [cell, Field.default, List.forall_mem_cons, List.not_mem_nil, false_implies, implies_true, and_true]
  exact ⟨fun _ _ _ => rfl, fun _ _ _ => rfl, fun o v _ => congrArg (Except.map _) (cellData_declares.decode_part o v),
    fun o v _ => congrArg (Except.map _) (list_each (reference_declares.decode_part o) v)⟩

theorem info_unread : ∀ f ∈ info.fields, ∀ key ∈ f.name :: f.aliases, ∀ o v a,
    f.set o (cut (nested .info) key v) a = f.set o v a := by
  simp only [info, Field.default, Field.needed, Field.or, List.forall_mem_cons, List.not_mem_nil, false_implies,
    implies_true, and_true]
  exact ⟨fun _ _ _ => rfl, fun _ _ _ => rfl, ⟨fun _ _ _ => rfl, fun _ _ _ => rfl⟩,
    fun o v _ => congrArg (Except.map _) (infoData_declares.decode_part o v), fun _ _ _ => rfl⟩

theorem actor_unread (k : ActorKind) : ∀ f ∈ actor.fields, ∀ key ∈ f.name :: f.aliases, ∀ o v a,
    f.set o (cut (nested (.actor k)) key v) a = f.set o v a := by
  simp only [actor, Field.default, Field.needed, List.forall_mem_cons, List.not_mem_nil, false_implies, implies_true,
    and_true]
  exact ⟨fun _ _ _ => rfl, fun _ _ _ => rfl, fun _ _ _ => rfl, fun _ _ _ => rfl,
    fun o v _ => congrArg (Except.map _) (actorData_declares.optional_part o v)⟩

/-! ## The payloads of the kinds -/

/-- A payload and the record that it makes. -/
structure Payload where
  {α : Type}
  layout : Layout α
  make : α → Record

/-- The payload of the records of a kind. -/
def payload : Kind → Payload
  | .header => ⟨header, .header⟩
  | .cell => ⟨cell, .cell⟩
  | .pathGrid => ⟨pathGrid, .pathGrid⟩
  | .dialogue => ⟨dialogue, .dialogue⟩
  | .info => ⟨info, .info⟩
  | .script => ⟨script, .script⟩
  | .startScript => ⟨startScript, .startScript⟩
  | .enchantment => ⟨enchantment, .enchantment⟩
  | .levelled k => ⟨levelledList, .levelled k⟩
  | .actor k => ⟨actor, .actor k⟩
  | .book => ⟨book, .book⟩
  | .object k => ⟨object, .object k⟩
  | .other => ⟨other, fun _ => .other⟩

theorem ofKind_eq (k : Kind) (v : Value) :
    ofKind k v = ((payload k).layout.decode .record v).map (payload k).make := by
  cases k <;> rfl

theorem payload_named (k : Kind) :
    ((payload k).layout.fields.all fun f => (f.name :: f.aliases).all (declared k).contains) = true := by
  cases k <;> rfl

theorem payload_ordered (k : Kind) :
    ((payload k).layout.fields.map (·.name)).isPrefixOf (declared k) = true := by
  cases k <;> rfl

theorem payload_apart (k : Kind) : (payload k).layout.fields.Pairwise Swaps := by
  cases k <;>
    simp only [payload, header, cell, pathGrid, dialogue, info, script, startScript, enchantment, levelledList, actor,
      book, object, other, List.pairwise_cons, List.forall_mem_cons, List.not_mem_nil, false_implies, implies_true,
      List.Pairwise.nil, and_true] <;>
    and_intros <;> exact swaps_of_put rfl rfl fun _ _ _ => rfl

theorem payload_unread (k : Kind) : ∀ f ∈ (payload k).layout.fields, ∀ key ∈ f.name :: f.aliases, ∀ o v a,
    f.set o (cut (nested k) key v) a = f.set o v a := by
  -- only three kinds have fields with payloads of their own
  cases k with
  | cell => exact cell_unread
  | info => exact info_unread
  | actor k => exact actor_unread k
  | _ => exact fun _ _ _ _ _ _ _ => rfl

theorem payload_declares (k : Kind) : (payload k).layout.Declares (declared k) (nested k) :=
  ⟨payload_named k, payload_ordered k, payload_unread k, payload_apart k⟩

/-! ## What is not read of a record -/

/-- A record without its type. -/
def untyped (o : Fields) : Fields := o.filter (·.1 != "type")

theorem record_object {name : String} {o : Fields} (h : Catalog.get? "type" o = some (.string name)) :
    record (.object o) = ofKind (Kind.ofName name) (.object (untyped o)) := by
  rw [record, h]
  rfl

theorem untyped_readPart (k : Kind) (o : Fields) :
    untyped (readPart k o) = members (declared k) (nested k) (untyped o) := by
  rw [untyped, readPart, members, members, untyped, List.filter_map, List.filter_filter, List.filter_filter]
  refine congrArg _ (List.filter_congr fun e _ => ?_)
  show (e.1 != "type" && ("type" :: declared k).contains e.1) = ((declared k).contains e.1 && e.1 != "type")
  rw [Bool.and_comm, List.contains_cons, bne]
  cases e.1 == "type" <;> simp

theorem get?_type_readPart (k : Kind) (o : Fields) : Catalog.get? "type" (readPart k o) = Catalog.get? "type" o := by
  have hcut : cut (nested k) "type" = id := by cases k <;> rfl
  rw [readPart, get?_members _ _ List.mem_cons_self, hcut, Option.map_id]
  rfl

theorem record_eq_readPart {name : String} {o : Fields} (h : Catalog.get? "type" o = some (.string name)) :
    record (.object o) = ofKind (Kind.ofName name) (.object (untyped (readPart (Kind.ofName name) o))) := by
  rw [record_object h, ofKind_eq, ofKind_eq, untyped_readPart]
  exact congrArg _ ((payload_declares _).decode_part .record (.object (untyped o))).symm

theorem record_congr {name : String} {o o' : Fields} (h : Catalog.get? "type" o = some (.string name))
    (he : readPart (Kind.ofName name) o = readPart (Kind.ofName name) o') :
    record (.object o) = record (.object o') := by
  have h' : Catalog.get? "type" o' = some (.string name) := by
    rw [← h, ← get?_type_readPart (Kind.ofName name), ← he, get?_type_readPart]
  rw [record_eq_readPart h, record_eq_readPart h', he]

theorem record_of_notMem_names {name : String} {o : Fields} (h : Catalog.get? "type" o = some (.string name))
    (hn : name ∉ Kind.names) : record (.object o) = .ok .other := by
  have hnone : members (declared .other) (nested .other) (untyped o) = [] :=
    List.map_eq_nil_iff.2 (List.filter_eq_nil_iff.2 fun _ _ => nofun)
  rw [record_eq_readPart h, Kind.ofName_of_notMem hn, untyped_readPart, hnone]
  rfl

/-! ## Other spellings -/

/-- The second spellings of types, each with the first. -/
def typeSpellings : List (String × String) :=
  [("Enchanting", "Enchantment"), ("LeveledCreature", "LevelledCreature"), ("LeveledItem", "LevelledItem"),
    ("RepairTool", "RepairItem")]

/-- The second names of the fields of a kind, each with the first. -/
def keySpellings : Kind → List (String × String)
  | .levelled _ => [("creatures", "entries"), ("items", "entries")]
  | .info => [("script_text", "result")]
  | _ => []

/-- A name in its first spelling. -/
def plain (spellings : List (String × String)) (name : String) : String := (spellings.lookup name).getD name

theorem plain_induct {β : Type} {spellings : List (String × String)} {f : String → β}
    (h : ∀ e ∈ spellings, f e.2 = f e.1) (name : String) : f (plain spellings name) = f name := by
  cases hl : spellings.lookup name with
  | none => rw [plain, hl]; rfl
  | some first =>
    obtain ⟨before, after, he, _⟩ := List.lookup_eq_some_iff.1 hl
    rw [plain, hl]
    exact h (name, first) (he ▸ List.mem_append_right _ List.mem_cons_self)

theorem ofName_plain (name : String) : Kind.ofName (plain typeSpellings name) = Kind.ofName name :=
  plain_induct (by decide +kernel) name

theorem field?_plain (k : Kind) (key : String) :
    (payload k).layout.field? (plain (keySpellings k) key) = (payload k).layout.field? key := by
  refine plain_induct ?_ key
  cases k with
  | levelled => simp only [keySpellings, List.forall_mem_cons]; exact ⟨rfl, rfl, nofun⟩
  | info => simp only [keySpellings, List.forall_mem_cons]; exact ⟨rfl, nofun⟩
  | _ => nofun

/-- The members of a record of a kind, all fields by their first names. -/
def plainly (k : Kind) (o : Fields) : Fields := o.map fun e => (plain (keySpellings k) e.1, e.2)

/-- **Two records that differ in their spelling only**: the second has the type and the fields of the first, by any of
their names, in any order. -/
def Respelt (o o' : Fields) : Prop :=
  ∃ name name', Catalog.get? "type" o = some (.string name) ∧ Catalog.get? "type" o' = some (.string name') ∧
    plain typeSpellings name = plain typeSpellings name' ∧
    (plainly (Kind.ofName name) (untyped o)).Perm (plainly (Kind.ofName name) (untyped o'))

theorem recognised_plainly (k : Kind) (o : Fields) :
    (payload k).layout.recognised (plainly k o) = (payload k).layout.recognised o := by
  rw [Layout.recognised, plainly, List.filterMap_map, Layout.recognised]
  refine List.filterMap_congr fun e _ => ?_
  show ((payload k).layout.field? (plain (keySpellings k) e.1)).map (·, e.2) = _
  rw [field?_plain]

theorem Respelt.record_eq {o o' : Fields} {r : Record} (h : Respelt o o') (hr : record (.object o) = .ok r) :
    record (.object o') = .ok r := by
  obtain ⟨name, name', ht, ht', hplain, hperm⟩ := h
  have hkind : Kind.ofName name' = Kind.ofName name := by rw [← ofName_plain name', ← hplain, ofName_plain]
  rw [record_object ht, ofKind_eq] at hr
  rw [record_object ht', ofKind_eq, hkind]
  have hrecognised := hperm.filterMap fun e => ((payload (Kind.ofName name)).layout.field? e.1).map (·, e.2)
  change ((payload (Kind.ofName name)).layout.recognised _).Perm ((payload (Kind.ofName name)).layout.recognised _)
    at hrecognised
  rw [recognised_plainly, recognised_plainly] at hrecognised
  cases hdecode : (payload (Kind.ofName name)).layout.decode .record (.object (untyped o)) with
  | error fault => rw [hdecode] at hr; cases hr
  | ok b =>
    have hdecode' : (payload (Kind.ofName name)).layout.decode .record (.object (untyped o')) = .ok b :=
      (payload_declares _).ofObject_perm .record hrecognised hdecode
    rw [hdecode', ← hr, hdecode]

/-! ## Main results -/

/-- **A record is read from the fields of its kind.**  Two records of one type in which the same is to be read are the
same record or have the same fault: members under other keys may be added, changed or taken out, at the top or in a
payload of a field.  A record that decodes is the same record in every other spelling; as each of its fields is named
once, so it is there. -/
theorem record_reads_declared_fields :
    (∀ name o o', Catalog.get? "type" o = some (.string name) →
      readPart (Kind.ofName name) o = readPart (Kind.ofName name) o' → record (.object o) = record (.object o')) ∧
    (∀ name o key v, Catalog.get? "type" o = some (.string name) → key ∉ "type" :: declared (Kind.ofName name) →
      record (.object (Catalog.insert key v o)) = record (.object o)) ∧
    (∀ name o (keep : String → Bool), Catalog.get? "type" o = some (.string name) →
      (∀ key ∈ "type" :: declared (Kind.ofName name), keep key = true) →
      record (.object (o.filter fun e => keep e.1)) = record (.object o)) ∧
    ∀ o o' r, Respelt o o' → record (.object o) = .ok r → record (.object o') = .ok r := by
  refine ⟨fun name o o' h he => record_congr h he, fun name o key v h hkey => ?_, fun name o keep h hkeep => ?_,
    fun o o' r h hr => h.record_eq hr⟩
  · exact (record_congr h (members_insert _ _ hkey v o).symm).symm
  · exact (record_congr h (members_filter _ _ hkeep o).symm).symm

/-- A cell with notes on its data and on a reference, and a list in its two spellings. -/
theorem notes_and_spellings_change_nothing :
    (readPart .cell [("data", .object [("flags", .integer 1), ("note", .null)]), ("editor", .bool true),
        ("references", .array [.object [("id", .string "chest"), ("temporary", .bool true)]]),
        ("type", .string "Cell")] =
      readPart .cell [("data", .object [("flags", .integer 1)]),
        ("references", .array [.object [("id", .string "chest")]]), ("type", .string "Cell")] ∧
      record (.object [("data", .object [("flags", .integer 1), ("note", .null)]), ("editor", .bool true),
        ("references", .array [.object [("id", .string "chest"), ("temporary", .bool true)]]),
        ("type", .string "Cell")]) =
      record (.object [("data", .object [("flags", .integer 1)]),
        ("references", .array [.object [("id", .string "chest")]]), ("type", .string "Cell")])) ∧
    record (.object (Catalog.insert "weight" .null [("id", .integer 7), ("type", .string "Door")])) =
      record (.object [("id", .integer 7), ("type", .string "Door")]) ∧
    record (.object ([("id", .integer 7), ("type", .string "Door"), ("weight", .null)].filter
      fun e => e.1 != "weight")) = record (.object [("id", .integer 7), ("type", .string "Door"), ("weight", .null)]) ∧
    record (.object [("id", .string "gems"), ("items", .array [.array [.string "ruby", .integer 3]]),
      ("type", .string "LeveledItem")]) = .ok (.levelled .item ⟨"gems", 0, [⟨"ruby", 3⟩]⟩) ∧
    record (.object [("entries", .array [.array [.string "ruby", .integer 3]]), ("id", .string "gems"),
      ("type", .string "LevelledItem")]) = .ok (.levelled .item ⟨"gems", 0, [⟨"ruby", 3⟩]⟩) := by
  have hread : readPart .cell [("data", .object [("flags", .integer 1), ("note", .null)]), ("editor", .bool true),
        ("references", .array [.object [("id", .string "chest"), ("temporary", .bool true)]]),
        ("type", .string "Cell")] =
      readPart .cell [("data", .object [("flags", .integer 1)]),
        ("references", .array [.object [("id", .string "chest")]]), ("type", .string "Cell")] := rfl
  have hlist : record (.object [("id", .string "gems"), ("items", .array [.array [.string "ruby", .integer 3]]),
      ("type", .string "LeveledItem")]) = .ok (.levelled .item ⟨"gems", 0, [⟨"ruby", 3⟩]⟩) := rfl
  refine ⟨⟨hread, record_reads_declared_fields.1 "Cell" _ _ rfl hread⟩,
    record_reads_declared_fields.2.1 "Door" _ "weight" _ rfl (by decide +kernel),
    record_reads_declared_fields.2.2.1 "Door" _ (· != "weight") rfl (by decide +kernel), hlist,
    record_reads_declared_fields.2.2.2 _ _ _ ⟨"LeveledItem", "LevelledItem", rfl, rfl, rfl, ?_⟩ hlist⟩
  exact .swap _ _ _

end Decode
end WorldAudit
