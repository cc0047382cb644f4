import Mathlib.Data.List.Forall2
import WorldAudit.File.Load
import WorldAudit.Proofs.Decode.Record
import WorldAudit.Proofs.File.Shape
/-!
# Stages — what is reported of a file that does not load

A text that is no JSON is reported as that, whatever else is wrong with it; a value that is no record file as that, even
if elements before the one at fault do not decode; and of the elements that do not decode the first.  There are records
only if nothing is wrong, one for each element (`ReadInStages`).  Several files load in their order, up to the first
fault.
-/
namespace WorldAudit

/-! ## Up to the first fault -/

/-- All up to some element are good, and of this one and the number of those before it `Q` holds. -/
def UpToFirst {α : Type} (P : α → Prop) (Q : Nat → α → Prop) (as : List α) : Prop :=
  ∃ before a after, as = before ++ a :: after ∧ (∀ b ∈ before, P b) ∧ Q before.length a

/-- Does something with the elements of a list from number `i` on, up to the first fault. -/
def inOrder {ε α β : Type} (f : Nat → α → Except ε β) (i : Nat) : List α → Except ε (List β)
  | [] => .ok []
  | a :: as =>
    match f i a with
    | .error fault => .error fault
    | .ok b => (inOrder f (i + 1) as).map (b :: ·)

section InOrder

variable {ε α β : Type}

theorem upToFirst_nil {P : α → Prop} {Q : Nat → α → Prop} : ¬ UpToFirst P Q [] := by
  rintro ⟨before, a, after, h, _⟩
  exact absurd h.symm (List.append_ne_nil_of_right_ne_nil _ (List.cons_ne_nil _ _))

theorem upToFirst_cons {P : α → Prop} {Q : Nat → α → Prop} {a : α} {as : List α} :
    UpToFirst P Q (a :: as) ↔ Q 0 a ∨ P a ∧ UpToFirst P (fun n => Q (n + 1)) as := by
  constructor
  · rintro ⟨before, b, after, h, hbefore, hb⟩
    cases before with
    | nil =>
      obtain ⟨rfl, _⟩ := List.cons.inj h
      exact .inl hb
    | cons c before =>
      obtain ⟨rfl, rfl⟩ := List.cons.inj h
      obtain ⟨hc, hbefore⟩ := List.forall_mem_cons.1 hbefore
      exact .inr ⟨hc, before, b, after, rfl, hbefore, hb⟩
  · rintro (ha | ⟨ha, before, b, after, rfl, hbefore, hb⟩)
    · exact ⟨[], a, as, rfl, (fun _ h => absurd h List.not_mem_nil), ha⟩
    · exact ⟨a :: before, b, after, rfl, List.forall_mem_cons.2 ⟨ha, hbefore⟩, hb⟩

theorem upToFirst_congr {P : α → Prop} {Q Q' : Nat → α → Prop} {as : List α} (h : ∀ n, ∀ a ∈ as, Q n a ↔ Q' n a) :
    UpToFirst P Q as ↔ UpToFirst P Q' as := by
  constructor <;> rintro ⟨before, a, after, rfl, hbefore, ha⟩
  · exact ⟨before, a, after, rfl, hbefore, (h _ a (List.mem_append_right _ List.mem_cons_self)).1 ha⟩
  · exact ⟨before, a, after, rfl, hbefore, (h _ a (List.mem_append_right _ List.mem_cons_self)).2 ha⟩

theorem map_eq_ok {f : α → β} {x : Except ε α} {b : β} : x.map f = .ok b ↔ ∃ a, x = .ok a ∧ b = f a := by
  cases x <;> simp [Except.map, eq_comm]

theorem map_eq_error {f : α → β} {x : Except ε α} {fault : ε} : x.map f = .error fault ↔ x = .error fault := by
  cases x <;> simp [Except.map]

variable {f : Nat → α → Except ε β} {R : α → β → Prop} (h : ∀ i a b, f i a = .ok b ↔ R a b)

include h

theorem inOrder_eq_ok : ∀ {i : Nat} {as : List α} {bs : List β}, inOrder f i as = .ok bs ↔ List.Forall₂ R as bs
  | i, [], bs => by rw [inOrder, Except.ok.injEq, List.forall₂_nil_left_iff, eq_comm]
  | i, a :: as, bs => by
    rw [inOrder, List.forall₂_cons_left_iff]
    simp only [← h i a]
    cases hf : f i a with
    | error fault => exact iff_of_false nofun fun ⟨_, _, hb, _⟩ => nomatch hb
    | ok b =>
      dsimp only
      rw [map_eq_ok]
      simp only [inOrder_eq_ok, Except.ok.injEq]
      exact ⟨fun ⟨bs', hbs, he⟩ => ⟨b, bs', rfl, hbs, he⟩, fun ⟨_, bs', hb, hbs, he⟩ => ⟨bs', hbs, hb ▸ he⟩⟩

theorem inOrder_eq_error {fault : ε} : ∀ {i : Nat} {as : List α}, inOrder f i as = .error fault ↔
    UpToFirst (fun a => ∃ b, R a b) (fun n a => f (i + n) a = .error fault) as
  | i, [] => iff_of_false nofun upToFirst_nil
  | i, a :: as => by
    -- the number of an element counts from `i`, or from the one behind the head
    have hshift : (fun n a => f (i + (n + 1)) a = .error fault) = fun n a => f (i + 1 + n) a = .error fault := by
      funext n a
      rw [Nat.add_assoc, Nat.add_comm 1]
    rw [inOrder, upToFirst_cons, Nat.add_zero, hshift, ← inOrder_eq_error]
    simp only [← h i a]
    cases hf : f i a with
    | error fault' =>
      exact ⟨fun he => .inl (congrArg _ (Except.error.inj he)), fun he =>
        congrArg _ (Except.error.inj (he.resolve_right fun ⟨⟨_, hb⟩, _⟩ => nomatch hb))⟩
    | ok b =>
      dsimp only
      rw [map_eq_error]
      exact ⟨fun he => .inr ⟨⟨b, rfl⟩, he⟩, fun he => (he.resolve_left nofun).2⟩

end InOrder

namespace RecordFile

open Json (Value)
open Shape (IsElement IsRecordFile Misshapen)

/-! ## Elements and files -/

/-- The records of some elements: of each the one that it decodes to. -/
def Decoded (elements : List Value) (records : List Record) : Prop :=
  List.Forall₂ (fun v record => Decode.record v = .ok record) elements records

def decodeAt (path : String) (i : Nat) (v : Value) : Except LoadFault Record :=
  match Decode.record v with
  | .error fault => .error (.undecodable path i (typeName v) fault)
  | .ok record => .ok record

theorem decodeAt_eq_ok {path : String} (i : Nat) (v : Value) (record : Record) :
    decodeAt path i v = .ok record ↔ Decode.record v = .ok record := by
  rw [decodeAt]
  cases Decode.record v <;> simp

theorem decodeAt_eq_error {path : String} {i : Nat} {v : Value} {fault : LoadFault} :
    decodeAt path i v = .error fault ↔
      ∃ fault', Decode.record v = .error fault' ∧ fault = .undecodable path i (typeName v) fault' := by
  rw [decodeAt]
  cases Decode.record v <;> simp [eq_comm]

theorem decodeFrom_eq_inOrder (path : String) : ∀ (vs : List Value) (i : Nat),
    decodeFrom path i vs = inOrder (decodeAt path) i vs
  | [], _ => rfl
  | v :: vs, i => by
    rw [decodeFrom, inOrder, decodeAt, decodeFrom_eq_inOrder path vs]
    cases Decode.record v <;> rfl

/-- The file of a path whose text was read. -/
def IsFileOf (text : String × Option String) (file : RecordFile) : Prop :=
  file.path = text.1 ∧ ∃ content, text.2 = some content ∧ parseRecords text.1 content = .ok file.records

/-- What is wrong with the file at a path: its text could not be read, or holds no records. -/
def IsFaultOf (text : String × Option String) (fault : LoadFault) : Prop :=
  text.2 = none ∧ fault = .unreadable text.1 ∨
    ∃ content, text.2 = some content ∧ parseRecords text.1 content = .error fault

theorem load_eq_ok (text : String × Option String) (file : RecordFile) :
    load text.1 text.2 = .ok file ↔ IsFileOf text file := by
  obtain ⟨path, content⟩ := text
  cases content with
  | none => exact iff_of_false nofun fun ⟨_, _, h, _⟩ => nomatch h
  | some content =>
    show (parseRecords path content).map (fun records => ⟨path, records⟩) = .ok file ↔ _
    rw [map_eq_ok]
    constructor
    · rintro ⟨records, h, rfl⟩
      exact ⟨rfl, content, rfl, h⟩
    · rintro ⟨rfl, content', hcontent, h⟩
      obtain rfl := Option.some.inj hcontent
      exact ⟨file.records, h, rfl⟩

theorem load_eq_error {text : String × Option String} {fault : LoadFault} :
    load text.1 text.2 = .error fault ↔ IsFaultOf text fault := by
  obtain ⟨path, content⟩ := text
  cases content with
  | none => simp [load, IsFaultOf, eq_comm]
  | some content =>
    show (parseRecords path content).map (fun records => RecordFile.mk path records) = .error fault ↔ _
    rw [map_eq_error]
    simp [IsFaultOf]

theorem loadEach_eq_inOrder : ∀ (texts : List (String × Option String)) (i : Nat),
    loadEach texts = inOrder (fun _ text => load text.1 text.2) i texts
  | [], _ => rfl
  | (path, content) :: texts, i => by
    rw [loadEach, inOrder, loadEach_eq_inOrder texts (i + 1)]
    cases load path content with
    | error fault => rfl
    | ok file => cases inOrder (fun _ text => load text.1 text.2) (i + 1) texts <;> rfl

/-- **Loading gives the file of every text**, in their order. -/
theorem loadEach_eq_ok {texts : List (String × Option String)} {files : List RecordFile} :
    loadEach texts = .ok files ↔ List.Forall₂ IsFileOf texts files := by
  rw [loadEach_eq_inOrder texts 0]
  exact inOrder_eq_ok fun _ text file => load_eq_ok text file

theorem loadEach_eq_error {texts : List (String × Option String)} {fault : LoadFault} :
    loadEach texts = .error fault ↔
      UpToFirst (fun text => ∃ file, IsFileOf text file) (fun _ text => IsFaultOf text fault) texts := by
  rw [loadEach_eq_inOrder texts 0, inOrder_eq_error fun _ text file => load_eq_ok text file]
  simp only [load_eq_error]

theorem loadAll_of_ne_nil {texts : List (String × Option String)} (h : texts ≠ []) :
    loadAll texts = loadEach texts := by
  cases texts with
  | nil => exact absurd rfl h
  | cons text texts => rfl

/-! ## The stages of a file -/

section Stages

variable (path content : String)

theorem parseRecords_of_error {fault : Json.Fault} (h : Json.read content = .error fault) :
    parseRecords path content = .error (.notJson path content fault) := by
  rw [parseRecords, h]

theorem parseRecords_of_fault {value : Value} {fault : Shape.Fault} (h : Json.read content = .ok value)
    (hfault : Shape.fault? value = some fault) : parseRecords path content = .error (.misshapen path fault) := by
  rw [parseRecords, h]
  dsimp only
  rw [hfault]

theorem parseRecords_of_elements {elements : List Value} (h : Json.read content = .ok (.array elements))
    (helements : ∀ e ∈ elements, IsElement e) :
    parseRecords path content = inOrder (decodeAt path) 0 elements := by
  rw [parseRecords, h]
  dsimp only
  rw [Shape.fault?_eq_none_iff.2 ⟨elements, rfl, helements⟩]
  exact decodeFrom_eq_inOrder path elements 0

end Stages

/-- The first element that does not decode is number `i`, its type is `name`, and it has this fault. -/
def FirstUndecoded (elements : List Value) (i : Nat) (name : String) (fault : Decode.Fault) : Prop :=
  UpToFirst (fun e => ∃ record, Decode.record e = .ok record)
    (fun n e => n = i ∧ e.get? "type" = some (.string name) ∧ Decode.record e = .error fault) elements

/-- **What a text gives, stage by stage**: a fault of the text, or else of the shape of its value, or else of the first
element that does not decode, or else the records of all elements. -/
structure ReadInStages (path content : String) : Prop where
  text : ∀ fault, parseRecords path content = .error (.notJson path content fault) ↔ Json.read content = .error fault
  shape : ∀ value, Json.read content = .ok value →
    ((∃ fault, parseRecords path content = .error (.misshapen path fault) ∧ Misshapen value fault.pointer) ↔
      ¬ IsRecordFile value)
  element : ∀ elements, Json.read content = .ok (.array elements) → (∀ e ∈ elements, IsElement e) →
    ∀ i name fault, parseRecords path content = .error (.undecodable path i name fault) ↔
      FirstUndecoded elements i name fault
  records : ∀ elements, Json.read content = .ok (.array elements) → (∀ e ∈ elements, IsElement e) →
    ∀ records, parseRecords path content = .ok records ↔ Decoded elements records

theorem typeName_of_get? {v : Value} {name : String} (h : v.get? "type" = some (.string name)) : typeName v = name := by
  rw [typeName, h]
  rfl

theorem get?_type_of_isElement {v : Value} (h : IsElement v) : v.get? "type" = some (.string (typeName v)) := by
  obtain ⟨_, htype, _⟩ := h
  rw [typeName_of_get? (v := .object _) htype]
  exact htype

theorem parseRecords_eq_undecodable {path content : String} {elements : List Value}
    (h : Json.read content = .ok (.array elements)) (helements : ∀ e ∈ elements, IsElement e) {i : Nat} {name : String}
    {fault : Decode.Fault} :
    parseRecords path content = .error (.undecodable path i name fault) ↔ FirstUndecoded elements i name fault := by
  rw [parseRecords_of_elements path content h helements, inOrder_eq_error decodeAt_eq_ok]
  refine upToFirst_congr fun n e he => ?_
  rw [Nat.zero_add, decodeAt_eq_error, get?_type_of_isElement (helements e he)]
  cases Decode.record e <;> simp [eq_comm]

theorem parseRecords_eq_ok {path content : String} {elements : List Value}
    (h : Json.read content = .ok (.array elements)) (helements : ∀ e ∈ elements, IsElement e) {records : List Record} :
    parseRecords path content = .ok records ↔ Decoded elements records := by
  rw [parseRecords_of_elements path content h helements]
  exact inOrder_eq_ok decodeAt_eq_ok

/-- **Whatever is reported, it is the fault of one of the stages.** -/
theorem parseRecords_eq_error {path content : String} {fault : LoadFault}
    (h : parseRecords path content = .error fault) :
    (∃ f, fault = .notJson path content f ∧ Json.read content = .error f) ∨
    (∃ value f, fault = .misshapen path f ∧ Json.read content = .ok value ∧ ¬ IsRecordFile value) ∨
    ∃ elements i name f, fault = .undecodable path i name f ∧ Json.read content = .ok (.array elements) ∧
      (∀ e ∈ elements, IsElement e) ∧ FirstUndecoded elements i name f := by
  cases hread : Json.read content with
  | error f =>
    rw [parseRecords_of_error path content hread] at h
    exact .inl ⟨f, (Except.error.inj h).symm, rfl⟩
  | ok value =>
    rcases Shape.fault?_cases value with ⟨_, elements, rfl, helements⟩ | ⟨f, hf, hmis⟩
    · have hinOrder := h
      rw [parseRecords_of_elements path content hread helements, inOrder_eq_error decodeAt_eq_ok] at hinOrder
      obtain ⟨before, e, after, _, _, he⟩ := hinOrder
      obtain ⟨f, _, rfl⟩ := decodeAt_eq_error.1 he
      exact .inr (.inr ⟨elements, _, _, f, rfl, rfl, helements, (parseRecords_eq_undecodable hread helements).1 h⟩)
    · rw [parseRecords_of_fault path content hread hf] at h
      exact .inr (.inl ⟨value, f, (Except.error.inj h).symm, rfl, hmis.not_isRecordFile⟩)

theorem readInStages (path content : String) : ReadInStages path content where
  text fault := by
    refine ⟨fun h => ?_, parseRecords_of_error path content⟩
    rcases parseRecords_eq_error h with ⟨f, hf, hread⟩ | ⟨_, _, hf, _⟩ | ⟨_, _, _, _, hf, _⟩
    · cases hf
      exact hread
    · cases hf
    · cases hf
  shape value h := by
    rcases Shape.fault?_cases value with ⟨_, hshape⟩ | ⟨fault, hfault, hmis⟩
    · exact iff_of_false (fun ⟨_, _, hmis⟩ => hmis.not_isRecordFile hshape) fun hnot => hnot hshape
    · exact iff_of_true ⟨fault, parseRecords_of_fault path content h hfault, hmis⟩ hmis.not_isRecordFile
  element elements h helements i name fault := parseRecords_eq_undecodable h helements
  records elements h helements records := parseRecords_eq_ok h helements

/-- **What does not decode is of a known kind**: of a record of any other type nothing is read. -/
theorem name_mem_names {elements : List Value} (helements : ∀ e ∈ elements, IsElement e) {i : Nat} {name : String}
    {fault : Decode.Fault} (h : FirstUndecoded elements i name fault) : name ∈ Kind.names := by
  obtain ⟨before, e, after, rfl, _, _, htype, hdecode⟩ := h
  obtain ⟨_, _, _⟩ := helements e (List.mem_append_right _ List.mem_cons_self)
  by_cases hname : name ∈ Kind.names
  · exact hname
  · rw [Decode.record_of_notMem_names htype hname] at hdecode
    cases hdecode

/-! ## Main result -/

/-- **Loading reports the first stage that fails, and never part of the records.**  Each text is read stage by stage.
A value that passes the check of its shape is an array; an element that does not decode is of a known kind, and one of
any other type decodes, whatever its fields.  Without paths there is nothing to load; otherwise there are all files in
their order, or the fault of the first path that is at fault. -/
theorem loading_by_stages :
    (∀ path content, ReadInStages path content) ∧
    (∀ value, Shape.fault? value = none → ∃ elements, value = .array elements) ∧
    (∀ path content path' i name fault, parseRecords path content = .error (.undecodable path' i name fault) →
      path' = path ∧ name ∈ Kind.names) ∧
    (∀ name fields, Catalog.get? "type" fields = some (.string name) → name ∉ Kind.names →
      Decode.record (.object fields) = .ok .other) ∧
    loadAll [] = .error .noInput ∧
    ∀ texts, texts ≠ [] →
      (∀ files, loadAll texts = .ok files ↔ List.Forall₂ IsFileOf texts files) ∧
      ∀ fault, loadAll texts = .error fault ↔
        UpToFirst (fun text => ∃ file, IsFileOf text file) (fun _ text => IsFaultOf text fault) texts := by
  refine ⟨readInStages, fun value h => ?_, fun path content path' i name fault h => ?_,
    fun name fields htype hname => Decode.record_of_notMem_names htype hname, rfl, fun texts h => ?_⟩
  · obtain ⟨elements, he, _⟩ := Shape.fault?_eq_none_iff.1 h
    exact ⟨elements, he⟩
  · rcases parseRecords_eq_error h with ⟨_, hf, _⟩ | ⟨_, _, hf, _⟩ | ⟨elements, _, _, _, hf, _, helements, hfirst⟩
    · cases hf
    · cases hf
    · cases hf
      exact ⟨rfl, name_mem_names helements hfirst⟩
  · rw [loadAll_of_ne_nil h]
    exact ⟨fun files => loadEach_eq_ok, fun fault => loadEach_eq_error⟩

/-- An element without a type counts before one that does not decode; then this one; then an unreadable file. -/
theorem untyped_then_undecoded_then_unreadable :
    let tree : Value := .object [("type", .string "Tree")]
    let person : Value := .object [("type", .string "Npc")]
    let untyped : Value := .object [("id", .string "b")]
    let first := "[\x7b\"type\":\"Npc\"\x7d,\x7b\"id\":\"b\"\x7d]"
    let second := "[\x7b\"type\":\"Tree\"\x7d,\x7b\"type\":\"Npc\"\x7d]"
    (Json.read first = .ok (.array [person, untyped]) ∧ ∃ fault,
      parseRecords "a.json" first = .error (.misshapen "a.json" fault) ∧
        Misshapen (.array [person, untyped]) fault.pointer) ∧
    (Json.read second = .ok (.array [tree, person]) ∧
      parseRecords "a.json" second = .error (.undecodable "a.json" 1 "Npc" (.missingField "id")) ∧
        "Npc" ∈ Kind.names) ∧
    ("Tree" ∉ Kind.names ∧ Decode.record tree = .ok .other) ∧
    loadAll [("a.json", some "[]"), ("b.json", none)] = .error (.unreadable "b.json") := by
  intro tree person untyped first second
  obtain ⟨hread, _, hkinds, hother, _, hall⟩ := loading_by_stages
  have hfirst : Json.read first = .ok (.array [person, untyped]) := by dsimp only [first]; rfl
  have hsecond : Json.read second = .ok (.array [tree, person]) := by dsimp only [second]; rfl
  have hshape : Shape.fault? (.array [person, untyped]) = some (.typeMissing 1) := rfl
  have hnot : ¬ IsRecordFile (.array [person, untyped]) := fun h => by
    rw [Shape.fault?_eq_none_iff.2 h] at hshape
    cases hshape
  have helements : ∀ e ∈ [tree, person], IsElement e := by
    have hid : ∀ name, Shape.IdIsText [("type", Value.string name)] := fun _ _ h => nomatch h
    simp only [List.forall_mem_cons]
    exact ⟨.mk (hid _) rfl (by decide +kernel), .mk (hid _) rfl (by decide +kernel), nofun⟩
  have hunknown : "Tree" ∉ Kind.names := by decide +kernel
  have htree : Decode.record tree = .ok .other := hother "Tree" _ rfl hunknown
  have hundecoded : parseRecords "a.json" second = .error (.undecodable "a.json" 1 "Npc" (.missingField "id")) :=
    ((hread "a.json" _).element _ hsecond helements 1 "Npc" (.missingField "id")).2
      ⟨[tree], person, [], rfl, fun e he => ⟨.other, List.mem_singleton.1 he ▸ htree⟩, rfl, rfl, rfl⟩
  refine ⟨⟨hfirst, ((hread "a.json" _).shape _ hfirst).2 hnot⟩,
    ⟨hsecond, hundecoded, (hkinds _ _ _ _ _ _ hundecoded).2⟩, ⟨hunknown, htree⟩,
    ((hall _ (List.cons_ne_nil _ _)).2 _).2 ⟨[("a.json", some "[]")], _, [], rfl, fun text h => ?_, .inl ⟨rfl, rfl⟩⟩⟩
  obtain rfl := List.mem_singleton.1 h
  exact ⟨⟨"a.json", []⟩, rfl, "[]", rfl, rfl⟩

end RecordFile
end WorldAudit
