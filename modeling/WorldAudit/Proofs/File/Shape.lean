import WorldAudit.File.Shape
/-!
# Shape — values that are record files

The check for the shape finds a fault in exactly the values that are no record files (`fault?_eq_none_iff`).  The fault
is that of the first element that departs from the shape, and its path begins with the place of this element
(`misshapen_of_fault?`).
-/
namespace WorldAudit
namespace Shape

open Json (Value Fields)

def IdIsText (fields : Fields) : Prop := ∀ id, Catalog.get? "id" fields = some id → ∃ s, id = .string s

/-- **An element of a record file**: an object with a type that is not empty, and with a text for its id if it has
one. -/
inductive IsElement : Value → Prop
  | mk {fields : Fields} {name : String} (hid : IdIsText fields)
      (htype : Catalog.get? "type" fields = some (.string name)) (hname : name ≠ "") : IsElement (.object fields)

/-- **A record file**: an array of elements. -/
def IsRecordFile (v : Value) : Prop := ∃ elements, v = .array elements ∧ ∀ e ∈ elements, IsElement e

/-- A value that is no element, and where inside it the fault lies: at the id, or else at the type; a value that is no
object and one without a type are at fault as a whole. -/
inductive Departs : Value → String → Prop
  | notObject {v : Value} (h : ∀ fields, v ≠ .object fields) : Departs v ""
  | id {fields : Fields} {found : Value} (hid : Catalog.get? "id" fields = some found)
      (h : ∀ s, found ≠ .string s) : Departs (.object fields) "/id"
  | type {fields : Fields} {found : Value} (hid : IdIsText fields) (htype : Catalog.get? "type" fields = some found)
      (h : ∀ s, s ≠ "" → found ≠ .string s) : Departs (.object fields) "/type"
  | typeMissing {fields : Fields} (hid : IdIsText fields) (h : Catalog.get? "type" fields = none) :
      Departs (.object fields) ""

/-- **A value that is no record file**, with the path of what is at fault: all of it, or the first element that departs
from the shape. -/
inductive Misshapen : Value → String → Prop
  | notArray {v : Value} (h : ∀ elements, v ≠ .array elements) : Misshapen v ""
  | element {before after : List Value} {v : Value} {key : String} (hbefore : ∀ u ∈ before, IsElement u)
      (h : Departs v key) : Misshapen (.array (before ++ v :: after)) ("/" ++ toString before.length ++ key)

theorem Departs.not_isElement {v : Value} {key : String} (h : Departs v key) : ¬ IsElement v := by
  rintro ⟨hid, htype, hname⟩
  cases h with
  | notObject h => exact h _ rfl
  | id hfound h =>
    obtain ⟨s, rfl⟩ := hid _ hfound
    exact h s rfl
  | type _ hfound h =>
    rw [htype] at hfound
    exact h _ hname (Option.some.inj hfound).symm
  | typeMissing _ h =>
    rw [htype] at h
    cases h

/-! ## The check -/

section Element

variable {fields : Fields}

theorem idIsText_or (fields : Fields) :
    IdIsText fields ∨ ∃ found, Catalog.get? "id" fields = some found ∧ ∀ s, found ≠ .string s := by
  cases hid : Catalog.get? "id" fields with
  | none => exact .inl fun id h => by rw [hid] at h; cases h
  | some found =>
    cases found with
    | string s => exact .inl fun id h => ⟨s, Option.some.inj (h.symm.trans hid)⟩
    | _ => exact .inr ⟨_, rfl, fun _ he => by cases he⟩

theorem elementFault?_of_id (i : Nat) {found : Value} (hid : Catalog.get? "id" fields = some found)
    (h : ∀ s, found ≠ .string s) : elementFault? i (.object fields) = some (.idNotText i found) := by
  rw [elementFault?, hid]
  cases found with
  | string s => exact absurd rfl (h s)
  | _ => rfl

theorem elementFault?_of_idIsText (i : Nat) (hid : IdIsText fields) : elementFault? i (.object fields) =
    match Catalog.get? "type" fields with
    | none => some (.typeMissing i)
    | some (.string s) => if s.isEmpty then some (.typeEmpty i) else none
    | some found => some (.typeNotText i found) := by
  rw [elementFault?]
  cases hfound : Catalog.get? "id" fields with
  | none => rfl
  | some found =>
    obtain ⟨s, rfl⟩ := hid found hfound
    rfl

end Element

/-- **The check passes an element, or names what is at fault in it.** -/
theorem elementFault?_cases (i : Nat) (v : Value) :
    elementFault? i v = none ∧ IsElement v ∨
      ∃ fault key, elementFault? i v = some fault ∧ Departs v key ∧ fault.pointer = "/" ++ toString i ++ key := by
  cases v with
  | object fields =>
    rcases idIsText_or fields with hid | ⟨found, hfound, h⟩
    · rw [elementFault?_of_idIsText i hid]
      cases htype : Catalog.get? "type" fields with
      | none => exact .inr ⟨_, "", rfl, .typeMissing hid htype, String.append_empty.symm⟩
      | some found =>
        cases found with
        | string s =>
          by_cases hs : s = ""
          · subst hs
            refine .inr ⟨.typeEmpty i, "/type", rfl, .type hid htype fun s hs he => ?_, rfl⟩
            exact hs (Value.string.inj he).symm
          · refine .inl ⟨if_neg (mt String.isEmpty_iff.1 hs), .mk hid htype hs⟩
        | _ => exact .inr ⟨_, "/type", rfl, .type hid htype (fun _ _ he => by cases he), rfl⟩
    · exact .inr ⟨_, "/id", elementFault?_of_id i hfound h, .id hfound h, rfl⟩
  | _ => exact .inr ⟨_, "", rfl, .notObject (fun _ he => by cases he), String.append_empty.symm⟩

/-- **The first element that departs from the shape is at fault**, if there is one. -/
theorem elementsFault?_cases : ∀ (vs : List Value) (i : Nat),
    elementsFault? i vs = none ∧ (∀ v ∈ vs, IsElement v) ∨
      ∃ fault before v after key, elementsFault? i vs = some fault ∧ vs = before ++ v :: after ∧
        (∀ u ∈ before, IsElement u) ∧ Departs v key ∧ fault.pointer = "/" ++ toString (i + before.length) ++ key
  | [], _ => .inl ⟨rfl, fun _ hv => by cases hv⟩
  | v :: vs, i => by
    rcases elementFault?_cases i v with ⟨hnone, hv⟩ | ⟨fault, key, hsome, hdeparts, hpointer⟩
    · have hcons : elementsFault? i (v :: vs) = elementsFault? (i + 1) vs := by rw [elementsFault?, hnone]; rfl
      rw [hcons]
      rcases elementsFault?_cases vs (i + 1) with ⟨hrest, hvs⟩ | ⟨fault, before, u, after, key, hrest, rfl, hbefore, hu⟩
      · exact .inl ⟨hrest, List.forall_mem_cons.2 ⟨hv, hvs⟩⟩
      · refine .inr ⟨fault, v :: before, u, after, key, hrest, rfl, List.forall_mem_cons.2 ⟨hv, hbefore⟩, hu.1, ?_⟩
        rw [hu.2, List.length_cons, Nat.add_assoc, Nat.add_comm 1]
    · rw [elementsFault?, hsome]
      exact .inr ⟨fault, [], v, vs, key, rfl, rfl, (fun _ hu => by cases hu), hdeparts, hpointer⟩

theorem fault?_cases (v : Value) :
    fault? v = none ∧ IsRecordFile v ∨ ∃ fault, fault? v = some fault ∧ Misshapen v fault.pointer := by
  cases v with
  | array elements =>
    rcases elementsFault?_cases elements 0 with ⟨hnone, h⟩ | ⟨fault, before, v, after, key, hsome, rfl, hbefore, hv⟩
    · exact .inl ⟨hnone, elements, rfl, h⟩
    · refine .inr ⟨fault, hsome, ?_⟩
      rw [hv.2, Nat.zero_add]
      exact .element hbefore hv.1
  | _ => exact .inr ⟨_, rfl, .notArray fun _ he => by cases he⟩

theorem Misshapen.not_isRecordFile {v : Value} {pointer : String} (h : Misshapen v pointer) : ¬ IsRecordFile v := by
  rintro ⟨elements, rfl, helements⟩
  generalize hv : Value.array elements = v at h
  cases h with
  | notArray h => exact h elements hv.symm
  | element _ h =>
    cases hv
    exact h.not_isElement (helements _ (List.mem_append_right _ List.mem_cons_self))

/-- **The check passes record files and nothing else.** -/
theorem fault?_eq_none_iff {v : Value} : fault? v = none ↔ IsRecordFile v := by
  rcases fault?_cases v with ⟨hnone, h⟩ | ⟨fault, hsome, h⟩
  · exact iff_of_true hnone h
  · rw [hsome]
    exact iff_of_false nofun h.not_isRecordFile

/-- **The fault that it finds is the first one.** -/
theorem misshapen_of_fault? {v : Value} {fault : Fault} (h : fault? v = some fault) : Misshapen v fault.pointer := by
  rcases fault?_cases v with ⟨hnone, _⟩ | ⟨fault', hsome, h'⟩
  · rw [hnone] at h
    cases h
  · rw [hsome] at h
    cases h
    exact h'

end Shape
end WorldAudit
