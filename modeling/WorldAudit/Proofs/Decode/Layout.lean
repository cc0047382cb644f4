import Mathlib.Data.List.Nodup
import Mathlib.Data.List.Pairwise
import WorldAudit.Decode.Layout
/-!
# Layout — what a payload is read from

Of an object a payload takes the members that its fields name, and what else the object holds cannot be told from the
result, be it good or a fault (`Layout.Declares.decode_part`).  An object that decodes gives every field at most once
and all that have to be there, and the fields do not get into each other's way.  So the order of its members does not
count, nor by which of its names a field is given (`Layout.Declares.ofObject_perm`).
-/
namespace WorldAudit
namespace Decode

open Json (Value Fields)

/-! ## The part of a value that is read -/

/-- Values by the name of a field, each with what cuts it down to what is read of it. -/
abbrev Cuts := List (String × (Value → Value))

/-- A field's value, cut down to what is read of it; all of it if nothing is said. -/
def cut (cuts : Cuts) (name : String) : Value → Value := (cuts.lookup name).getD id

/-- The members of an object with these names, and of each what is read of it. -/
def members (names : List String) (cuts : Cuts) (o : Fields) : Fields :=
  (o.filter fun e => names.contains e.1).map fun e => (e.1, cut cuts e.1 e.2)

/-- The elements of an array of fields, of each what is read of it. -/
def places (cuts : Cuts) : List String → List Value → List Value
  | name :: names, v :: vs => cut cuts name v :: places cuts names vs
  | _, vs => vs

/-- What a payload with fields of these names is read from. -/
def part (names : List String) (cuts : Cuts) : Value → Value
  | .object o => .object (members names cuts o)
  | .array vs => .array (places cuts names vs)
  | v => v

/-- The elements of an array, cut down one by one. -/
def each (f : Value → Value) : Value → Value
  | .array vs => .array (vs.map f)
  | v => v

section Members

variable (names : List String) (cuts : Cuts)

theorem members_cons_of_mem {key : String} (h : key ∈ names) (v : Value) (o : Fields) :
    members names cuts ((key, v) :: o) = (key, cut cuts key v) :: members names cuts o := by
  have hc : names.contains key = true := List.contains_iff_mem.2 h
  rw [members, List.filter_cons, hc, if_pos rfl, List.map_cons, members]

theorem members_cons_of_notMem {key : String} (h : key ∉ names) (v : Value) (o : Fields) :
    members names cuts ((key, v) :: o) = members names cuts o := by
  have hc : names.contains key = false := Bool.eq_false_iff.2 (mt List.contains_iff_mem.1 h)
  rw [members, List.filter_cons, hc, if_neg Bool.false_ne_true, members]

/-- **To put a value under another key changes no member that is read.** -/
theorem members_insert {key : String} (h : key ∉ names) (v : Value) : ∀ o : Fields,
    members names cuts (Catalog.insert key v o) = members names cuts o
  | [] => members_cons_of_notMem names cuts h v []
  | (k, w) :: o => by
    unfold Catalog.insert
    split
    · rename_i he
      subst he
      rw [members_cons_of_notMem names cuts h, members_cons_of_notMem names cuts h]
    · split
      · exact members_cons_of_notMem names cuts h v _
      · by_cases hk : k ∈ names
        · rw [members_cons_of_mem names cuts hk, members_cons_of_mem names cuts hk, members_insert h v o]
        · rw [members_cons_of_notMem names cuts hk, members_cons_of_notMem names cuts hk, members_insert h v o]

/-- **Nor does it to take other members out.** -/
theorem members_filter {p : String → Bool} (h : ∀ name ∈ names, p name = true) (o : Fields) :
    members names cuts (o.filter fun e => p e.1) = members names cuts o := by
  rw [members, members, List.filter_filter]
  refine congrArg _ (List.filter_congr fun e _ => ?_)
  cases hmem : names.contains e.1 with
  | false => rfl
  | true => rw [Bool.true_and, h e.1 (List.contains_iff_mem.1 hmem)]

theorem get?_members {key : String} (h : key ∈ names) : ∀ o : Fields,
    Catalog.get? key (members names cuts o) = (Catalog.get? key o).map (cut cuts key)
  | [] => rfl
  | (k, v) :: o => by
    by_cases hk : key = k
    · subst hk
      rw [members_cons_of_mem names cuts h, Catalog.get?, if_pos rfl, Catalog.get?, if_pos rfl, Option.map_some]
    · rw [Catalog.get?, if_neg hk, ← get?_members h o]
      by_cases hk' : k ∈ names
      · rw [members_cons_of_mem names cuts hk', Catalog.get?, if_neg hk]
      · rw [members_cons_of_notMem names cuts hk']

end Members

theorem length_places (cuts : Cuts) : ∀ (names : List String) (vs : List Value),
    (places cuts names vs).length = vs.length
  | [], _ => rfl
  | _ :: _, [] => rfl
  | _ :: names, _ :: vs => congrArg (· + 1) (length_places cuts names vs)

/-! ## Fields -/

/-- Two fields that do not get into each other's way: in which order they are set does not count. -/
def Swaps {α : Type} (f g : Field α) : Prop :=
  ∀ o v w a, ((f.set o v a).toOption.bind fun a => (g.set o w a).toOption) =
    (g.set o w a).toOption.bind fun a => (f.set o v a).toOption

instance {α : Type} : Std.Symm (Swaps (α := α)) := ⟨fun _ _ h o v w a => (h o w v a).symm⟩

/-- Fields that put their values in different places. -/
theorem swaps_of_put {α β γ : Type} {f g : Field α} {d : Origin → Value → Result β} {d' : Origin → Value → Result γ}
    {put : α → β → α} {put' : α → γ → α} (hf : f.set = fun o v a => (d o v).map (put a))
    (hg : g.set = fun o v a => (d' o v).map (put' a)) (h : ∀ a x y, put' (put a x) y = put (put' a y) x) :
    Swaps f g := by
  intro o v w a
  rw [hf, hg]
  dsimp only
  cases d o v <;> cases d' o w <;> simp [Except.map, Except.toOption, h]

namespace Layout

variable {α : Type} {l : Layout α} {names : List String} {cuts : Cuts}

theorem field?_eq_some {key : String} {f : Field α} (h : l.field? key = some f) :
    f ∈ l.fields ∧ key ∈ f.name :: f.aliases := by
  refine ⟨List.mem_of_find?_eq_some h, ?_⟩
  have := List.find?_some h
  rw [Bool.or_eq_true, beq_iff_eq, List.contains_iff_mem] at this
  rw [List.mem_cons]
  exact this.imp_left Eq.symm

/-- **A layout with fields of these names**, first in their order and then their further ones, of which nothing but what
the cuts leave is read, and which do not get into each other's way. -/
structure Declares (l : Layout α) (names : List String) (cuts : Cuts) : Prop where
  named : (l.fields.all fun f => (f.name :: f.aliases).all names.contains) = true
  ordered : (l.fields.map (·.name)).isPrefixOf names = true
  unread : ∀ f ∈ l.fields, ∀ key ∈ f.name :: f.aliases, ∀ o v a, f.set o (cut cuts key v) a = f.set o v a
  apart : l.fields.Pairwise Swaps

/-! ## What is not read -/

section Unread

variable (h : l.Declares names cuts) (o : Origin)

include h

theorem Declares.visit_members : ∀ (object : Fields) (a : α) (seen : List String),
    l.visit o a seen (members names cuts object) = l.visit o a seen object
  | [], _, _ => rfl
  | (key, v) :: object, a, seen => by
    cases hf : l.field? key with
    | none =>
      rw [visit, hf]
      by_cases hkey : key ∈ names
      · rw [members_cons_of_mem names cuts hkey, visit, hf]
        exact Declares.visit_members object a seen
      · rw [members_cons_of_notMem names cuts hkey]
        exact Declares.visit_members object a seen
    | some f =>
      obtain ⟨hmem, hname⟩ := field?_eq_some hf
      have hkey : key ∈ names :=
        List.contains_iff_mem.1 (List.all_eq_true.1 (List.all_eq_true.1 h.named f hmem) key hname)
      rw [members_cons_of_mem names cuts hkey, visit, hf, visit, hf]
      dsimp only
      rw [h.unread f hmem key hname o v a]
      cases hset : f.set o v a with
      | error fault => rfl
      | ok a' =>
        have ih := Declares.visit_members object a' (f.name :: seen)
        show (if _ then _ else l.visit o a' (f.name :: seen) _) = if _ then _ else l.visit o a' (f.name :: seen) _
        rw [ih]

theorem Declares.place_places : ∀ {fs : List (Field α)} {names' : List String} (vs : List Value) (a : α) (i : Nat),
    (∀ f ∈ fs, f ∈ l.fields) → (fs.map (·.name)).isPrefixOf names' = true →
    l.place o a i fs (places cuts names' vs) = l.place o a i fs vs
  | [], names', vs, a, i, _, _ => by
    cases vs with
    | nil => cases names' <;> rfl
    | cons v vs =>
      cases names' with
      | nil => rfl
      | cons name names' =>
        rw [places, place, place, List.length_cons, List.length_cons, length_places]
  | f :: fs, [], _, _, _, _, hpre => by cases hpre
  | f :: fs, name :: names', [], _, _, _, _ => rfl
  | f :: fs, name :: names', v :: vs, a, i, hfs, hpre => by
    rw [List.map_cons, List.isPrefixOf_cons_cons, Bool.and_eq_true, beq_iff_eq] at hpre
    obtain ⟨rfl, hpre⟩ := hpre
    rw [places, place, place, h.unread f (hfs f List.mem_cons_self) f.name List.mem_cons_self o v a]
    cases hset : f.set o v a with
    | error fault => rfl
    | ok a' => exact Declares.place_places vs a' (i + 1) (fun g hg => hfs g (List.mem_cons_of_mem f hg)) hpre

/-- **What a payload does not declare is not read**, whether the payload is good or not. -/
theorem Declares.decode_part (v : Value) : l.decode o (part names cuts v) = l.decode o v := by
  cases v with
  | object object => rw [part, decode, ofObject, h.visit_members, decode, ofObject]
  | array vs => exact h.place_places o vs l.blank 0 (fun _ hf => hf) h.ordered
  | _ => rfl

end Unread

/-! ## Objects that decode -/

/-- The members that name fields, in the order of the object. -/
def recognised (l : Layout α) (object : Fields) : List (Field α × Value) :=
  object.filterMap fun e => (l.field? e.1).map (·, e.2)

/-- Sets fields one after another, as long as their values are good. -/
def assign (o : Origin) (a : Option α) (ps : List (Field α × Value)) : Option α :=
  ps.foldl (fun a p => a.bind fun a => (p.1.set o p.2 a).toOption) a

theorem assign_none (o : Origin) : ∀ ps : List (Field α × Value), assign o none ps = none
  | [] => rfl
  | _ :: ps => assign_none o ps

theorem visit_eq_ok (o : Origin) : ∀ {object : Fields} {a b : α} {seen seen' : List String},
    l.visit o a seen object = .ok (b, seen') ↔
      ((l.recognised object).map (·.1.name)).Nodup ∧ (∀ n ∈ (l.recognised object).map (·.1.name), n ∉ seen) ∧
        assign o (some a) (l.recognised object) = some b ∧
        seen' = ((l.recognised object).map (·.1.name)).reverse ++ seen
  | [], a, b, seen, seen' => by simp [visit, recognised, assign, eq_comm]
  | (key, v) :: object, a, b, seen, seen' => by
    cases hf : l.field? key with
    | none =>
      have hskip : l.recognised ((key, v) :: object) = l.recognised object := by simp [recognised, hf]
      rw [visit, hf, hskip]
      exact visit_eq_ok o
    | some f =>
      have hcons : l.recognised ((key, v) :: object) = (f, v) :: l.recognised object := by simp [recognised, hf]
      rw [visit, hf, hcons, List.map_cons, List.nodup_cons, List.forall_mem_cons]
      dsimp only
      by_cases hseen : f.name ∈ seen
      · rw [if_pos (List.contains_iff_mem.2 hseen)]
        exact iff_of_false nofun fun h => h.2.1.1 hseen
      · rw [if_neg (mt List.contains_iff_mem.1 hseen)]
        have hassign : assign o (some a) ((f, v) :: l.recognised object) =
            assign o (f.set o v a).toOption (l.recognised object) := rfl
        rw [hassign]
        cases hset : f.set o v a with
        | error fault =>
          rw [show (Except.error fault : Result α).toOption = none from rfl, assign_none]
          exact iff_of_false nofun fun h => nomatch h.2.2.1
        | ok a' =>
          show l.visit o a' (f.name :: seen) object = _ ↔ _
          rw [visit_eq_ok o, show (Except.ok a' : Result α).toOption = some a' from rfl]
          simp only [List.mem_cons, not_or, List.reverse_cons, List.append_assoc, List.singleton_append]
          grind

/-- **An object decodes if every field is named once at the most and every one that has to be there is**, and their
values are good. -/
theorem ofObject_eq_ok (o : Origin) {object : Fields} {b : α} : l.ofObject o object = .ok b ↔
    ((l.recognised object).map (·.1.name)).Nodup ∧ assign o (some l.blank) (l.recognised object) = some b ∧
      ∀ f ∈ l.fields, f.required = true → f.name ∈ (l.recognised object).map (·.1.name) := by
  have hmissing : ∀ seen : List String, (∀ f ∈ l.fields, f.required = true → f.name ∈ seen) ↔
      l.fields.find? (fun f => f.required && !seen.contains f.name) = none := fun seen => by
    rw [List.find?_eq_none]
    simp
  cases hvisit : l.visit o l.blank [] object with
  | error fault =>
    have hbad : l.ofObject o object = .error fault := by rw [ofObject, hvisit]; rfl
    rw [hbad]
    refine iff_of_false (by simp) fun h => ?_
    have hgood : l.visit o l.blank [] object = .ok (b, _) :=
      (visit_eq_ok o).2 ⟨h.1, fun _ _ => List.not_mem_nil, h.2.1, rfl⟩
    rw [hvisit] at hgood
    cases hgood
  | ok p =>
    obtain ⟨a, seen⟩ := p
    obtain ⟨hnodup, _, hassign, hseen⟩ := (visit_eq_ok o).1 hvisit
    rw [List.append_nil] at hseen
    have hmem : (∀ f ∈ l.fields, f.required = true → f.name ∈ (l.recognised object).map (·.1.name)) ↔
        l.fields.find? (fun f => f.required && !seen.contains f.name) = none := by
      rw [← hmissing, hseen]
      simp only [List.mem_reverse]
    rw [hassign, hmem]
    cases hfind : l.fields.find? (fun f => f.required && !seen.contains f.name) with
    | none =>
      have hgood : l.ofObject o object = .ok a := by simp only [ofObject, hvisit, bind, Except.bind, hfind]
      rw [hgood, Except.ok.injEq, Option.some.injEq]
      exact ⟨fun h => ⟨hnodup, h, rfl⟩, fun h => h.2.1⟩
    | some f =>
      have hbad : l.ofObject o object = .error (.missingField f.name) := by
        simp only [ofObject, hvisit, bind, Except.bind, hfind]
      rw [hbad]
      simp

/-- **The order of the members does not count** for an object that decodes, nor by which of its names a field is
given. -/
theorem Declares.ofObject_perm (h : l.Declares names cuts) (o : Origin) {object object' : Fields}
    (hperm : (l.recognised object).Perm (l.recognised object')) {b : α} (hb : l.ofObject o object = .ok b) :
    l.ofObject o object' = .ok b := by
  obtain ⟨hnodup, hassign, hrequired⟩ := (ofObject_eq_ok o).1 hb
  have hnames := hperm.map (·.1.name)
  refine (ofObject_eq_ok o).2 ⟨hnames.nodup_iff.1 hnodup, ?_, fun f hf hr => hnames.mem_iff.1 (hrequired f hf hr)⟩
  rw [← hassign]
  refine (hperm.foldl_eq' (fun p hp q hq a => ?_) _).symm
  -- two members are the same one, or they name different fields
  by_cases hpq : p = q
  · rw [hpq]
  · have hne : p.1.name ≠ q.1.name := fun he => hpq (List.inj_on_of_nodup_map hnodup hp hq he)
    have hfield : ∀ r ∈ l.recognised object, r.1 ∈ l.fields := fun r hr => by
      obtain ⟨e, _, he⟩ := List.mem_filterMap.1 hr
      obtain ⟨f, hf, rfl⟩ := Option.map_eq_some_iff.1 he
      exact (field?_eq_some hf).1
    have hswaps := h.apart.forall (hfield p hp) (hfield q hq) fun he => hne (congrArg Field.name he)
    cases a with
    | none => rfl
    | some a => exact hswaps o p.2 q.2 a

end Layout
end Decode
end WorldAudit
