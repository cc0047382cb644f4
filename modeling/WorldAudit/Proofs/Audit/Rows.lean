import Mathlib.Data.List.Forall2
import WorldAudit.Audit.Stream
/-!
# Rows — rows read column by column

A run calls one rule after another, so that what each of them answers on a group is a row of which the run makes one
column for every call.  A row that has ended is passed over.
-/
namespace WorldAudit

/-- The first `n` columns of some rows, one after another.  A row that has ended is passed over. -/
def columns {α : Type} : Nat → List (List α) → List α
  | 0, _ => []
  | n + 1, rows => rows.filterMap List.head? ++ columns n (rows.map List.tail)

/-- The parts of rules in the order of a run: group by group, call by call, rule by rule. -/
def inTurn {α : Type} : List Group → List (List (List α)) → List α
  | [], _ => []
  | g :: gs, parts => columns g.calls.length (parts.map (·.headD [])) ++ inTurn gs (parts.map List.tail)

/-- Parts that fit groups: part after part, at most one entry for each call, all with the same place. -/
def Fits {α : Type} (place : α → Nat) (k : Nat) (gs : List Group) (ps : List (List α)) : Prop :=
  List.Forall₂ (fun g row => row.length ≤ g.calls.length ∧ ∀ a ∈ row, place a = k) gs ps

section Heads

variable {α : Type} {ps : List (List α)} {a : α}

theorem mem_flatten_of_mem_headD (h : a ∈ ps.headD []) : a ∈ ps.flatten := by
  cases ps with
  | nil => cases h
  | cons row rest => exact List.mem_append_left _ h

theorem mem_flatten_of_mem_tail (h : a ∈ ps.tail.flatten) : a ∈ ps.flatten := by
  cases ps with
  | nil => cases h
  | cons row rest => exact List.mem_append_right _ h

end Heads

/-! ## Entries -/

section Entries

variable {α : Type} {a : α}

theorem mem_columns : ∀ {n : Nat} {rows : List (List α)}, a ∈ columns n rows → ∃ row ∈ rows, a ∈ row
  | 0, _, h => by cases h
  | n + 1, rows, h => by
    rcases List.mem_append.1 h with h | h
    · obtain ⟨row, hr, ha⟩ := List.mem_filterMap.1 h
      exact ⟨row, hr, List.mem_of_head? ha⟩
    · obtain ⟨row, hr, ha⟩ := mem_columns h
      obtain ⟨row', hr', rfl⟩ := List.mem_map.1 hr
      exact ⟨row', hr', List.mem_of_mem_tail ha⟩

theorem mem_inTurn : ∀ {gs : List Group} {parts : List (List (List α))}, a ∈ inTurn gs parts →
    ∃ ps ∈ parts, a ∈ ps.flatten
  | [], _, h => by cases h
  | g :: gs, parts, h => by
    rcases List.mem_append.1 h with h | h
    · obtain ⟨row, hr, ha⟩ := mem_columns h
      obtain ⟨ps, hps, rfl⟩ := List.mem_map.1 hr
      exact ⟨ps, hps, mem_flatten_of_mem_headD ha⟩
    · obtain ⟨rest, hr, ha⟩ := mem_inTurn h
      obtain ⟨ps, hps, rfl⟩ := List.mem_map.1 hr
      exact ⟨ps, hps, mem_flatten_of_mem_tail ha⟩

end Entries

/-! ## Rows changed entry by entry -/

section Map

variable {α β : Type} (f : α → β)

theorem map_columns : ∀ (n : Nat) (rows : List (List α)),
    (columns n rows).map f = columns n (rows.map (List.map f))
  | 0, _ => rfl
  | n + 1, rows => by
    have hheads : (rows.filterMap List.head?).map f = (rows.map (List.map f)).filterMap List.head? := by
      rw [List.map_filterMap, List.filterMap_map]
      exact congrArg (List.filterMap · rows) (funext fun row => (List.head?_map).symm)
    rw [columns, columns, List.map_append, map_columns n, hheads, List.map_map, List.map_map]
    exact congrArg (_ ++ columns n ·) (List.map_congr_left fun row _ => List.map_tail)

theorem map_inTurn : ∀ (gs : List Group) (parts : List (List (List α))),
    (inTurn gs parts).map f = inTurn gs (parts.map (List.map (List.map f)))
  | [], _ => rfl
  | g :: gs, parts => by
    rw [inTurn, inTurn, List.map_append, map_columns, map_inTurn gs, List.map_map, List.map_map, List.map_map,
      List.map_map]
    refine congrArg₂ (· ++ ·) ?_ ?_
    · exact congrArg _ (List.map_congr_left fun ps _ => by cases ps <;> rfl)
    · exact congrArg _ (List.map_congr_left fun ps _ => List.map_tail)

end Map

/-! ## Rows kept or dropped as a whole -/

section Filter

variable {α : Type} {ι : Type*} {q : α → Bool} {keep : ι → Bool}

theorem filter_heads : ∀ (l : List ι) (row : ι → List α), (∀ i ∈ l, ∀ a ∈ row i, q a = keep i) →
    ((l.map row).filterMap List.head?).filter q = ((l.filter keep).map row).filterMap List.head?
  | [], _, _ => rfl
  | i :: l, row, h => by
    have ih := filter_heads l row fun j hj => h j (List.mem_cons_of_mem i hj)
    rw [List.map_cons, List.filterMap_cons, List.filter_cons]
    cases hrow : row i with
    | nil =>
      rw [List.head?_nil]
      cases keep i with
      | false => exact ih
      | true => rw [if_pos rfl, List.map_cons, hrow]; exact ih
    | cons a as =>
      have ha : q a = keep i := h i List.mem_cons_self a (by rw [hrow]; exact List.mem_cons_self)
      rw [List.head?_cons]
      dsimp only
      rw [List.filter_cons, ha]
      cases keep i with
      | false => exact ih
      | true => rw [if_pos rfl, if_pos rfl, List.map_cons, hrow, List.filterMap_cons, List.head?_cons, ih]

theorem filter_columns : ∀ (n : Nat) (l : List ι) (row : ι → List α), (∀ i ∈ l, ∀ a ∈ row i, q a = keep i) →
    (columns n (l.map row)).filter q = columns n ((l.filter keep).map row)
  | 0, _, _, _ => rfl
  | n + 1, l, row, h => by
    have htails := filter_columns n l (fun i => (row i).tail) fun i hi a ha => h i hi a (List.mem_of_mem_tail ha)
    rw [columns, columns, List.filter_append, filter_heads l row h, List.map_map, List.map_map]
    exact congrArg (_ ++ ·) htails

/-- **Of parts in turn, those of some of the rules are their parts in turn.** -/
theorem filter_inTurn : ∀ (gs : List Group) (l : List ι) (parts : ι → List (List α)),
    (∀ i ∈ l, ∀ a ∈ (parts i).flatten, q a = keep i) →
    (inTurn gs (l.map parts)).filter q = inTurn gs ((l.filter keep).map parts)
  | [], _, _, _ => rfl
  | g :: gs, l, parts, h => by
    have hheads := filter_columns g.calls.length l (fun i => (parts i).headD []) fun i hi a ha =>
      h i hi a (mem_flatten_of_mem_headD ha)
    have htails := filter_inTurn gs l (fun i => (parts i).tail) fun i hi a ha => h i hi a (mem_flatten_of_mem_tail ha)
    rw [inTurn, inTurn, List.filter_append, List.map_map, List.map_map, List.map_map, List.map_map]
    exact congrArg₂ (· ++ ·) hheads htails

end Filter

/-! ## Rows that have ended early -/

section Early

variable {α : Type}

theorem columns_sublist : ∀ (n : Nat) {rows rows' : List (List α)}, List.Forall₂ (· <+: ·) rows rows' →
    (columns n rows).Sublist (columns n rows')
  | 0, _, _, _ => List.Sublist.refl []
  | n + 1, rows, rows', h => by
    have hheads : (rows.filterMap List.head?).Sublist (rows'.filterMap List.head?) := by
      induction h with
      | nil => exact List.Sublist.refl []
      | @cons row row' rows rows' hrow _ ih =>
        obtain ⟨rest, rfl⟩ := hrow
        cases row with
        | cons a row => exact ih.cons_cons a
        | nil =>
          cases rest with
          | nil => exact ih
          | cons a rest => exact ih.cons a
    have htails : List.Forall₂ (· <+: ·) (rows.map List.tail) (rows'.map List.tail) := by
      rw [List.forall₂_map_left_iff, List.forall₂_map_right_iff]
      refine h.imp fun row row' hrow => ?_
      obtain ⟨rest, rfl⟩ := hrow
      cases row with
      | nil => exact List.nil_prefix
      | cons a row => exact List.prefix_append row rest
    exact hheads.append (columns_sublist n htails)

theorem inTurn_sublist : ∀ (gs : List Group) {parts parts' : List (List (List α))},
    List.Forall₂ (List.Forall₂ (· <+: ·)) parts parts' → (inTurn gs parts).Sublist (inTurn gs parts')
  | [], _, _, _ => List.Sublist.refl []
  | g :: gs, parts, parts', h => by
    have hheads : List.Forall₂ (· <+: ·) (parts.map (·.headD [])) (parts'.map (·.headD [])) := by
      rw [List.forall₂_map_left_iff, List.forall₂_map_right_iff]
      refine h.imp fun ps ps' hps => ?_
      cases hps with
      | nil => exact List.prefix_rfl
      | cons hrow _ => exact hrow
    have htails : List.Forall₂ (List.Forall₂ (· <+: ·)) (parts.map List.tail) (parts'.map List.tail) := by
      rw [List.forall₂_map_left_iff, List.forall₂_map_right_iff]
      refine h.imp fun ps ps' hps => ?_
      cases hps with
      | nil => exact .nil
      | cons _ hrest => exact hrest
    exact (columns_sublist g.calls.length hheads).append (inTurn_sublist gs htails)

end Early

/-- Only the calls of groups decide how parts take turns. -/
theorem inTurn_congr {α : Type} {gs gs' : List Group} (h : List.Forall₂ (fun g g' => g.calls = g'.calls) gs gs')
    (parts : List (List (List α))) : inTurn gs parts = inTurn gs' parts := by
  induction h generalizing parts with
  | nil => rfl
  | cons hcalls _ ih => rw [inTurn, inTurn, hcalls, ih]

/-! ## Rows with an entry for every call -/

section Full

variable {α : Type} {ρ : Type*}

theorem columns_full (rs : List ρ) (f : ρ → Call → α) : ∀ (calls : List Call),
    columns calls.length (rs.map fun r => calls.map (f r)) = calls.flatMap fun call => rs.map fun r => f r call
  | [] => rfl
  | call :: calls => by
    rw [List.length_cons, columns, List.filterMap_map, List.map_map, List.flatMap_cons, ← columns_full rs f calls]
    exact congrArg (· ++ _) (congrFun (List.filterMap_eq_map (f := fun r => f r call)) rs)

theorem inTurn_full (rs : List ρ) (f : ρ → Group → Call → α) : ∀ (gs : List Group),
    inTurn gs (rs.map fun r => gs.map fun g => g.calls.map (f r g)) =
      gs.flatMap fun g => g.calls.flatMap fun call => rs.map fun r => f r g call
  | [] => rfl
  | g :: gs => by
    rw [inTurn, List.map_map, List.map_map, List.flatMap_cons, ← inTurn_full rs f gs, ← columns_full]
    rfl

end Full

/-! ## One row -/

section Singleton

variable {α : Type}

theorem columns_singleton : ∀ {n : Nat} {row : List α}, row.length ≤ n → columns n [row] = row
  | 0, row, h => (List.length_eq_zero_iff.1 (Nat.le_zero.1 h)).symm
  | n + 1, row, h => by
    have htail : columns n [row.tail] = row.tail := columns_singleton (by rw [List.length_tail]; omega)
    rw [columns, List.map_singleton, htail]
    cases row <;> rfl

theorem inTurn_singleton {place : α → Nat} {k : Nat} {gs : List Group} {ps : List (List α)} (h : Fits place k gs ps) :
    inTurn gs [ps] = ps.flatten := by
  induction h with
  | nil => rfl
  | @cons g row gs ps hrow _ ih =>
    rw [inTurn, List.map_singleton, List.map_singleton, List.headD_cons, List.tail_cons, columns_singleton hrow.1, ih,
      List.flatten_cons]

end Singleton

/-! ## Places -/

theorem exists_of_getElem? {α : Type*} {l : List α} {i : Nat} {a : α} (h : l[i]? = some a) :
    ∃ front back, l = front ++ a :: back ∧ front.length = i := by
  obtain ⟨hi, rfl⟩ := List.getElem?_eq_some_iff.1 h
  refine ⟨l.take i, l.drop (i + 1), ?_, by rw [List.length_take, Nat.min_eq_left (Nat.le_of_lt hi)]⟩
  rw [List.getElem_cons_drop, List.take_append_drop]

theorem filter_zipIdx {α : Type*} (front : List α) (a : α) (back : List α) :
    (front ++ a :: back).zipIdx.filter (·.2 == front.length) = [(a, front.length)] ∧
    ((front ++ a :: back).zipIdx.filter (·.2 != front.length)).map Prod.fst = front ++ back := by
  have hfront : ∀ p ∈ front.zipIdx, (p.2 == front.length) = false := fun p hp => by
    have := (List.mem_zipIdx hp).2.1
    rw [beq_eq_false_iff_ne]
    omega
  have hback : ∀ p ∈ back.zipIdx (front.length + 1), (p.2 == front.length) = false := fun p hp => by
    have := (List.mem_zipIdx hp).1
    rw [beq_eq_false_iff_ne]
    omega
  rw [List.zipIdx_append, List.zipIdx_cons, Nat.zero_add, List.filter_append, List.filter_append, List.filter_cons,
    List.filter_cons]
  constructor
  · rw [List.filter_eq_nil_iff.2 fun p hp => by simp [hfront p hp], if_pos (by simp),
      List.filter_eq_nil_iff.2 fun p hp => by simp [hback p hp], List.nil_append]
  · rw [List.filter_eq_self.2 fun p hp => by simp only [bne, hfront p hp, Bool.not_false], if_neg (by simp),
      List.filter_eq_self.2 fun p hp => by simp only [bne, hback p hp, Bool.not_false], List.map_append,
      List.zipIdx_map_fst, List.zipIdx_map_fst]

end WorldAudit
