import Mathlib.Data.List.ProdSigma
import WorldAudit.Proofs.Audit.Memory
import WorldAudit.Proofs.Audit.Memoryless
import WorldAudit.Proofs.Rules.Conduct
/-!
# Pairs — duplicates pair by pair

The references of a cell are looked at one after another, each together with those behind it.  What comes of that is one
finding for every pair of duplicates, pair after pair in the order of their places (`pairs_reported`).  References that
are deleted take places, but to put them in or to take them out changes no finding.
-/
namespace WorldAudit

/-- The references of a list that are not deleted. -/
def live (references : List Reference) : List Reference := references.filter (!·.isDeleted)

namespace Rules

open Ledger (records)
open Number (Single)

/-! ## The pairs of a cell -/

def cell? : Record → Option Cell
  | .cell cell => some cell
  | _ => none

/-- The cells of files, in their order. -/
def cells (files : List RecordFile) : List Cell := (records files).filterMap cell?

/-- A reference at its place in a list. -/
abbrev Placed := Reference × Nat

def isPair (threshold : Single) (p : Placed × Placed) : Bool :=
  p.1.2 < p.2.2 && !p.1.1.isDeleted && !p.2.1.isDeleted && isDuplicate threshold p.1.1 p.2.1

/-- **The pairs of duplicates among references**: of all pairs of references at their places, in the order of the first
place and then the second, those in which the second stands behind the first, none is deleted, and the two are
duplicates. -/
def duplicatePairs (threshold : Single) (references : List Reference) : List (Placed × Placed) :=
  (references.zipIdx ×ˢ references.zipIdx).filter (isPair threshold)

def pairFinding (cell : Cell) (a b : Reference) : Finding :=
  ⟨"Cell", cell.displayName, s!"contains duplicate reference {a.id} at position {a.position.text} {b.position.text}"⟩

/-- What is said of a cell. -/
def cellFindings (threshold : Single) (cell : Cell) : List Finding :=
  (duplicatePairs threshold cell.references).map fun p => pairFinding cell p.1.1 p.2.1

theorem isPair_iff {threshold : Single} {a b : Reference} {i j : Nat} : isPair threshold ((a, i), (b, j)) = true ↔
    i < j ∧ a.isDeleted = false ∧ b.isDeleted = false ∧ isDuplicate threshold a b = true := by
  simp [isPair, and_assoc]

theorem mem_duplicatePairs {threshold : Single} {references : List Reference} {a b : Reference} {i j : Nat} :
    ((a, i), (b, j)) ∈ duplicatePairs threshold references ↔
      i < j ∧ references[i]? = some a ∧ references[j]? = some b ∧ a.isDeleted = false ∧ b.isDeleted = false ∧
        isDuplicate threshold a b = true := by
  rw [duplicatePairs, List.mem_filter, List.mem_product, List.mem_zipIdx_iff_getElem?, List.mem_zipIdx_iff_getElem?,
    isPair_iff]
  grind

/-! ## Row by row -/

section Rows

variable (threshold : Single)

/-- The duplicates of every reference among those behind it. -/
def duplicateRows : List Reference → List (Reference × Reference)
  | [] => []
  | a :: rest => (duplicatesOf threshold a rest).map (a, ·) ++ duplicateRows rest

theorem duplicatesOf_live (a : Reference) (rest : List Reference) :
    duplicatesOf threshold a (live rest) = duplicatesOf threshold a rest := by
  unfold duplicatesOf live
  rw [List.filter_filter]
  split
  · rfl
  · refine List.filter_congr fun b _ => ?_
    cases b.isDeleted <;> simp

/-- **References that are deleted are in no row and have none.** -/
theorem duplicateRows_live : ∀ references : List Reference,
    duplicateRows threshold (live references) = duplicateRows threshold references
  | [] => rfl
  | a :: rest => by
    have hrest := duplicateRows_live rest
    by_cases ha : a.isDeleted = true
    · have hlive : live (a :: rest) = live rest := by simp [live, ha]
      rw [hlive, hrest, duplicateRows, duplicatesOf, if_pos ha]
      rfl
    · have hlive : live (a :: rest) = a :: live rest := by simp [live, ha]
      rw [hlive, duplicateRows, duplicateRows, duplicatesOf_live, hrest]

/-- What a reference is paired with behind it, whatever the places. -/
theorem filter_isPair (a : Reference) (k : Nat) (rest : List Reference) :
    ((rest.zipIdx (k + 1)).filter fun b => isPair threshold ((a, k), b)).map Prod.fst =
      duplicatesOf threshold a rest := by
  have hpair : ∀ b ∈ rest.zipIdx (k + 1), isPair threshold ((a, k), b) =
      (!a.isDeleted && (!b.1.isDeleted && isDuplicate threshold a b.1)) := fun b hb => by
    have hlt : k < b.2 := (List.mem_zipIdx (x := b.1) (i := b.2) hb).1
    simp [isPair, hlt, Bool.and_assoc]
  rw [List.filter_congr hpair, duplicatesOf]
  by_cases ha : a.isDeleted = true
  · simp [ha]
  · conv => rhs; rw [if_neg ha, ← List.zipIdx_map_fst (k + 1) rest, List.filter_map]
    simp [ha, Function.comp_def]

/-- What nothing is paired with can be left out behind. -/
theorem filter_product_cons {α β : Type} {p : α × β → Bool} {b : β} (bs : List β) : ∀ {as : List α},
    (∀ a ∈ as, ¬ p (a, b) = true) → (as ×ˢ (b :: bs)).filter p = (as ×ˢ bs).filter p
  | [], _ => rfl
  | a :: as, h => by
    rw [List.product_cons, List.product_cons, List.filter_append, List.filter_append, List.map_cons,
      List.filter_cons_of_neg (h a List.mem_cons_self),
      filter_product_cons bs fun a' ha' => h a' (List.mem_cons_of_mem a ha')]

/-- The pairs among references are those of the first one, and then those among the rest. -/
theorem pairs_cons (a : Reference) (k : Nat) (rest : List Reference) :
    (((a, k) :: rest.zipIdx (k + 1)) ×ˢ ((a, k) :: rest.zipIdx (k + 1))).filter (isPair threshold) =
      ((rest.zipIdx (k + 1)).filter fun b => isPair threshold ((a, k), b)).map ((a, k), ·) ++
        ((rest.zipIdx (k + 1)) ×ˢ (rest.zipIdx (k + 1))).filter (isPair threshold) := by
  have hself : ¬ isPair threshold ((a, k), (a, k)) = true := by simp [isPair]
  have hback : ∀ b ∈ rest.zipIdx (k + 1), ¬ isPair threshold (b, (a, k)) = true := fun b hb => by
    have hlt : ¬ b.2 < k := by
      have := (List.mem_zipIdx (x := b.1) (i := b.2) hb).1
      omega
    simp [isPair, hlt]
  rw [List.product_cons, List.filter_append, filter_product_cons _ hback, List.map_cons,
    List.filter_cons_of_neg hself, List.filter_map]
  rfl

theorem map_pairs : ∀ (references : List Reference) (k : Nat),
    (((references.zipIdx k) ×ˢ (references.zipIdx k)).filter (isPair threshold)).map (fun p => (p.1.1, p.2.1)) =
      duplicateRows threshold references
  | [], _ => rfl
  | a :: rest, k => by
    rw [List.zipIdx_cons, pairs_cons, List.map_append, map_pairs rest (k + 1), duplicateRows, ← filter_isPair _ a k,
      List.map_map, List.map_map]
    rfl

/-- **What is said of a cell does not depend on places**, nor on references that are deleted. -/
theorem cellFindings_eq (cell : Cell) : cellFindings threshold cell =
    (duplicateRows threshold (live cell.references)).map fun p => pairFinding cell p.1 p.2 := by
  rw [duplicateRows_live, ← map_pairs threshold cell.references 0, List.map_map]
  rfl

/-- The references of a list with those behind them, as they are told of. -/
theorem flatMap_told (cell : Cell) : ∀ (rest : List Reference) (k : Nat), cell.references.drop k = rest →
    ((rest.zipIdx k).flatMap fun (a, i) =>
      (duplicatesOf threshold a (cell.references.drop (i + 1))).map (pairFinding cell a)) =
    (duplicateRows threshold rest).map fun p => pairFinding cell p.1 p.2
  | [], _, _ => rfl
  | a :: rest, k, h => by
    have hrest : cell.references.drop (k + 1) = rest := by rw [← List.drop_drop, h]; rfl
    rw [List.zipIdx_cons, List.flatMap_cons, flatMap_told cell rest (k + 1) hrest, duplicateRows, List.map_append,
      List.map_map]
    dsimp only
    rw [hrest]
    rfl

end Rows

/-! ## Runs -/

/-- What is said of a call. -/
def pairSayings (threshold : Single) : Call → List Finding
  | .reference cell a _ i => (duplicatesOf threshold a (cell.references.drop (i + 1))).map (pairFinding cell a)
  | _ => []

theorem fault_duplicates (threshold : Single) :
    ∀ ctx call s, ((duplicates threshold).step ctx call s).fault = none :=
  fault_step_of_name (.duplicates threshold) (show _ = "duplicates" from rfl) (by decide)

theorem judges_duplicates (threshold : Single) (g : Group) : (duplicates threshold).Judges (pairSayings threshold) g := by
  refine Rule.judges_of_no_fault (fault_duplicates threshold) fun call _ => ?_
  cases call <;> rfl

/-- Of a record is said what there is to say of it as a cell. -/
theorem flatMap_callsOf (threshold : Single) (topic : Option Dialogue) (record : Record) :
    (Protocol.callsOf topic record).flatMap (pairSayings threshold) =
      (cell? record).toList.flatMap (cellFindings threshold) := by
  by_cases hcell : ∃ cell, record = .cell cell
  · obtain ⟨cell, rfl⟩ := hcell
    have htold := flatMap_told threshold cell cell.references 0 rfl
    rw [← duplicateRows_live, ← cellFindings_eq] at htold
    rw [Protocol.callsOf, Protocol.innerCalls, List.flatMap_cons, List.flatMap_map]
    exact htold.trans (List.flatMap_singleton _ _).symm
  · have hnone : cell? record = none := by cases record <;> first | rfl | exact absurd ⟨_, rfl⟩ hcell
    rw [hnone, List.flatMap_eq_nil_iff.2 fun call hcall => ?_]
    · rfl
    · cases call with
      | reference cell a id i => cases record <;> simp [Protocol.callsOf, Protocol.innerCalls] at hcall hcell
      | _ => rfl

section Runs

variable {settings : Settings} {rules : List Rule} {files : List RecordFile} {i : Nat} {threshold : Single}
  (hr : rules[i]? = some (duplicates threshold)) (hrun : (Run.of settings rules files).violation = none)

include hr hrun

/-- **What a run reports of duplicates**: of each cell what there is to say, one after another. -/
theorem report_duplicates : ((Run.of settings rules files).log.filter (·.seat == i)).flatMap Delivery.report =
    (cells files).flatMap (cellFindings threshold) := by
  rw [Run.report_of_judges (fun g _ => judges_duplicates threshold g) hr (Run.kept_of_violation hrun),
    Protocol.flatMap_calls rfl (flatMap_callsOf threshold) files, ← List.flatMap_assoc,
    ← List.filterMap_eq_flatMap_toList]
  rfl

end Runs

end Rules
end WorldAudit
