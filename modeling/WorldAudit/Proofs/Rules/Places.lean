import WorldAudit.File.Load
import WorldAudit.Proofs.Number.Order
import WorldAudit.Proofs.Rules.Pairs
import WorldAudit.Proofs.Text.Fold
/-!
# Places — duplicates in equal places

Equal places are no distance apart if they are finite, and their distance is NaN if they are not (`samePlace_of_same`).
So a threshold that is not zero loses the equal references in places that are not finite, and loses nothing else
(`wider_keeps_iff`).  In finite places only ids matter: they are compared but for the case of A to Z, while a rule is
told them in lower case (`told_ids_decide_iff`).
-/
namespace WorldAudit

open Number.Binary (le eq isZero add sub mul)

def Triple.IsFinite (t : Triple) : Prop := t.x.IsFinite ∧ t.y.IsFinite ∧ t.z.IsFinite

namespace Rules

open Number (Single)
open Number.Binary (le_trans isZero_of_le sub_of_eq sub_of_eq_infinite mul_self_zero add_zero_zero add_nan_left
  add_nan_right le_nan)

/-! ## Distances -/

section Distance

variable {x y : Single} {a b : Triple} {threshold wider : Single}

theorem sameTriple_iff : sameTriple a b = true ↔ eq a.x b.x = true ∧ eq a.y b.y = true ∧ eq a.z b.z = true := by
  simp [sameTriple, and_assoc]

theorem square_of_eq (h : eq x y = true) (hx : x.IsFinite) : square (sub x y) = .zero := by
  obtain ⟨s, hs⟩ := sub_of_eq h hx
  rw [square, hs, mul_self_zero]

theorem square_of_eq_infinite (h : eq x y = true) (hx : ¬ x.IsFinite) : square (sub x y) = .nan := by
  rw [square, sub_of_eq_infinite h hx]
  rfl

/-- **Equal places that are finite are no distance apart.** -/
theorem squaredDistance_of_finite (h : sameTriple a b = true) (ha : a.IsFinite) : squaredDistance a b = .zero := by
  obtain ⟨hx, hy, hz⟩ := sameTriple_iff.1 h
  obtain ⟨hax, hay, haz⟩ := ha
  rw [squaredDistance, square_of_eq hx hax, square_of_eq hy hay, square_of_eq hz haz, add_zero_zero, add_zero_zero]

/-- **Equal places that are not finite have no distance.** -/
theorem squaredDistance_of_infinite (h : sameTriple a b = true) (ha : ¬ a.IsFinite) : squaredDistance a b = .nan := by
  obtain ⟨hx, hy, hz⟩ := sameTriple_iff.1 h
  unfold squaredDistance
  by_cases hax : a.x.IsFinite
  · by_cases hay : a.y.IsFinite
    · have haz : ¬ a.z.IsFinite := fun haz => ha ⟨hax, hay, haz⟩
      rw [square_of_eq_infinite hz haz, add_nan_right]
    · rw [square_of_eq_infinite hy hay, add_nan_right, add_nan_left]
  · rw [square_of_eq_infinite hx hax, add_nan_left, add_nan_left]

theorem effective_of_le (h : le .zero threshold = true) : effective threshold = threshold := if_pos h

theorem le_zero_effective (threshold : Single) : le .zero (effective threshold) = true := by
  unfold effective
  split
  · assumption
  · rfl

/-- **Equal places count as one** unless there is a threshold and they are not finite. -/
theorem samePlace_of_same (h : sameTriple a b = true) :
    samePlace threshold a b = true ↔ isZero (effective threshold) = true ∨ a.IsFinite := by
  unfold samePlace
  by_cases hzero : isZero (effective threshold) = true
  · simp [hzero, h]
  · rw [if_neg hzero]
    by_cases ha : a.IsFinite
    · simp [squaredDistance_of_finite h ha, le_zero_effective, ha]
    · simp [squaredDistance_of_infinite h ha, hzero, ha, le]

/-- **What one threshold counts as one place**, a wider one does too, but for equal places that are not finite. -/
theorem samePlace_wider (hzero : le .zero threshold = true) (hle : le threshold wider = true)
    (h : samePlace threshold a b = true) :
    samePlace wider a b = true ↔ isZero threshold = false ∨ isZero wider = true ∨ a.IsFinite := by
  have hwider := effective_of_le (le_trans hzero hle)
  unfold samePlace at h
  rw [effective_of_le hzero] at h
  by_cases hthreshold : isZero threshold = true
  · rw [if_pos hthreshold] at h
    rw [samePlace_of_same h, hwider]
    simp [hthreshold]
  · have hnot : ¬ isZero wider = true := fun hw => hthreshold (isZero_of_le hzero hle hw)
    rw [if_neg hthreshold] at h
    rw [samePlace, hwider, if_neg hnot]
    simp [hthreshold, le_trans h hle]

end Distance

/-! ## Pairs -/

/-- **A pair placed alike**: of a list, two references at different places, neither of them deleted, which are equal but
perhaps for their ids. -/
structure PlacedAlike (references : List Reference) (p : Placed × Placed) : Prop where
  behind : p.1.2 < p.2.2
  first : references[p.1.2]? = some p.1.1
  second : references[p.2.2]? = some p.2.1
  kept : p.1.1.isDeleted = false ∧ p.2.1.isDeleted = false
  rotation : sameTriple p.1.1.rotation p.2.1.rotation = true
  scale : eq (p.1.1.scale.getD .one) (p.2.1.scale.getD .one) = true
  position : sameTriple p.1.1.position p.2.1.position = true

section Pair

variable {threshold wider : Single} {references : List Reference} {p : Placed × Placed}

theorem mem_duplicatePairs_of_placedAlike (h : PlacedAlike references p) : p ∈ duplicatePairs threshold references ↔
    Text.equalFold p.1.1.id p.2.1.id = true ∧ (isZero (effective threshold) = true ∨ p.1.1.position.IsFinite) := by
  obtain ⟨⟨a, i⟩, ⟨b, j⟩⟩ := p
  obtain ⟨hlt, ha, hb, ⟨hlive, hlive'⟩, hrotation, hscale, hposition⟩ := h
  rw [mem_duplicatePairs, isDuplicate, hrotation, hscale, ← samePlace_of_same hposition]
  simp [hlt, ha, hb, hlive, hlive']

theorem mem_duplicatePairs_wider (hzero : le .zero threshold = true) (hle : le threshold wider = true)
    (h : p ∈ duplicatePairs threshold references) : p ∈ duplicatePairs wider references ↔
      isZero threshold = false ∨ isZero wider = true ∨ p.1.1.position.IsFinite := by
  obtain ⟨⟨a, i⟩, ⟨b, j⟩⟩ := p
  obtain ⟨hlt, ha, hb, hlive, hlive', hduplicate⟩ := mem_duplicatePairs.1 h
  simp only [isDuplicate, Bool.and_eq_true] at hduplicate
  obtain ⟨⟨⟨hid, hrotation⟩, hscale⟩, hplace⟩ := hduplicate
  rw [mem_duplicatePairs, isDuplicate, hid, hrotation, hscale, ← samePlace_wider hzero hle hplace]
  simp [hlt, ha, hb, hlive, hlive']

end Pair

/-! ## Ids -/

/-- A reference is told of in its cell, at its place, with its id in lower case. -/
theorem reference_mem_callsOf {topic : Option Dialogue} {record : Record} {cell : Cell} {c : Reference} {id : String}
    {k : Nat} : Call.reference cell c id k ∈ Protocol.callsOf topic record ↔
      record = .cell cell ∧ cell.references[k]? = some c ∧ id = Text.lower c.id := by
  cases record with
  | cell cell' =>
    simp only [Protocol.callsOf, Protocol.innerCalls, List.mem_cons, reduceCtorEq, false_or, List.mem_map, Prod.exists,
      List.mem_zipIdx_iff_getElem?, Call.reference.injEq, Record.cell.injEq]
    grind
  | _ => simp [Protocol.callsOf, Protocol.innerCalls]

theorem reference_mem_calls {files : List RecordFile} {cell : Cell} {c : Reference} {id : String} {k : Nat}
    (hcell : cell ∈ cells files) (hc : cell.references[k]? = some c) :
    Call.reference cell c id k ∈ Protocol.calls files ↔ id = Text.lower c.id := by
  obtain ⟨record, hrecord, hsome⟩ := List.mem_filterMap.1 hcell
  have hrecord' : record = .cell cell := by cases record <;> cases hsome; rfl
  subst hrecord'
  obtain ⟨file, hfile, hin⟩ := List.mem_flatMap.1 hrecord
  obtain ⟨j, hj⟩ := List.mem_iff_getElem?.1 hin
  simp only [Protocol.calls, List.mem_append, List.mem_flatMap, List.mem_singleton, reduceCtorEq, or_false]
  constructor
  · rintro ⟨_, _, _, _, hcall⟩
    exact (reference_mem_callsOf.1 hcall).2.2
  · intro hid
    exact ⟨file, hfile, (.cell cell, j), List.mem_zipIdx_iff_getElem?.2 hj, reference_mem_callsOf.2 ⟨rfl, hc, hid⟩⟩

/-- **Whether the ids that a rule is told decide.**  References placed alike in a finite place are reported if their ids
are equal but for the case of A to Z, so only if the ids that the rule is told are equal; and these decide where ids that
are equal in lower case are equal but for the case of A to Z, as it is with ids that have no other letters. -/
theorem told_ids_decide_iff {settings : Settings} {rules : List Rule} {files : List RecordFile} {i : Nat}
    {threshold : Single} (hr : rules[i]? = some (duplicates threshold))
    (hrun : (Run.of settings rules files).violation = none) :
    ((Run.of settings rules files).log.filter (·.seat == i)).flatMap Delivery.report =
      (cells files).flatMap (cellFindings threshold) ∧
    ∀ cell ∈ cells files,
      (∀ c k, cell.references[k]? = some c → ∀ id, Call.reference cell c id k ∈
        ((Run.of settings rules files).log.filter (·.seat == i)).map Delivery.call ↔ id = Text.lower c.id) ∧
      ∀ p, PlacedAlike cell.references p → p.1.1.position.IsFinite →
        (p ∈ duplicatePairs threshold cell.references ↔ Text.equalFold p.1.1.id p.2.1.id = true) ∧
        (p ∈ duplicatePairs threshold cell.references → Text.lower p.1.1.id = Text.lower p.2.1.id) ∧
        ((p ∈ duplicatePairs threshold cell.references ↔ Text.lower p.1.1.id = Text.lower p.2.1.id) ↔
          (Text.lower p.1.1.id = Text.lower p.2.1.id → Text.equalFold p.1.1.id p.2.1.id = true)) ∧
        ((∀ c ∈ p.1.1.id.toList ++ p.2.1.id.toList, c.toNat < 128) →
          (p ∈ duplicatePairs threshold cell.references ↔ Text.lower p.1.1.id = Text.lower p.2.1.id)) := by
  have htold := Run.map_call_of_no_fault (fault_duplicates threshold) hr (Run.kept_of_violation hrun)
  refine ⟨report_duplicates hr hrun, fun cell hcell => ⟨fun c k hc id => ?_, fun p hp hfinite => ?_⟩⟩
  · rw [htold]
    exact reference_mem_calls hcell hc
  · have hreported : p ∈ duplicatePairs threshold cell.references ↔ Text.equalFold p.1.1.id p.2.1.id = true := by
      rw [mem_duplicatePairs_of_placedAlike hp]
      simp [hfinite]
    have hlower : Text.equalFold p.1.1.id p.2.1.id = true → Text.lower p.1.1.id = Text.lower p.2.1.id :=
      Text.lower_eq_of_equalFold
    rw [hreported]
    refine ⟨Iff.rfl, hlower, ⟨fun h => h.2, fun h => ⟨hlower, h⟩⟩, fun hsmall => ?_⟩
    exact Text.equalFold_iff_of_small (fun c hc => hsmall c (List.mem_append_left _ hc))
      fun c hc => hsmall c (List.mem_append_right _ hc)

/-- Chests whose ids differ in the case of A to Z only, behind a letter outside of it. -/
theorem chests_told_in_lower_case :
    let cell : Cell := ⟨"den", none, { flags := 1 }, [{ id := "Ökist" }, { id := "jar" }, { id := "ÖKIST" }]⟩
    let files := [⟨"a.json", [.cell cell]⟩]
    let run := Run.of {} (standard {}) files
    let p : Placed × Placed := (({ id := "Ökist" }, 0), ({ id := "ÖKIST" }, 2))
    (standard {})[3]? = some (duplicates .zero) ∧ run.violation = none ∧ cell ∈ cells files ∧
    PlacedAlike cell.references p ∧ p.1.1.position.IsFinite ∧
    Call.reference cell p.2.1 "ökist" 2 ∈ (run.log.filter (·.seat == 3)).map Delivery.call ∧
    (p ∈ duplicatePairs .zero cell.references ↔ Text.lower p.1.1.id = Text.lower p.2.1.id) ∧
    (run.log.filter (·.seat == 3)).flatMap Delivery.report =
      [⟨"Cell", "den", "contains duplicate reference Ökist at position [0.0, 0.0, 0.0] [0.0, 0.0, 0.0]"⟩] := by
  intro cell files run p
  have hseat : (standard {})[3]? = some (duplicates .zero) := rfl
  have hrun : run.violation = none := violation_standard {} {} files
  have hcell : cell ∈ cells files := List.mem_singleton.2 rfl
  have hp : PlacedAlike cell.references p :=
    ⟨by decide, rfl, rfl, ⟨rfl, rfl⟩, by decide +kernel, by decide +kernel, by decide +kernel⟩
  have hfinite : p.1.1.position.IsFinite := ⟨trivial, trivial, trivial⟩
  obtain ⟨hreport, hcells⟩ := told_ids_decide_iff hseat hrun
  obtain ⟨htold, hids⟩ := hcells cell hcell
  obtain ⟨-, -, hdecide, -⟩ := hids p hp hfinite
  refine ⟨hseat, hrun, hcell, hp, hfinite, (htold p.2.1 2 rfl "ökist").2 (by decide +kernel), ?_, hreport.trans ?_⟩
  · exact hdecide.2 fun _ => by decide +kernel
  · decide +kernel

/-- **References whose ids the rule is told as equal are not reported.** -/
theorem told_ids_equal_unreported :
    let cell : Cell := ⟨"den", none, { flags := 1 }, [{ id := "Ä" }, { id := "ä" }]⟩
    let files := [⟨"a.json", [.cell cell]⟩]
    let run := Run.of {} [duplicates .zero] files
    let p : Placed × Placed := (({ id := "Ä" }, 0), ({ id := "ä" }, 1))
    run.violation = none ∧ PlacedAlike cell.references p ∧ p.1.1.position.IsFinite ∧
    Call.reference cell p.1.1 "ä" 0 ∈ (run.log.filter (·.seat == 0)).map Delivery.call ∧
    Call.reference cell p.2.1 "ä" 1 ∈ (run.log.filter (·.seat == 0)).map Delivery.call ∧
    (run.log.filter (·.seat == 0)).flatMap Delivery.report = [] := by
  intro cell files run p
  have hseat : [duplicates .zero][0]? = some (duplicates .zero) := rfl
  have hrun : run.violation = none := violation_alone (.duplicates .zero) {} files
  have hcell : cell ∈ cells files := List.mem_singleton.2 rfl
  have htold := Run.map_call_of_no_fault (fault_duplicates .zero) hseat (Run.kept_of_violation hrun)
  rw [htold, report_duplicates hseat hrun]
  refine ⟨hrun, ?_, ⟨trivial, trivial, trivial⟩, ?_, ?_, by decide +kernel⟩
  · exact ⟨by decide, rfl, rfl, ⟨rfl, rfl⟩, by decide +kernel, by decide +kernel, by decide +kernel⟩
  · exact (reference_mem_calls hcell rfl).2 (by decide +kernel)
  · exact (reference_mem_calls hcell rfl).2 (by decide +kernel)

/-! ## Thresholds -/

/-- **What a wider threshold keeps.**  Of the pairs that are reported at one threshold, those are reported at a wider
one whose places are finite; the others too, unless only the first of the thresholds is zero.  So references that are
equal and not deleted are reported at every threshold if it is zero or their place is finite, and not otherwise. -/
theorem wider_keeps_iff {settings settings' : Settings} {rules rules' : List Rule} {files : List RecordFile}
    {i i' : Nat} {threshold wider : Single} (hr : rules[i]? = some (duplicates threshold))
    (hr' : rules'[i']? = some (duplicates wider)) (hrun : (Run.of settings rules files).violation = none)
    (hrun' : (Run.of settings' rules' files).violation = none) (hzero : le .zero threshold = true)
    (hle : le threshold wider = true) :
    ((Run.of settings rules files).log.filter (·.seat == i)).flatMap Delivery.report =
      (cells files).flatMap (cellFindings threshold) ∧
    ((Run.of settings' rules' files).log.filter (·.seat == i')).flatMap Delivery.report =
      (cells files).flatMap (cellFindings wider) ∧
    ∀ cell ∈ cells files,
      (∀ p ∈ duplicatePairs threshold cell.references, p ∈ duplicatePairs wider cell.references ↔
        isZero threshold = false ∨ isZero wider = true ∨ p.1.1.position.IsFinite) ∧
      ∀ p, PlacedAlike cell.references p → Text.equalFold p.1.1.id p.2.1.id = true →
        (p ∈ duplicatePairs wider cell.references ↔ isZero wider = true ∨ p.1.1.position.IsFinite) := by
  refine ⟨report_duplicates hr hrun, report_duplicates hr' hrun', fun cell _ => ⟨fun p hp => ?_, fun p hp hid => ?_⟩⟩
  · exact mem_duplicatePairs_wider hzero hle hp
  · rw [mem_duplicatePairs_of_placedAlike hp, effective_of_le (le_trans hzero hle)]
    simp [hid]

/-- Boxes in one place, and one a step away from it, at two thresholds. -/
theorem boxes_one_step_apart :
    let box : Reference := { id := "box" }
    let moved : Reference := { id := "Box", position := ⟨.zero, .one, .zero⟩ }
    let cell : Cell := ⟨"den", none, { flags := 1 }, [box, moved, box]⟩
    let files := [⟨"a.json", [.cell cell]⟩]
    let run := Run.of {} [duplicates .one] files
    let run' := Run.of {} [duplicates (.ofNat .single 2)] files
    let p : Placed × Placed := ((box, 0), (moved, 1))
    let q : Placed × Placed := ((box, 0), (box, 2))
    run.violation = none ∧ run'.violation = none ∧ le (.zero : Single) .one = true ∧
    le (.one : Single) (.ofNat .single 2) = true ∧ cell ∈ cells files ∧
    p ∈ duplicatePairs .one cell.references ∧ p ∈ duplicatePairs (.ofNat .single 2) cell.references ∧
    PlacedAlike cell.references q ∧ q ∈ duplicatePairs (.ofNat .single 2) cell.references ∧
    ((run.log.filter (·.seat == 0)).flatMap Delivery.report).length = 3 := by
  intro box moved cell files run run' p q
  have hone : le (.zero : Single) .one = true := by decide +kernel
  have htwo : le (.one : Single) (.ofNat .single 2) = true := by decide +kernel
  have hrun : ∀ threshold, (Run.of {} [duplicates threshold] files).violation = none := fun threshold =>
    violation_alone (.duplicates threshold) {} files
  have hseat : ∀ threshold, [duplicates threshold][0]? = some (duplicates threshold) := fun _ => rfl
  have hcell : cell ∈ cells files := List.mem_singleton.2 rfl
  have hp : p ∈ duplicatePairs .one cell.references :=
    mem_duplicatePairs.2 ⟨by decide, rfl, rfl, rfl, rfl, by decide +kernel⟩
  have hq : PlacedAlike cell.references q :=
    ⟨by decide, rfl, rfl, ⟨rfl, rfl⟩, by decide +kernel, by decide +kernel, by decide +kernel⟩
  obtain ⟨hreport, -, hcells⟩ :=
    wider_keeps_iff (hseat .one) (hseat (.ofNat .single 2)) (hrun .one) (hrun (.ofNat .single 2)) hone htwo
  obtain ⟨hkeeps, hequal⟩ := hcells cell hcell
  refine ⟨hrun .one, hrun _, hone, htwo, hcell, hp, (hkeeps p hp).2 (.inl ?_), hq, (hequal q hq ?_).2 (.inr ?_), ?_⟩
  · decide +kernel
  · decide +kernel
  · exact ⟨trivial, trivial, trivial⟩
  · rw [hreport]
    decide +kernel

/-- **Boxes in one place that is read as infinite**, reported at the threshold zero and lost at the threshold one. -/
theorem infinite_place_lost :
    let box : Reference := { id := "box", position := ⟨.infinite false, .zero, .zero⟩ }
    let file : RecordFile := ⟨"a.json", [.cell ⟨"den", none, { flags := 1 }, [box, box]⟩]⟩
    let run := Run.of {} [duplicates .zero] [file]
    let run' := Run.of {} [duplicates .one] [file]
    RecordFile.parse "a.json" ("[\x7b\"type\":\"Cell\",\"id\":\"den\",\"data\":\x7b\"flags\":1\x7d,\"references\":[" ++
      "\x7b\"id\":\"box\",\"translation\":[1e39,0,0]\x7d,\x7b\"id\":\"box\",\"translation\":[1e39,0,0]\x7d]\x7d]") =
        .ok file ∧
    run.violation = none ∧ run'.violation = none ∧ le (.zero : Single) .one = true ∧
    (run.log.filter (·.seat == 0)).flatMap Delivery.report =
      [⟨"Cell", "den", "contains duplicate reference box at position [inf, 0.0, 0.0] [inf, 0.0, 0.0]"⟩] ∧
    (run'.log.filter (·.seat == 0)).flatMap Delivery.report = [] := by
  intro box file run run'
  have hrun : ∀ threshold, (Run.of {} [duplicates threshold] [file]).violation = none := fun threshold =>
    violation_alone (.duplicates threshold) {} [file]
  have hseat : ∀ threshold, [duplicates threshold][0]? = some (duplicates threshold) := fun _ => rfl
  -- the number is beyond what reduction by the elaborator takes on, so the file that is read is compared as a value
  have hparse : (RecordFile.parse "a.json" (
      "[\x7b\"type\":\"Cell\",\"id\":\"den\",\"data\":\x7b\"flags\":1\x7d,\"references\":[" ++
      "\x7b\"id\":\"box\",\"translation\":[1e39,0,0]\x7d,\x7b\"id\":\"box\",\"translation\":[1e39,0,0]\x7d]\x7d]"
      )).toOption = some file := by decide +kernel
  refine ⟨?_, hrun .zero, hrun .one, by decide +kernel, ?_, ?_⟩
  · generalize RecordFile.parse "a.json" _ = parsed at hparse ⊢
    cases parsed with
    | error => cases hparse
    | ok read => exact congrArg Except.ok (Option.some.inj hparse)
  · rw [report_duplicates (hseat .zero) (hrun .zero)]
    decide +kernel
  · rw [report_duplicates (hseat .one) (hrun .one)]
    decide +kernel

end Rules
end WorldAudit
