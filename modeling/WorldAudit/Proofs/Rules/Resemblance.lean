import Mathlib.Algebra.Order.Round
import Mathlib.Data.Rat.Floor
import Mathlib.Tactic.Ring
import WorldAudit.Proofs.Audit.Memory
import WorldAudit.Proofs.Number.Rounding
import WorldAudit.Proofs.Rules.Conduct
import WorldAudit.Proofs.Text.EditDistance
/-!
# Resemblance — names like earlier ones

A name resembles another one that is not the same in lower case but few edits away, one for every seven of its
characters to the nearest number.  The rule remembers the people whose names are long enough for that, and reports of
every one of them the earliest whose name theirs resembles (`resemblances_reported`).
-/
namespace WorldAudit
namespace Rules

open Ledger (records)
open Number (twoTo)

/-! ## People and their names -/

def person? : Record → Option Actor
  | .actor .npc npc => some npc
  | _ => none

/-- The people of files, in their order. -/
def people (files : List RecordFile) : List Actor := (records files).filterMap person?

def nameOf (npc : Actor) : String := npc.name.getD ""

def nameLength (npc : Actor) : Nat := (nameOf npc).toList.length

/-- How far apart two names are in lower case. -/
def distanceOf (npc other : Actor) : Nat :=
  Text.editDistance (Text.lower (nameOf npc)).toList (Text.lower (nameOf other)).toList

/-- **A name resembles another**: both have four characters or more, they are not the same in lower case, and they are no
farther apart than a seventh of its length, to the nearest integer. -/
def Resembles (npc other : Actor) : Prop :=
  4 ≤ nameLength npc ∧ 4 ≤ nameLength other ∧ Text.lower (nameOf other) ≠ Text.lower (nameOf npc) ∧
    (distanceOf npc other : ℤ) ≤ round ((nameLength npc : ℚ) / 7)

instance (npc other : Actor) : Decidable (Resembles npc other) := inferInstanceAs (Decidable (_ ∧ _ ∧ _ ∧ _))

def resemblanceFinding (npc other : Actor) : Finding :=
  ⟨"Npc", npc.id, s!"({nameOf npc}) has a name similar to {other.id} ({nameOf other}) {distanceOf npc other}"⟩

/-- The earliest of those before a person whose name theirs resembles. -/
def earliestLike? (before : List Actor) (npc : Actor) : Option Actor := before.find? fun other => Resembles npc other

theorem earliestLike?_cons (other : Actor) (before : List Actor) (npc : Actor) :
    earliestLike? (other :: before) npc = if Resembles npc other then some other else earliestLike? before npc := by
  unfold earliestLike?
  by_cases h : Resembles npc other <;> simp [h]

/-! ## The tolerance -/

theorem tolerance_eq {n : Nat} (h : n < twoTo 20) : tolerance n = (2 * n + 7) / 14 :=
  Number.Binary.nearestCount_seventh h

theorem tolerance_eq_zero_iff {n : Nat} (h : n < twoTo 20) : tolerance n = 0 ↔ n < 4 := by
  rw [tolerance_eq h]
  omega

/-- **The tolerance is a seventh of the length**, to the nearest integer. -/
theorem tolerance_eq_round {n : Nat} (h : n < twoTo 20) : (tolerance n : ℤ) = round ((n : ℚ) / 7) := by
  have hhalf : (n : ℚ) / 7 + 1 / 2 = ((2 * n + 7 : ℕ) : ℚ) / (14 : ℕ) := by
    push_cast
    ring
  rw [tolerance_eq h, round_eq, hhalf, Rat.floor_natCast_div_natCast]
  rfl

/-! ## What the rule remembers -/

def seenName (npc : Actor) : SeenName := ⟨Text.lower (nameOf npc), npc.id, nameOf npc⟩

/-- What is kept of people: the names that are long enough. -/
def seenNames (before : List Actor) : List SeenName := (before.filter fun npc => 4 ≤ nameLength npc).map seenName

theorem seenNames_concat (before : List Actor) (npc : Actor) :
    seenNames (before ++ [npc]) = seenNames before ++ if 4 ≤ nameLength npc then [seenName npc] else [] := by
  unfold seenNames
  by_cases hlong : 4 ≤ nameLength npc <;> simp [List.filter_append, hlong]

/-- **Of the names that are kept, the first that is similar** is that of the earliest person whose name is resembled. -/
theorem similarTo?_seenNames {npc : Actor} (hlong : 4 ≤ nameLength npc) (hshort : nameLength npc < twoTo 20) :
    ∀ before : List Actor,
    similarTo? (Text.lower (nameOf npc)) (tolerance (nameLength npc)) (seenNames before) =
      (earliestLike? before npc).map fun other => (seenName other, distanceOf npc other)
  | [] => rfl
  | other :: before => by
    have hrest := similarTo?_seenNames hlong hshort before
    have hresembles : Resembles npc other ↔ 4 ≤ nameLength other ∧ (seenName other).lower ≠ Text.lower (nameOf npc) ∧
        distanceOf npc other ≤ tolerance (nameLength npc) := by
      unfold Resembles
      rw [← tolerance_eq_round hshort, Nat.cast_le]
      simp [hlong, seenName]
    rw [earliestLike?_cons]
    by_cases hother : 4 ≤ nameLength other
    · have hseen : seenNames (other :: before) = seenName other :: seenNames before := by simp [seenNames, hother]
      rw [hseen, similarTo?, hrest]
      by_cases h : Resembles npc other
      · rw [if_pos h]
        exact if_pos (hresembles.1 h).2
      · rw [if_neg h]
        exact if_neg fun hsimilar => h (hresembles.2 ⟨hother, hsimilar⟩)
    · have hseen : seenNames (other :: before) = seenNames before := by simp [seenNames, hother]
      rw [hseen, hrest, if_neg fun h => hother (hresembles.1 h).1]

theorem earliestLike?_of_short {npc : Actor} (h : ¬ 4 ≤ nameLength npc) (before : List Actor) :
    earliestLike? before npc = none :=
  List.find?_eq_none.2 fun _ _ hlike => h (of_decide_eq_true hlike).1

/-- What the rule answers to a person. -/
theorem similarNamesStep_eq (ctx : Context) (id : String) (npc : Actor) (seen : List SeenName) :
    similarNamesStep ctx (.record (.actor .npc npc) id) seen =
      if tolerance (nameLength npc) = 0 then { state := seen }
      else
        { state := seen ++ [seenName npc]
          findings := ((similarTo? (Text.lower (nameOf npc)) (tolerance (nameLength npc)) seen).map fun (other, distance) =>
            ⟨"Npc", npc.id, s!"({nameOf npc}) has a name similar to {other.id} ({other.name}) {distance}"⟩).toList } := by
  unfold similarNamesStep nameLength nameOf
  cases h : similarTo? (Text.lower (npc.name.getD "")) (tolerance (npc.name.getD "").toList.length) seen with
  | none => simp only [h]; rfl
  | some p => simp only [h]; rfl

/-- **The rule reports the earliest resemblance**, and remembers everyone whose name is long enough. -/
theorem similarNamesStep_person (ctx : Context) (id : String) {npc : Actor} (hshort : nameLength npc < twoTo 20)
    (before : List Actor) : similarNamesStep ctx (.record (.actor .npc npc) id) (seenNames before) =
      { state := seenNames (before ++ [npc])
        findings := ((earliestLike? before npc).map (resemblanceFinding npc)).toList } := by
  have hzero := tolerance_eq_zero_iff hshort
  rw [similarNamesStep_eq, seenNames_concat]
  by_cases hlong : 4 ≤ nameLength npc
  · rw [if_neg fun h => absurd hlong (Nat.not_le.2 (hzero.1 h)), if_pos hlong, similarTo?_seenNames hlong hshort,
      Option.map_map]
    rfl
  · rw [if_pos (hzero.2 (Nat.not_le.1 hlong)), if_neg hlong, List.append_nil, earliestLike?_of_short hlong]
    rfl

theorem similarNamesStep_other (ctx : Context) (id : String) {record : Record} (h : person? record = none)
    (seen : List SeenName) : similarNamesStep ctx (.record record id) seen = { state := seen } := by
  cases record with
  | actor kind npc => cases kind <;> first | rfl | cases h
  | _ => rfl

/-! ## Runs -/

/-- What is said of a record. -/
def sayResemblance (ctx : Context) (record : Record) (seen : List SeenName) : List Finding :=
  (similarNamesStep ctx (.record record (Text.lower record.id)) seen).findings

/-- What is remembered once a record has been told of. -/
def learnName (ctx : Context) (record : Record) (seen : List SeenName) : List SeenName :=
  (similarNamesStep ctx (.record record (Text.lower record.id)) seen).state

theorem remembers_similarNames : similarNames.Remembers sayResemblance learnName := by
  refine Rule.remembers_of_records (fault_step_of_name .similarNames rfl (by decide)) fun ctx call s hrecord _ => ?_
  cases call with
  | record record id => exact absurd rfl (hrecord record id)
  | _ => rfl

/-- What is said of people one after another, those in `before` having gone before. -/
def resemblances (before rest : List Actor) : List Finding :=
  (rest.zipIdx before.length).filterMap fun (npc, n) =>
    (earliestLike? ((before ++ rest).take n) npc).map (resemblanceFinding npc)

theorem resemblances_cons (before : List Actor) (npc : Actor) (rest : List Actor) :
    resemblances before (npc :: rest) =
      ((earliestLike? before npc).map (resemblanceFinding npc)).toList ++ resemblances (before ++ [npc]) rest := by
  unfold resemblances
  rw [List.zipIdx_cons, List.filterMap_cons, List.append_cons, List.length_append, List.length_singleton]
  dsimp only
  rw [List.append_assoc, List.take_left]
  cases earliestLike? before npc <;> rfl

/-- **What is said of records** is what is said of the people among them, whoever has gone before. -/
theorem sayings_people : ∀ (ps : List (Context × Record)) (before : List Actor),
    (∀ npc ∈ (ps.map Prod.snd).filterMap person?, nameLength npc < twoTo 20) →
    Rule.sayings sayResemblance learnName ps (seenNames before) =
      resemblances before ((ps.map Prod.snd).filterMap person?)
  | [], _, _ => rfl
  | (ctx, record) :: ps, before, hshort => by
    rw [Rule.sayings, sayResemblance, learnName]
    cases hperson : person? record with
    | none =>
      rw [List.map_cons, List.filterMap_cons_none hperson] at hshort ⊢
      rw [similarNamesStep_other ctx _ hperson, ← sayings_people ps before hshort]
      rfl
    | some npc =>
      rw [List.map_cons, List.filterMap_cons_some hperson] at hshort ⊢
      obtain ⟨hnpc, hshort⟩ := List.forall_mem_cons.1 hshort
      have hrecord : record = .actor .npc npc := by
        cases record with
        | actor kind other => cases kind <;> cases hperson; rfl
        | _ => cases hperson
      subst hrecord
      rw [similarNamesStep_person ctx _ hnpc, sayings_people ps (before ++ [npc]) hshort, resemblances_cons]

/-- **Resemblances are reported**, person by person: of each the earliest one before them whose name theirs resembles,
with the least number of edits between the two names in lower case.  Whoever goes before counts, reported or not, and
records of other kinds do not. -/
theorem resemblances_reported {settings : Settings} {rules : List Rule} {files : List RecordFile} {i : Nat}
    (hr : rules[i]? = some similarNames) (hrun : (Run.of settings rules files).violation = none)
    (hshort : ∀ npc ∈ people files, nameLength npc < 2 ^ 20) :
    ((Run.of settings rules files).log.filter (·.seat == i)).flatMap Delivery.report =
      ((people files).zipIdx.filterMap fun (npc, n) =>
        (((people files).take n).find? fun other => Resembles npc other).map fun other =>
          ⟨"Npc", npc.id, s!"({nameOf npc}) has a name similar to {other.id} ({nameOf other}) {distanceOf npc other}"⟩) ∧
    ∀ npc other, IsLeast
      {k | Text.Edited k (Text.lower (nameOf npc)).toList (Text.lower (nameOf other)).toList} (distanceOf npc other) := by
  refine ⟨?_, fun npc other => Text.isLeast_editDistance _ _⟩
  obtain ⟨hduring, hend⟩ := Run.during_of_remembers hr hrun remembers_similarNames
  have hpeople : ((Protocol.told settings files).map Prod.snd).filterMap person? = people files := by
    rw [Protocol.map_snd_told]
    rfl
  have hsayings := sayings_people (Protocol.told settings files) [] (by rw [hpeople]; exact hshort)
  rw [hpeople] at hsayings
  rw [Run.report_eq_during_atEnd hr hrun, hduring, hend]
  exact (List.append_nil _).trans hsayings

/-- Names of five and three characters, the same name in other cases, and a letter that is two in lower case. -/
theorem six_people_with_like_names :
    let called := fun id name => Record.actor .npc { id := id, name := some name }
    let files := [⟨"a.json", [called "a" "Ajira", .actor .creature { id := "x", name := some "Ajiru" },
        called "b" "Ajo", called "c" "Ajiro"]⟩,
      ⟨"b.json", [called "d" "AJIRA", called "e" "Ilmar", called "f" "İlmar"]⟩]
    let settings : Settings := { similarNames := true }
    let run := Run.of settings (standard settings) files
    (standard settings)[0]? = some similarNames ∧ run.violation = none ∧
    (∀ npc ∈ people files, nameLength npc < 2 ^ 20) ∧
    (run.log.filter (·.seat == 0)).flatMap Delivery.report =
      [⟨"Npc", "c", "(Ajiro) has a name similar to a (Ajira) 1"⟩,
        ⟨"Npc", "d", "(AJIRA) has a name similar to c (Ajiro) 1"⟩,
        ⟨"Npc", "f", "(İlmar) has a name similar to e (Ilmar) 1"⟩] := by
  intro called files settings run
  have hseat : (standard settings)[0]? = some similarNames := rfl
  have hrun : run.violation = none := violation_standard settings settings files
  have hshort : ∀ npc ∈ people files, nameLength npc < 2 ^ 20 := by decide +kernel
  exact ⟨hseat, hrun, hshort, (resemblances_reported hseat hrun hshort).1.trans (by decide +kernel)⟩

end Rules
end WorldAudit
