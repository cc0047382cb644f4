import WorldAudit.Audit.Rule
import WorldAudit.Number.Count
import WorldAudit.Text.EditDistance
import WorldAudit.Text.Lower
/-!
# SimilarNames — people whose names are easily confused

A name may differ from an earlier one by one edit for every seven characters, to the nearest number.  Names for which
that allows no edit are passed over, and equal names are not reported.
-/
namespace WorldAudit
namespace Rules

structure SeenName where
  lower : String
  id : String
  name : String

/-- The number of edits within which another name is similar to one of `length` characters.  It is found in single
precision, so it is exact for names of ordinary length only. -/
def tolerance (length : Nat) : Nat := (Number.Binary.div (.ofNat .single length) (.ofNat .single 7)).nearestCount

/-- The first name seen that is similar to another, with its distance. -/
def similarTo? (lower : String) (tolerated : Nat) : List SeenName → Option (SeenName × Nat)
  | [] => none
  | other :: seen =>
    let distance := Text.editDistance lower.toList other.lower.toList
    if other.lower ≠ lower ∧ distance ≤ tolerated then some (other, distance) else similarTo? lower tolerated seen

def similarNamesStep (_ : Context) (call : Call) (seen : List SeenName) : Rule.Reply (List SeenName) :=
  match call with
  | .record (.actor .npc npc) _ =>
    let name := npc.name.getD ""
    let tolerated := tolerance name.toList.length
    if tolerated = 0 then { state := seen }
    else
      let lower := Text.lower name
      { state := seen ++ [⟨lower, npc.id, name⟩]
        findings := match similarTo? lower tolerated seen with
          | some (other, distance) =>
            [Finding.about (.actor .npc npc) s!"({name}) has a name similar to {other.id} ({other.name}) {distance}"]
          | none => [] }
  | _ => { state := seen }

def similarNames : Rule where
  State := List SeenName
  name := "names"
  initial := []
  step := similarNamesStep

end Rules
end WorldAudit
