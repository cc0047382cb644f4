import WorldAudit.Audit.Rule
import WorldAudit.Catalog
/-!
# LevelledLists — lists that choose by level

A list whose entries have several levels should be calculated for all of them.  A list inside another should have
something to offer at the level at which it stands there; that is settled at the end, when all lists are known.
-/
namespace WorldAudit
namespace Rules

/-- The flag of lists that are calculated for all levels. -/
def allLevelsFlag : ListKind → Nat
  | .creature => 0
  | .item => 1

/-- An entry of a list that may itself be a list. -/
structure PendingEntry where
  kind : Kind
  list : String
  entry : String
  /-- The id of the entry in lower case. -/
  key : String
  level : Nat

structure LevelledState where
  /-- The level of the first entry, by the id of the list in lower case. -/
  firstLevels : Catalog Nat
  pending : List PendingEntry

/-- Whether two entries of a list have different levels. -/
def hasSeveralLevels : List LevelledEntry → Bool
  | [] => false
  | first :: rest => rest.any (·.level != first.level)

def lacksAllLevels (kind : ListKind) (list : LevelledList) : Bool :=
  !list.flags.testBit (allLevelsFlag kind) && hasSeveralLevels list.entries

/-- The finding on an entry at whose level its list offers nothing. -/
def PendingEntry.finding? (firstLevels : Catalog Nat) (p : PendingEntry) : Option Finding :=
  match Catalog.get? p.key firstLevels with
  | some least =>
    if p.level < least then
      some ⟨p.kind.name, p.list,
        s!"contains {p.entry} at level {p.level} which will not resolve to anything at that level"⟩
    else none
  | none => none

def levelledStep (_ : Context) (call : Call) (s : LevelledState) : Rule.Reply LevelledState :=
  match call with
  | .record (.levelled kind list) id =>
    let findings :=
      if lacksAllLevels kind list then [Finding.about (.levelled kind list) "is not calculated for all levels"] else []
    match list.entries with
    | [] => { state := s, findings }
    | first :: _ => { state := { s with firstLevels := Catalog.insert id first.level s.firstLevels }, findings }
  | .levelledEntry owner entry id _ =>
    { state := { s with pending := ⟨owner.kind, owner.id, entry.id, id, entry.level⟩ :: s.pending } }
  | .finish => { state := s, findings := s.pending.reverse.filterMap (·.finding? s.firstLevels) }
  | _ => { state := s }

def levelledLists : Rule where
  State := LevelledState
  name := "levelled"
  initial := ⟨[], []⟩
  step := levelledStep

end Rules
end WorldAudit
