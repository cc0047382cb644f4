import WorldAudit.Audit.Rule
import WorldAudit.Catalog
import WorldAudit.Script.Command
import WorldAudit.Text.Lower
/-!
# Reachability — what is declared and what refers to it

Facts are gathered from every record, entry and script line: what is declared, and what is used.  What is declared and
not used comes out only at the end, so it does not matter which of the two came first.
-/
namespace WorldAudit
namespace Rules

/-- What a record, an entry or a script line says.  Ids are in lower case; a declaration also holds the id as it is
written. -/
inductive Fact where
  | declaresScript (id written : String)
  | declaresEnchantment (id written : String)
  | declaresObject (id : String) (kind : Kind) (written : String)
  | declaresJournal (id written : String)
  /-- A journal entry with an index. -/
  | declaresIndex (topic : String) (index : Int)
  | usesScript (id : String)
  | usesEnchantment (id : String)
  | usesObject (id : String)
  | usesIndex (topic : String) (index : Int)
deriving Repr, DecidableEq

namespace Fact

/-- What a record declares. -/
def ofDeclaration (record : Record) (id : String) : List Fact :=
  match record with
  | .script r => [declaresScript id r.id]
  | .enchantment r => [declaresEnchantment id r.id]
  | .dialogue r => if r.isJournal then [declaresJournal id r.id] else []
  | r => if r.kind.isPlaceable then [declaresObject id r.kind r.id] else []

/-- What a record uses by its own fields. -/
def ofAttachments (record : Record) : List Fact :=
  (record.script?.map fun s => usesScript (Text.lower s)).toList ++
  (record.enchanting?.map fun e => usesEnchantment (Text.lower e)).toList

def ofCommand : Script.Command → Fact
  | .start script => usesScript script
  | .use object => usesObject object
  | .journal topic index => usesIndex topic index

/-- The index that a journal entry declares; the entry that names the journal has none. -/
def ofInfo (info : Info) (topic : Option Dialogue) : List Fact :=
  match topic with
  | some topic =>
    if topic.isJournal && info.questState != some .name then
      [declaresIndex (Text.lower topic.id) info.data.disposition]
    else []
  | none => []

/-- What a call says.  Where the conventions of TD apply, records declare nothing and use nothing by their fields. -/
def ofCall (mode : Option Mode) : Call → List Fact
  | .record record id => if mode == some .td then [] else ofDeclaration record id ++ ofAttachments record
  | .reference _ reference id _ => if reference.isDeleted then [] else [usesObject id]
  | .levelledEntry _ _ id _ => [usesObject id]
  | .inventoryEntry _ _ id _ => [usesObject id]
  | .info info topic => ofInfo info topic
  | .scriptLine _ line _ => ((Script.command? line.code).map ofCommand).toList
  | .finish => []

end Fact

/-! ## Reading the facts -/

/-- The scripts declared, by id; of several spellings the last one counts. -/
def declaredScripts (facts : List Fact) : Catalog String :=
  facts.foldl (fun c f => match f with | .declaresScript id written => c.insert id written | _ => c) []

def declaredEnchantments (facts : List Fact) : Catalog String :=
  facts.foldl (fun c f => match f with | .declaresEnchantment id written => c.insert id written | _ => c) []

def declaredObjects (facts : List Fact) : Catalog (Kind × String) :=
  facts.foldl (fun c f => match f with | .declaresObject id kind written => c.insert id (kind, written) | _ => c) []

/-- The journal topics declared, by id; of several spellings the first one counts. -/
def declaredJournals (facts : List Fact) : Catalog String :=
  facts.foldl (fun c f => match f with | .declaresJournal id written => c.insertNew id written | _ => c) []

/-- Puts a number into ascending numbers that do not have it. -/
def insertIndex (n : Int) : List Int → List Int
  | [] => [n]
  | m :: rest => if n = m then m :: rest else if n < m then n :: m :: rest else m :: insertIndex n rest

/-- Whether a fact declares the journal topic. -/
def Fact.isJournal (topic : String) : Fact → Bool
  | .declaresJournal id _ => id == topic
  | _ => false

/-- The indices of a topic's entries, ascending.  Entries before the topic is declared do not count. -/
def declaredIndices (topic : String) (facts : List Fact) : List Int :=
  (facts.dropWhile (!·.isJournal topic)).foldl
    (fun indices f => match f with
      | .declaresIndex t n => if t == topic then insertIndex n indices else indices
      | _ => indices) []

/-- Whether a fact uses some index of the topic. -/
def Fact.usesTopic (topic : String) : Fact → Bool
  | .usesIndex t _ => t == topic
  | _ => false

/-- The findings on a journal topic: it is not used at all, or some of its indices are not. -/
def journalFindings (facts : List Fact) (topic written : String) : List Finding :=
  if facts.any (·.usesTopic topic) then
    ((declaredIndices topic facts).filter fun n => !facts.contains (.usesIndex topic n)).map fun n =>
      ⟨"Journal", written, s!"has unused index {n}"⟩
  else [⟨"Journal", written, "is not used"⟩]

/-- The entries of a catalog whose use is not among the facts. -/
def unused {β : Type} (facts : List Fact) (use : String → Fact) (declared : Catalog β) : Catalog β :=
  declared.filter fun entry => !facts.contains (use entry.1)

/-- Everything that is declared and not used. -/
def orphans (facts : List Fact) : List Finding :=
  (unused facts .usesScript (declaredScripts facts)).map (fun e => ⟨"Script", e.2, "is never started"⟩) ++
  (unused facts .usesEnchantment (declaredEnchantments facts)).map (fun e => ⟨"Enchantment", e.2, "is not used"⟩) ++
  (unused facts .usesObject (declaredObjects facts)).map (fun e => ⟨e.2.1.name, e.2.2, "is not used"⟩) ++
  (declaredJournals facts).flatMap fun e => journalFindings facts e.1 e.2

/-! ## The rule -/

structure ReachabilityState where
  /-- The facts gathered, latest first. -/
  facts : List Fact
  finished : Bool

def ReachabilityState.initial : ReachabilityState := ⟨[], false⟩

def reachabilityStep (ctx : Context) (call : Call) (s : ReachabilityState) : Rule.Reply ReachabilityState :=
  if s.finished then { state := s, fault := some (.contract s!"{call.name} called after on_end") }
  else match call with
    | .finish => { state := { s with finished := true }, findings := orphans s.facts.reverse }
    | call => { state := { s with facts := (Fact.ofCall ctx.mode call).reverse ++ s.facts } }

def reachability : Rule where
  State := ReachabilityState
  name := "reachability"
  initial := .initial
  step := reachabilityStep

end Rules
end WorldAudit
