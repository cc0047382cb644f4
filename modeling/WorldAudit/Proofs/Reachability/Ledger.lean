import Mathlib.Data.Finset.Sort
import Mathlib.Data.String.Basic
import WorldAudit.Proofs.Audit.Protocol
import WorldAudit.Rules.Reachability
/-!
# Ledger — what record files declare and what they use

The account is drawn up from the records of all files at once, and its balance is what is declared less what is used.
Everything goes by its id in lower case; a declaration also says how it is shown.
-/
namespace WorldAudit
namespace Ledger

def records (files : List RecordFile) : List Record := files.flatMap (·.records)

/-! ## Declarations -/

def script? : Record → Option (String × String)
  | .script r => some (Text.lower r.id, r.id)
  | _ => none

def enchantment? : Record → Option (String × String)
  | .enchantment r => some (Text.lower r.id, r.id)
  | _ => none

/-- What can be placed in the world or carried. -/
def object? : Record → Option (String × Kind × String)
  | .levelled kind list => some (Text.lower list.id, .levelled kind, list.id)
  | .actor kind actor => some (Text.lower actor.id, .actor kind, actor.id)
  | .book book => some (Text.lower book.id, .book, book.id)
  | .object kind object => some (Text.lower object.id, .object kind, object.id)
  | _ => none

def journal? : Record → Option (String × String)
  | .dialogue d => if d.type == .journal then some (Text.lower d.id, d.id) else none
  | _ => none

/-- The index of a journal entry, under the journal whose topic it has.  The entry that names the journal has none. -/
def entryIndex? (topic : Option Dialogue) : Record → Option (String × Int)
  | .info info =>
    match topic with
    | some d =>
      if d.type == .journal && info.questState != some .name then some (Text.lower d.id, info.data.disposition)
      else none
    | none => none
  | _ => none

/-- The journal entries of all files, each with the latest topic at or before it in its own file. -/
def entries (files : List RecordFile) : List (String × Int) :=
  files.flatMap fun file =>
    file.records.zipIdx.filterMap fun (record, j) => entryIndex? (Protocol.topicAt file.records j) record

/-! ## Uses -/

/-- The script that stands in a record: that of a script, or the result of a response. -/
def body? : Record → Option String
  | .script script => some script.text
  | .info info => info.result
  | _ => none

def commands (record : Record) : List Script.Command :=
  ((body? record).toList.flatMap Script.lines).filterMap fun line => Script.command? line.code

def started? : Script.Command → Option String
  | .start script => some script
  | _ => none

def placed? : Script.Command → Option String
  | .use object => some object
  | _ => none

def indexed? : Script.Command → Option (String × Int)
  | .journal topic index => some (topic, index)
  | _ => none

/-- Whether a field holds a character that is no white space. -/
def isFilled (value : String) : Bool := value.toList.any (!Text.isBlank ·)

/-- The script attached to a record: the script field of a kind that has one, unless it is blank. -/
def attached? : Record → Option String
  | .startScript start => start.script.filter isFilled
  | .actor _ actor => actor.script.filter isFilled
  | .book book => book.script.filter isFilled
  | .object _ object => object.script.filter isFilled
  | _ => none

/-- The enchantment put on a record, unless its field is blank. -/
def enchanting? : Record → Option String
  | .book book => book.enchanting.filter isFilled
  | .object _ object => object.enchanting.filter isFilled
  | _ => none

/-- The ids of what a record holds; references that are deleted do not count. -/
def held : Record → List String
  | .cell cell => (cell.references.filter (·.deleted != some true)).map (·.id)
  | .levelled _ list => list.entries.map (·.id)
  | .actor _ actor => actor.inventory.map (·.id)
  | _ => []

/-- The scripts that a record starts: the one attached to it, and those started on its lines. -/
def startedScripts (record : Record) : List String :=
  ((attached? record).map Text.lower).toList ++ (commands record).filterMap started?

def usedEnchantments (record : Record) : List String := ((enchanting? record).map Text.lower).toList

def usedObjects (record : Record) : List String :=
  (held record).map Text.lower ++ (commands record).filterMap placed?

def usedIndices (record : Record) : List (String × Int) := (commands record).filterMap indexed?

/-! ## The balance -/

/-- The ids under which something is declared and that are not used, ascending. -/
def missing {β : Type} (declared : List (String × β)) (used : List String) : List String :=
  ((declared.map Prod.fst).toFinset \ used.toFinset).sort

def latest {β : Type} (declared : List (String × β)) (id : String) : Option β := declared.reverse.lookup id

def scripts (rs : List Record) : List Finding :=
  (missing (rs.filterMap script?) (rs.flatMap startedScripts)).map fun id =>
    ⟨"Script", (latest (rs.filterMap script?) id).getD "", "is never started"⟩

def enchantments (rs : List Record) : List Finding :=
  (missing (rs.filterMap enchantment?) (rs.flatMap usedEnchantments)).map fun id =>
    ⟨"Enchantment", (latest (rs.filterMap enchantment?) id).getD "", "is not used"⟩

def objects (rs : List Record) : List Finding :=
  (missing (rs.filterMap object?) (rs.flatMap usedObjects)).map fun id =>
    let shown := (latest (rs.filterMap object?) id).getD (.other, "")
    ⟨shown.1.name, shown.2, "is not used"⟩

def indicesOf (topic : String) (indices : List (String × Int)) : Finset Int :=
  ((indices.filter (·.1 == topic)).map Prod.snd).toFinset

/-- The findings on a journal: nothing uses it, or nothing uses some of its indices. -/
def journal (topic written : String) (declared used : List (String × Int)) : List Finding :=
  if used.any (·.1 == topic) then
    (indicesOf topic declared \ indicesOf topic used).sort.map fun n => ⟨"Journal", written, s!"has unused index {n}"⟩
  else [⟨"Journal", written, "is not used"⟩]

def unusedIndices (topic : String) (declared used : List (String × Int)) : List Int :=
  (indicesOf topic declared \ indicesOf topic used).sort

/-- The findings on all journals, each shown as its first declaration says. -/
def journals (files : List RecordFile) : List Finding :=
  let declared := (records files).filterMap journal?
  (missing declared []).flatMap fun topic =>
    journal topic ((declared.lookup topic).getD "") (entries files) ((records files).flatMap usedIndices)

/-- Everything that files declare and do not use. -/
def balance (files : List RecordFile) : List Finding :=
  scripts (records files) ++ enchantments (records files) ++ objects (records files) ++ journals files

end Ledger
end WorldAudit
