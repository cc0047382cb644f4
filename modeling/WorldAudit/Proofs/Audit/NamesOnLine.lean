import WorldAudit.Audit.Finding
import WorldAudit.Proofs.Audit.Protocol
import WorldAudit.Proofs.Script.Line
import WorldAudit.Proofs.Text.Unbroken
/-!
# NamesOnLine — records whose names are on one line

A finding is one line of the output if what it is about and what it says are on one line.  Records are named by ids,
names and regions; where these hold no line feeds, neither does anything that calls give to be named, comments of
scripts included (`Protocol.namedOnLine_of_mem`).
-/
namespace WorldAudit

open Text (Unbroken unbroken_append unbroken_int)

/-- **A finding that is one line of the output.** -/
def Finding.OnLine (f : Finding) : Prop := Unbroken f.line

theorem Finding.onLine_iff {f : Finding} :
    f.OnLine ↔ Unbroken f.kind ∧ Unbroken f.subject ∧ Unbroken f.message := by
  have hspace : Unbroken " " := by decide
  rw [Finding.OnLine, Finding.line, unbroken_append, unbroken_append, unbroken_append, unbroken_append,
    and_iff_left hspace, and_iff_left hspace, and_assoc]

theorem Finding.onLine_mk {kind subject message : String} (hkind : Unbroken kind) (hsubject : Unbroken subject)
    (hmessage : Unbroken message) : Finding.OnLine ⟨kind, subject, message⟩ :=
  Finding.onLine_iff.2 ⟨hkind, hsubject, hmessage⟩

theorem Kind.unbroken_name (k : Kind) : Unbroken k.name := by
  cases k with
  | levelled k => cases k <;> decide +kernel
  | actor k => cases k <;> decide +kernel
  | object k => cases k <;> decide +kernel
  | _ => decide +kernel

/-! ## Names on one line -/

/-- **A record whose names are on one line**: its id, its name or region, and the ids of the entries that are named in
findings.  Its texts may be on any number of lines. -/
def Record.NamedOnLine : Record → Prop
  | .cell c => Unbroken c.id ∧ (∀ region ∈ c.region, Unbroken region) ∧ ∀ r ∈ c.references, Unbroken r.id
  | .levelled _ l => Unbroken l.id ∧ ∀ e ∈ l.entries, Unbroken e.id
  | .actor _ a => Unbroken a.id ∧ ∀ name ∈ a.name, Unbroken name
  | .pathGrid g => ∀ c ∈ g.cell, Unbroken c
  | r => Unbroken r.id

theorem unbroken_getD {o : Option String} (h : ∀ s ∈ o, Unbroken s) : Unbroken (o.getD "") := by
  cases o with
  | none => decide
  | some s => exact h s rfl

theorem Cell.unbroken_displayName {c : Cell} (hid : Unbroken c.id) (hregion : ∀ region ∈ c.region, Unbroken region) :
    Unbroken c.displayName := by
  have hplace : Unbroken s!"{c.data.x},{c.data.y}" :=
    unbroken_append.2 ⟨unbroken_append.2 ⟨unbroken_int _, by decide⟩, unbroken_int _⟩
  have hname : Unbroken (if c.id.isEmpty then c.region.getD "" else c.id) := by
    split
    · exact unbroken_getD hregion
    · exact hid
  unfold Cell.displayName
  split
  · exact hid
  · dsimp only
    generalize (if c.id.isEmpty then c.region.getD "" else c.id) = name at hname ⊢
    split
    · exact hplace
    · exact unbroken_append.2 ⟨unbroken_append.2 ⟨hname, by decide⟩, hplace⟩

namespace Record.NamedOnLine

variable {record : Record} (h : record.NamedOnLine)

include h

theorem id : Unbroken record.id := by
  cases record with
  | cell c => exact h.1
  | levelled k list => exact h.1
  | actor k actor => exact h.1
  | pathGrid grid => exact (by decide : Unbroken "")
  | _ => exact h

theorem subject : Unbroken record.subject := by
  cases record with
  | cell c => exact Cell.unbroken_displayName h.1 h.2.1
  | pathGrid grid => exact unbroken_getD h
  | _ => exact h.id

/-- A finding about a record is on one line if its message is. -/
theorem onLine_about {message : String} (hmessage : Unbroken message) : (Finding.about record message).OnLine :=
  Finding.onLine_mk record.kind.unbroken_name h.subject hmessage

end Record.NamedOnLine

/-- A topic, if any, whose id is on one line. -/
def TopicOnLine (topic : Option Dialogue) : Prop := ∀ d ∈ topic, Unbroken d.id

/-- **A call that gives names on one line.** -/
def Call.NamedOnLine : Call → Prop
  | .record r _ => r.NamedOnLine
  | .reference c r _ _ => (Record.cell c).NamedOnLine ∧ Unbroken r.id
  | .levelledEntry owner e _ _ => owner.NamedOnLine ∧ Unbroken e.id
  | .inventoryEntry owner _ _ _ => owner.NamedOnLine
  | .info i topic => Unbroken i.id ∧ TopicOnLine topic
  | .scriptLine owner line topic => owner.NamedOnLine ∧ Unbroken line.comment ∧ TopicOnLine topic
  | .finish => True

namespace Script

/-- **A comment is on one line**, however the script is written. -/
theorem unbroken_comment {body : String} {line : Line} (h : line ∈ lines body) : Unbroken line.comment := by
  obtain ⟨cs, hcs, hline⟩ := List.mem_filterMap.1 h
  simp only [Line.ofChars?] at hline
  split at hline
  · cases hline
  · cases hline
    refine Text.unbroken_ofList.2 fun hmem => lineFeed_notMem_splitLines _ cs hcs ?_
    exact (List.dropWhile_sublist _).subset ((List.drop_sublist 1 _).subset ((Text.trim_sublist _).subset hmem))

end Script

namespace Protocol

theorem mem_of_topicAt {records : List Record} {j : Nat} {d : Dialogue} (h : topicAt records j = some d) :
    Record.dialogue d ∈ records := by
  obtain ⟨record, hrecord, hd⟩ := List.mem_filterMap.1 (List.mem_of_getLast? h)
  cases record with
  | dialogue d' =>
    cases hd
    exact List.mem_of_mem_take hrecord
  | _ => cases hd

theorem namedOnLine_of_mem_callsOf {topic : Option Dialogue} (htopic : TopicOnLine topic) {record : Record}
    (h : record.NamedOnLine) : ∀ call ∈ callsOf topic record, call.NamedOnLine := by
  intro call hc
  rcases List.mem_cons.1 hc with rfl | hc
  · exact h
  · cases record with
    | cell cell =>
      obtain ⟨⟨r, i⟩, hr, rfl⟩ := List.mem_map.1 hc
      exact ⟨h, h.2.2 r (List.fst_mem_of_mem_zipIdx hr)⟩
    | levelled k list =>
      obtain ⟨⟨e, i⟩, he, rfl⟩ := List.mem_map.1 hc
      exact ⟨h, h.2 e (List.fst_mem_of_mem_zipIdx he)⟩
    | actor k actor =>
      obtain ⟨⟨e, i⟩, he, rfl⟩ := List.mem_map.1 hc
      exact h
    | info info =>
      rcases List.mem_cons.1 hc with rfl | hc
      · exact ⟨h, htopic⟩
      · obtain ⟨line, hline, rfl⟩ := List.mem_map.1 hc
        exact ⟨h, Script.unbroken_comment hline, htopic⟩
    | script script =>
      obtain ⟨line, hline, rfl⟩ := List.mem_map.1 hc
      exact ⟨h, Script.unbroken_comment hline, fun _ hd => by cases hd⟩
    | _ => cases hc

/-- **Files whose records have names on one line give names on one line to all rules.** -/
theorem namedOnLine_of_mem {settings : Settings} {files : List RecordFile}
    (hnames : ∀ file ∈ files, ∀ record ∈ file.records, record.NamedOnLine) :
    ∀ g ∈ reference settings files, ∀ call ∈ g.calls, call.NamedOnLine := by
  intro g hg
  rcases List.mem_append.1 hg with hg | hg
  · obtain ⟨⟨file, k⟩, hfile, hg⟩ := List.mem_flatMap.1 hg
    obtain ⟨⟨record, j⟩, hrecord, rfl⟩ := List.mem_map.1 hg
    have hfile := hnames file (List.fst_mem_of_mem_zipIdx hfile)
    refine namedOnLine_of_mem_callsOf (fun d hd => ?_) (hfile record (List.fst_mem_of_mem_zipIdx hrecord))
    exact hfile _ (mem_of_topicAt hd)
  · rw [List.mem_singleton.1 hg]
    intro call hc
    rw [List.mem_singleton.1 hc]
    trivial

end Protocol
end WorldAudit
