import WorldAudit.Proofs.Audit.Memoryless
import WorldAudit.Proofs.Rules.Conduct
import WorldAudit.Proofs.Script.Channel
/-!
# Channels — code for one rule, comments for another

Files may differ in one of the channels of their scripts only, code or comments (`AlikeOn`).  The rule for reachability
reads code and the rule for notes reads comments, so each reports the same of files that are alike on its own channel
(`channels_are_separate`), whatever stands in the other one.
-/
namespace WorldAudit

/-- **Records alike on a channel**: the same, but that a script in them may be another one with the same channel. -/
inductive Record.AlikeOn (channel : String → List (List Char)) : Record → Record → Prop
  | same (record : Record) : AlikeOn channel record record
  | script (id : String) {text text' : String} (h : channel text = channel text') :
    AlikeOn channel (.script ⟨id, text⟩) (.script ⟨id, text'⟩)
  | info (info : Info) {result result' : String} (h : channel result = channel result') :
    AlikeOn channel (.info { info with result := some result }) (.info { info with result := some result' })

/-- Files of the same place, whose records are alike one by one. -/
structure RecordFile.AlikeOn (channel : String → List (List Char)) (file file' : RecordFile) : Prop where
  path : file.path = file'.path
  records : List.Forall₂ (Record.AlikeOn channel) file.records file'.records

namespace Protocol

variable {channel : String → List (List Char)}

theorem dialogue?_alike {record record' : Record} (h : record.AlikeOn channel record') :
    dialogue? record = dialogue? record' := by
  cases h <;> rfl

theorem topicAt_alike {records records' : List Record} (h : List.Forall₂ (Record.AlikeOn channel) records records')
    (j : Nat) : topicAt records j = topicAt records' j := by
  have hdialogues : ∀ {rs rs' : List Record}, List.Forall₂ (Record.AlikeOn channel) rs rs' →
      rs.filterMap dialogue? = rs'.filterMap dialogue? := fun hrs => by
    induction hrs with
    | nil => rfl
    | cons hrecord _ ih => rw [List.filterMap_cons, List.filterMap_cons, dialogue?_alike hrecord, ih]
  rw [topicAt, topicAt, hdialogues (List.forall₂_take (j + 1) h)]

section Read

variable {α : Type} {f : Call → List α}
  (hf : ∀ topic record record', Record.AlikeOn channel record record' →
    (callsOf topic record).flatMap f = (callsOf topic record').flatMap f)

include hf

theorem flatMap_zipIdx_alike (topic : Nat → Option Dialogue) {records records' : List Record}
    (h : List.Forall₂ (Record.AlikeOn channel) records records') (k : Nat) :
    ((records.zipIdx k).flatMap fun (record, j) => (callsOf (topic j) record).flatMap f) =
      (records'.zipIdx k).flatMap fun (record, j) => (callsOf (topic j) record).flatMap f := by
  induction h generalizing k with
  | nil => rfl
  | cons hrecord _ ih =>
    rw [List.zipIdx_cons, List.zipIdx_cons, List.flatMap_cons, List.flatMap_cons, ih (k + 1)]
    exact congrArg (· ++ _) (hf (topic k) _ _ hrecord)

/-- **What is read off the calls of files** is the same for files that are alike, if it is for records. -/
theorem flatMap_calls_alike {files files' : List RecordFile}
    (h : List.Forall₂ (RecordFile.AlikeOn channel) files files') :
    (calls files).flatMap f = (calls files').flatMap f := by
  rw [calls, calls, List.flatMap_append, List.flatMap_append, List.flatMap_assoc, List.flatMap_assoc]
  refine congrArg (· ++ [Call.finish].flatMap f) ?_
  induction h with
  | nil => rfl
  | cons hfile _ ih =>
    rw [List.flatMap_cons, List.flatMap_cons, ih, List.flatMap_assoc, List.flatMap_assoc,
      funext (topicAt_alike hfile.records)]
    exact congrArg (· ++ _) (flatMap_zipIdx_alike hf _ hfile.records 0)

end Read

end Protocol

namespace Rules

open Script (codeChannel commentChannel)

/-! ## Code -/

theorem ofFiles_eq (mode : Option Mode) (files : List RecordFile) :
    Fact.ofFiles mode files = (Protocol.calls files).flatMap (Fact.ofCall mode) := by
  rw [Protocol.calls, List.flatMap_append, List.flatMap_assoc]
  simp only [List.flatMap_assoc]
  exact (List.append_nil _).symm

theorem facts_alike (mode : Option Mode) (topic : Option Dialogue) (record record' : Record)
    (h : record.AlikeOn codeChannel record') :
    (Protocol.callsOf topic record).flatMap (Fact.ofCall mode) =
      (Protocol.callsOf topic record').flatMap (Fact.ofCall mode) := by
  have hlines : ∀ (owner owner' : Record) (topic : Option Dialogue) {text text' : String},
      codeChannel text = codeChannel text' →
      ((Script.lines text).map fun line => Call.scriptLine owner line topic).flatMap (Fact.ofCall mode) =
        ((Script.lines text').map fun line => Call.scriptLine owner' line topic).flatMap (Fact.ofCall mode) :=
    fun owner owner' topic text text' hcode => by
      have hempty : ((Script.command? "").map Fact.ofCommand).toList = [] := by decide
      rw [List.flatMap_map, List.flatMap_map]
      exact Script.flatMap_code (f := fun code => ((Script.command? code).map Fact.ofCommand).toList) hempty hcode
  cases h with
  | same => rfl
  | script id hcode =>
    simp only [Protocol.callsOf, Protocol.innerCalls, List.flatMap_cons]
    exact congrArg₂ (· ++ ·) rfl (hlines _ _ none hcode)
  | info info hcode =>
    simp only [Protocol.callsOf, Protocol.innerCalls, List.flatMap_cons]
    exact congrArg₂ (· ++ ·) rfl (congrArg₂ (· ++ ·) rfl (hlines _ _ topic hcode))

/-! ## Comments -/

/-- The finding on a line whose comment is a note on work to be done. -/
def noteFindings : Call → List Finding
  | .scriptLine owner line topic =>
    if line.comment.isEmpty || !Script.isWorkNote line.comment.toList then []
    else [aboutScript owner topic s!"contains comment {line.comment}"]
  | _ => []

theorem judges_workNotes (g : Group) : workNotes.Judges noteFindings g := by
  refine Rule.judges_of_no_fault (fault_step_of_name .workNotes rfl (by decide)) fun call s => ?_
  cases call with
  | scriptLine owner line topic =>
    simp only [workNotes, Rule.stateless, noteFindings]
    split <;> rfl
  | _ => rfl

theorem notes_alike (topic : Option Dialogue) (record record' : Record) (h : record.AlikeOn commentChannel record') :
    (Protocol.callsOf topic record).flatMap noteFindings = (Protocol.callsOf topic record').flatMap noteFindings := by
  have hlines : ∀ (owner owner' : Record) (topic : Option Dialogue) {text text' : String},
      aboutScript owner topic = aboutScript owner' topic → commentChannel text = commentChannel text' →
      ((Script.lines text).map fun line => Call.scriptLine owner line topic).flatMap noteFindings =
        ((Script.lines text').map fun line => Call.scriptLine owner' line topic).flatMap noteFindings :=
    fun owner owner' topic text text' howner hcomment => by
      rw [List.flatMap_map, List.flatMap_map]
      simp only [noteFindings, howner]
      exact Script.flatMap_comment (f := fun comment =>
        if comment.isEmpty || !Script.isWorkNote comment.toList then []
        else [aboutScript owner' topic s!"contains comment {comment}"]) rfl hcomment
  cases h with
  | same => rfl
  | script id hcomment =>
    simp only [Protocol.callsOf, Protocol.innerCalls, List.flatMap_cons]
    exact congrArg₂ (· ++ ·) rfl (hlines _ _ none rfl hcomment)
  | info info hcomment =>
    simp only [Protocol.callsOf, Protocol.innerCalls, List.flatMap_cons]
    exact congrArg₂ (· ++ ·) rfl (congrArg₂ (· ++ ·) rfl (hlines _ _ topic (by cases topic <;> rfl) hcomment))

/-! ## Both -/

/-- **Code and comments are separate channels.**  Of files that are alike but for the comments of their scripts the rule
for reachability reports the same, in every mode, and of files that are alike but for the code of their scripts the rule
for notes reports the same. -/
theorem channels_are_separate (settings : Settings) {files files' : List RecordFile} :
    (List.Forall₂ (RecordFile.AlikeOn codeChannel) files files' →
      ∃ report, (Run.of settings [reachability] files).outcome = .ok report ∧
        (Run.of settings [reachability] files').outcome = .ok report) ∧
    (List.Forall₂ (RecordFile.AlikeOn commentChannel) files files' →
      ∃ report, (Run.of settings [workNotes] files).outcome = .ok report ∧
        (Run.of settings [workNotes] files').outcome = .ok report) := by
  constructor
  · intro h
    refine ⟨_, outcome_reachability settings files, ?_⟩
    rw [outcome_reachability, ofFiles_eq, ofFiles_eq, Protocol.flatMap_calls_alike (facts_alike settings.mode) h]
  · intro h
    have houtcome : ∀ files, (Run.of settings [workNotes] files).outcome =
        .ok ((Protocol.calls files).flatMap noteFindings) := fun files => by
      have hprovided : ∀ r ∈ [workNotes], Provided r := fun r hr => List.mem_singleton.1 hr ▸ .workNotes
      exact Run.outcome_of_judges (fun g _ => judges_workNotes g)
        (Run.kept_of_violation (run_of_provided hprovided settings files).1)
    refine ⟨_, houtcome files, ?_⟩
    rw [houtcome, Protocol.flatMap_calls_alike notes_alike h]

/-- A script and a result, in which comments come and go, or the code before them does. -/
theorem comments_and_code_replaced :
    let records := fun text result => [Record.script ⟨"S", text⟩, .dialogue { id := "Hi" },
      .info { id := "1", result := some result }]
    let files := [⟨"a.json", records " Begin S ; TODO name\n\nStartScript T" "goodbye;fixme "⟩]
    let recommented := [⟨"a.json", records " Begin S \n;\nStartScript T; start" "goodbye"⟩]
    let recoded := [⟨"a.json", records "; TODO name\nset x to 1\n" "Journal Q 10 ;fixme "⟩]
    List.Forall₂ (RecordFile.AlikeOn codeChannel) files recommented ∧
    List.Forall₂ (RecordFile.AlikeOn commentChannel) files recoded ∧
    (Run.of {} [reachability] recommented).outcome = .ok [⟨"Script", "S", "is never started"⟩] ∧
    (Run.of {} [workNotes] recoded).outcome =
      .ok [⟨"Script", "S", "contains comment TODO name"⟩, ⟨"Info", "1 in topic Hi", "contains comment fixme"⟩] := by
  intro records files recommented recoded
  have hcode : List.Forall₂ (RecordFile.AlikeOn codeChannel) files recommented :=
    .cons ⟨rfl, .cons (.script "S" (by decide +kernel)) <| .cons (.same _) <|
      .cons (.info { id := "1" } (by decide +kernel)) .nil⟩ .nil
  have hcomment : List.Forall₂ (RecordFile.AlikeOn commentChannel) files recoded :=
    .cons ⟨rfl, .cons (.script "S" (by decide +kernel)) <| .cons (.same _) <|
      .cons (.info { id := "1" } (by decide +kernel)) .nil⟩ .nil
  obtain ⟨report, hfiles, hrecommented⟩ := (channels_are_separate {}).1 hcode
  obtain ⟨notes, hnotes, hrecoded⟩ := (channels_are_separate {}).2 hcomment
  obtain rfl := Run.report_of_outcome hfiles
  obtain rfl := Run.report_of_outcome hnotes
  refine ⟨hcode, hcomment, hrecommented.trans (congrArg _ ?_), hrecoded.trans (congrArg _ ?_)⟩
  · decide +kernel
  · decide +kernel

end Rules
end WorldAudit
