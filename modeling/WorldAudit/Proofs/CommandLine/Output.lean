import Mathlib
import WorldAudit.Proofs.Rules.BookReports
import WorldAudit.Proofs.Rules.Lines
/-!
# Output — one line for each finding

A report is written finding by finding, each with a line feed behind it, so there is one line for each exactly if no
finding holds a line feed of its own (`count_reportText`).  Where names are on one line, that is a matter of what the
rule for books cites (`one_line_per_finding_iff`).
-/
namespace WorldAudit

open Rules
open Text (Unbroken unbroken_iff)

/-! ## What the rules say -/

namespace Protocol

variable {settings : Settings} {files : List RecordFile} {file : RecordFile} {record : Record}

variable (settings) in
theorem exists_group_of_mem (hfile : file ∈ files) (hrecord : record ∈ file.records) :
    ∃ g ∈ reference settings files, g.record = some record ∧ ∃ topic, g.calls = callsOf topic record := by
  obtain ⟨k, hk⟩ := List.mem_iff_getElem?.1 hfile
  obtain ⟨j, hj⟩ := List.mem_iff_getElem?.1 hrecord
  refine ⟨⟨⟨settings, file.path, k + 1 == files.length⟩, some record, callsOf (topicAt file.records j) record⟩, ?_, rfl,
    topicAt file.records j, rfl⟩
  refine List.mem_append_left _ (List.mem_flatMap.2 ⟨(file, k), List.mem_zipIdx_iff_getElem?.2 hk, ?_⟩)
  exact List.mem_map.2 ⟨(record, j), List.mem_zipIdx_iff_getElem?.2 hj, rfl⟩

theorem exists_file_of_mem {g : Group} (hg : g ∈ reference settings files) (hrecord : g.record = some record) :
    ∃ file ∈ files, record ∈ file.records := by
  rcases List.mem_append.1 hg with hg | hg
  · obtain ⟨⟨file, k⟩, hfile, hg⟩ := List.mem_flatMap.1 hg
    obtain ⟨⟨record', j⟩, hrecord', rfl⟩ := List.mem_map.1 hg
    cases hrecord
    exact ⟨file, List.fst_mem_of_mem_zipIdx hfile, List.fst_mem_of_mem_zipIdx hrecord'⟩
  · rw [List.mem_singleton.1 hg] at hrecord
    cases hrecord

variable (settings) in
/-- **Every rule is told of every record.** -/
theorem exists_deliver_record (r : Rule) (i : Nat) (hfile : file ∈ files) (hrecord : record ∈ file.records) :
    ∃ g s, g.record = some record ∧ r.deliver i g (.record record (Text.lower record.id)) s ∈
      (r.parts i (reference settings files) r.initial).flatten := by
  obtain ⟨g, hg, hrec, topic, hcalls⟩ := exists_group_of_mem settings hfile hrecord
  obtain ⟨s, hs⟩ := r.exists_part_of_mem i hg r.initial
  refine ⟨g, s, hrec, List.mem_flatten.2 ⟨_, hs, ?_⟩⟩
  rw [hcalls, callsOf, Rule.part]
  exact List.mem_cons_self

end Protocol

namespace Run

/-- **What an ordinary run reports** is what its rules answer to the calls of the files. -/
theorem mem_report_standard {settings : Settings} {files : List RecordFile} {f : Finding} :
    f ∈ (Run.standard settings files).report ↔
      ∃ (i : Nat) (r : Rule), (Rules.standard settings)[i]? = some r ∧
        ∃ d ∈ (r.parts i (Protocol.reference settings files) r.initial).flatten, f ∈ d.report := by
  have hviolation := (run_of_provided (provided_standard settings) settings files).1
  obtain ⟨hlog, -⟩ := log_eq_due_of_log (kept_of_violation hviolation)
  rw [Run.report, Run.standard, hlog, Protocol.groups_eq_reference, List.mem_flatMap]
  constructor
  · rintro ⟨d, hd, hf⟩
    obtain ⟨i, r, hr, hd⟩ := mem_due hd
    exact ⟨i, r, hr, d, hd, hf⟩
  · rintro ⟨i, r, hr, d, hd, hf⟩
    rw [← filter_due _ hr] at hd
    exact ⟨d, (List.mem_filter.1 hd).1, hf⟩

end Run

namespace Rules

/-- **Apart from the rule for books, every rule says everything on one line** where names are on one line. -/
theorem onLine_of_provided {r : Rule} (h : Provided r) (hbooks : r ≠ books) {settings : Settings}
    {files : List RecordFile} (hnames : ∀ file ∈ files, ∀ record ∈ file.records, record.NamedOnLine) (i : Nat) :
    ∀ d ∈ (r.parts i (Protocol.reference settings files) r.initial).flatten, ∀ f ∈ d.report, f.OnLine := by
  intro d hd f hf
  have hfault : d.fault = none := by
    refine Option.eq_none_iff_forall_ne_some.2 fun fault hfault => ?_
    exact hbooks (fault_of_provided h hd hfault).1
  rw [Delivery.report, Delivery.faultFindings, hfault, List.append_nil] at hf
  have hspeaks : r.SpeaksOnLine → f.OnLine := by
    rintro ⟨holds, hinitial, hstep⟩
    exact r.onLine_parts i holds hstep _ _ (Protocol.namedOnLine_of_mem hnames) hinitial d hd f hf
  cases h with
  | books => exact absurd rfl hbooks
  | workNotes => exact hspeaks speaksOnLine_workNotes
  | typography => exact hspeaks speaksOnLine_typography
  | duplicates threshold => exact hspeaks (speaksOnLine_duplicates threshold)
  | levelledLists => exact hspeaks speaksOnLine_levelledLists
  | populated least => exact hspeaks (speaksOnLine_populated least)
  | similarNames => exact hspeaks speaksOnLine_similarNames
  | reachability =>
    obtain ⟨front, last, hparts, hfront, hlast, _⟩ := reachability_parts i settings files
    rw [hparts] at hd
    rcases List.mem_append.1 hd with hd | hd
    · rw [(hfront d hd).1] at hf
      cases hf
    · rw [List.mem_singleton.1 hd, hlast] at hf
      refine onLine_of_mem_orphans (fun fact hfact written hwritten => ?_) f hf
      obtain ⟨file, hfile, record, hrecord, rfl⟩ := exists_record_of_written hfact hwritten
      exact (hnames file hfile record hrecord).id

end Rules

namespace CommandLine

theorem count_reportText (findings : List Finding) :
    (reportText findings).toList.count '\n' =
      (findings.map fun f => f.line.toList.count '\n').sum + findings.length := by
  rw [reportText, String.toList_join]
  induction findings with
  | nil => rfl
  | cons f findings ih =>
    rw [List.map_cons, List.flatMap_cons, List.count_append, ih, String.toList_append, List.count_append,
      List.map_cons, List.sum_cons, List.length_cons]
    have hlf : "\n".toList.count '\n' = 1 := by decide
    omega

/-- **As many lines as findings** are written exactly if every finding is on one line. -/
theorem lines_eq_findings_iff (findings : List Finding) :
    (reportText findings).toList.count '\n' = findings.length ↔ ∀ f ∈ findings, f.OnLine := by
  rw [count_reportText, Nat.add_eq_right, List.sum_eq_zero_iff_forall_eq_nat]
  simp only [List.mem_map, forall_exists_index, and_imp, forall_apply_eq_imp_iff₂, List.count_eq_zero, Finding.OnLine,
    unbroken_iff]

/-- **When every finding is one line of the output.**  Where names hold no line feeds, an ordinary run writes as many
lines as it has findings exactly if it looks for similar names only, or if whatever is cited of the texts of its books
is on one line: the names of closing tags that are refused, the sources of images that are paths, and the text that
stands after the last tag that opens. -/
theorem one_line_per_finding_iff (settings : Settings) {files : List RecordFile}
    (hnames : ∀ file ∈ files, ∀ record ∈ file.records, record.NamedOnLine) :
    ∃ report, (Run.standard settings files).outcome = .ok report ∧
      ((reportText report).toList.count '\n' = report.length ↔ ∀ f ∈ report, Unbroken f.line) ∧
      ((∀ f ∈ report, Unbroken f.line) ↔
        settings.similarNames = true ∨ ∀ file ∈ files, ∀ book, .book book ∈ file.records →
          ∀ piece, Cited (book.text.getD "") piece → Unbroken piece) := by
  refine ⟨_, outcome_standard settings files, lines_eq_findings_iff _, ?_⟩
  constructor
  · intro hlines
    cases hsimilar : settings.similarNames with
    | true => exact .inl rfl
    | false =>
      refine .inr fun file hfile book hbook => (unbroken_bookSayings_iff _).1 fun m hm => ?_
      have hseat : (standard settings)[0]? = some books := by rw [standard, hsimilar]; rfl
      obtain ⟨g, s, hrecord, hd⟩ := Protocol.exists_deliver_record settings books 0 hfile hbook
      have hf : Finding.about (.book book) m ∈ (Run.standard settings files).report := by
        refine Run.mem_report_standard.2 ⟨0, books, hseat, _, hd, ?_⟩
        rw [report_books 0 g s hrecord]
        exact List.mem_map_of_mem hm
      exact (Finding.onLine_iff.1 (hlines _ hf)).2.2
  · intro h f hf
    obtain ⟨i, r, hr, d, hd, hf⟩ := Run.mem_report_standard.1 hf
    have hprovided := provided_standard settings r (List.mem_of_getElem? hr)
    by_cases hbooks : r = books
    -- the rule for books says nothing of any call but that of a book, and of that what its text gives to say
    · subst hbooks
      obtain ⟨g, hg, call, hc, s, rfl⟩ := books.exists_call_of_mem_parts i hd
      by_cases hcall : ∃ book id, call = .record (.book book) id
      · obtain ⟨book, id, rfl⟩ := hcall
        have hrecord := Protocol.record_of_mem_calls g hg (.book book) id hc
        obtain ⟨file, hfile, hbook⟩ := Protocol.exists_file_of_mem hg hrecord
        rw [report_books i g s hrecord] at hf
        obtain ⟨m, hm, rfl⟩ := List.mem_map.1 hf
        refine (hnames file hfile _ hbook).onLine_about ?_
        rcases h with h | h
        · have hmem := List.mem_of_getElem? hr
          rw [standard, h, if_pos rfl, List.mem_singleton] at hmem
          exact absurd (congrArg Rule.name hmem) (by decide)
        · exact (unbroken_bookSayings_iff _).2 (h file hfile book hbook) m hm
      · rw [report_books_other i g s fun book id h => hcall ⟨book, id, h⟩] at hf
        cases hf
    · exact onLine_of_provided hprovided hbooks hnames i d hd f hf

/-- A text of two lines, in which only the source of an image is cited. -/
theorem one_line_for_image_source :
    let text := "<b>x\ny<img src=\"a/b\"></b><br>"
    let files : List RecordFile := [⟨"a.json", [.book { id := "b", text := some text }]⟩]
    (∀ file ∈ files, ∀ record ∈ file.records, record.NamedOnLine) ∧
    (∃ report, (Run.standard {} files).outcome = .ok report ∧
      report.map Finding.line = ["Book b contains invalid IMG SRC a/b", "Book b is not used"] ∧
      (reportText report).toList.count '\n' = 2) ∧
    ∀ piece, Cited text piece → Unbroken piece := by
  intro text files
  have hnames : ∀ file ∈ files, ∀ record ∈ file.records, record.NamedOnLine := by
    intro file hfile record hrecord
    rw [List.mem_singleton.1 hfile] at hrecord
    rw [List.mem_singleton.1 hrecord]
    exact (by decide : Unbroken "b")
  have hlines : (Run.standard {} files).report.map Finding.line =
      ["Book b contains invalid IMG SRC a/b", "Book b is not used"] := by decide +kernel
  obtain ⟨report, houtcome, hcount, hcited⟩ := one_line_per_finding_iff {} hnames
  obtain rfl := Run.report_of_outcome houtcome
  have honLine : ∀ f ∈ (Run.standard {} files).report, Unbroken f.line := fun f hf => by
    have hline := List.mem_map_of_mem (f := Finding.line) hf
    rw [hlines] at hline
    exact (by decide +kernel : ∀ line ∈ ["Book b contains invalid IMG SRC a/b", "Book b is not used"], Unbroken line)
      _ hline
  refine ⟨hnames, ⟨_, houtcome, hlines, ?_⟩, ?_⟩
  · rw [hcount.2 honLine, ← List.length_map Finding.line, hlines]
    rfl
  · rcases hcited.1 honLine with h | h
    · cases h
    · exact h ⟨"a.json", [.book { id := "b", text := some text }]⟩ List.mem_cons_self _ List.mem_cons_self

/-- **A finding may take two lines**: text that is not shown is cited as it is written. -/
theorem invisible_text_on_two_lines :
    let files : List RecordFile := [⟨"a.json", [.book { id := "b", text := some "<b>x\ny" }]⟩]
    (∀ file ∈ files, ∀ record ∈ file.records, record.NamedOnLine) ∧
    (Run.standard {} files).outcome =
      .ok [⟨"Book", "b", "contains invisible text x\ny"⟩, ⟨"Book", "b", "is not used"⟩] ∧
    ¬ Unbroken (Finding.line ⟨"Book", "b", "contains invisible text x\ny"⟩) ∧
    reportText [⟨"Book", "b", "contains invisible text x\ny"⟩, ⟨"Book", "b", "is not used"⟩] =
      "Book b contains invisible text x\ny\nBook b is not used\n" := by
  intro files
  have hreport : (Run.standard {} files).report =
      [⟨"Book", "b", "contains invisible text x\ny"⟩, ⟨"Book", "b", "is not used"⟩] := by decide +kernel
  refine ⟨?_, ?_, by decide +kernel, by decide +kernel⟩
  · intro file hfile record hrecord
    rw [List.mem_singleton.1 hfile] at hrecord
    rw [List.mem_singleton.1 hrecord]
    exact (by decide : Unbroken "b")
  · rw [outcome_standard, hreport]

end CommandLine
end WorldAudit
