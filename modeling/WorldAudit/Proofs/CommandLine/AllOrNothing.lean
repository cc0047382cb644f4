import WorldAudit.CommandLine.Answer
import WorldAudit.Proofs.File.Stages
import WorldAudit.Proofs.Rules.Conduct
/-!
# AllOrNothing — findings of all files, or none

Files are loaded before anything is checked, so that one that cannot be loaded leaves the output empty.  Once they are
loaded nothing ends the run.
-/
namespace WorldAudit

/-- The file at a path, where its text can be read and is that of a record file. -/
def RecordFile.Loads (text? : String → Option String) (path : String) (file : RecordFile) : Prop :=
  file.path = path ∧ ∃ content, text? path = some content ∧ parseRecords path content = .ok file.records

namespace RecordFile

variable {text? : String → Option String}

theorem loadEach_paths_eq_ok {paths : List String} {files : List RecordFile} :
    loadEach (paths.map fun path => (path, text? path)) = .ok files ↔ List.Forall₂ (Loads text?) paths files := by
  rw [loadEach_eq_ok, List.forall₂_map_left_iff]
  rfl

/-- Where there is a file at every path, all of them load. -/
theorem exists_files : ∀ {paths : List String}, (∀ path ∈ paths, ∃ file, Loads text? path file) →
    ∃ files, List.Forall₂ (Loads text?) paths files
  | [], _ => ⟨[], .nil⟩
  | path :: paths, h => by
    obtain ⟨file, hfile⟩ := h path List.mem_cons_self
    obtain ⟨files, hfiles⟩ := exists_files fun path' hp => h path' (List.mem_cons_of_mem path hp)
    exact ⟨file :: files, .cons hfile hfiles⟩

theorem loads_of_mem {paths : List String} {files : List RecordFile} (h : List.Forall₂ (Loads text?) paths files) :
    ∀ path ∈ paths, ∃ file, Loads text? path file := by
  induction h with
  | nil => exact fun _ hp => absurd hp List.not_mem_nil
  | @cons path file paths files hfile _ ih =>
    intro path' hp
    rcases List.mem_cons.1 hp with rfl | hp
    · exact ⟨file, hfile⟩
    · exact ih path' hp

end RecordFile

namespace CommandLine

open RecordFile (Loads)

/-- There is nothing to be checked without paths. -/
theorem paths_of_request {arguments : List String} {environment : Option String} {o : Options}
    (h : request arguments environment = .audit o) : o.paths ≠ [] := by
  unfold request at h
  cases hread : readArguments environment {} none arguments with
  | audit read =>
    rw [hread] at h
    dsimp only at h
    cases hmode : read.withDefaultMode? environment with
    | none => rw [hmode] at h; cases h
    | some asked =>
      rw [hmode] at h
      dsimp only at h
      split at h
      · cases h
      · rename_i hpaths
        cases h
        exact fun hnil => hpaths (by rw [hnil]; rfl)
  | help => rw [hread] at h; cases h
  | version => rw [hread] at h; cases h
  | refused => rw [hread] at h; cases h

section Checks

variable {text? : String → Option String} {paths : List String} (settings : Settings)

theorem check_of_loads (hpaths : paths ≠ []) {files : List RecordFile} (h : List.Forall₂ (Loads text?) paths files) :
    check settings (paths.map fun path => (path, text? path)) = ⟨0, reportText (Run.standard settings files).report⟩ := by
  have hall := RecordFile.loadEach_paths_eq_ok.2 h
  rw [← RecordFile.loadAll_of_ne_nil (by simpa using hpaths)] at hall
  unfold check
  rw [hall]
  dsimp only
  rw [Rules.outcome_standard]

theorem check_of_not_loads (h : ¬ ∀ path ∈ paths, ∃ file, Loads text? path file) :
    check settings (paths.map fun path => (path, text? path)) = ⟨1, ""⟩ := by
  have hpaths : paths ≠ [] := fun hnil => h (by rw [hnil]; exact fun _ hp => absurd hp List.not_mem_nil)
  unfold check
  rw [RecordFile.loadAll_of_ne_nil (by simpa using hpaths)]
  cases hall : RecordFile.loadEach (paths.map fun path => (path, text? path)) with
  | error fault => rfl
  | ok files => exact absurd (RecordFile.loads_of_mem (RecordFile.loadEach_paths_eq_ok.1 hall)) h

end Checks

/-- **The command line gives the findings of all files, or nothing.**  Where there is a record file at every path the
output is the report, a finding on a line, and the exit code is zero; where at one of them there is none the output is
empty and the exit code is one.  It never comes to a violation: of the rules of the library, in any number and order,
none ends a run, and only the rule for books fails, at books. -/
theorem all_or_nothing {arguments : List String} {environment : Option String} {o : Options}
    (h : request arguments environment = .audit o) (text? : String → Option String) :
    let answer := (request arguments environment).answer text?
    ((answer.exit = 0 ↔ ∀ path ∈ o.paths, ∃ file, Loads text? path file) ∧
      ((∀ path ∈ o.paths, ∃ file, Loads text? path file) → ∃ files, List.Forall₂ (Loads text?) o.paths files ∧
        answer = ⟨0, String.join ((Run.standard o.settings files).report.map fun f => f.line ++ "\n")⟩) ∧
      ((¬ ∀ path ∈ o.paths, ∃ file, Loads text? path file) → answer = ⟨1, ""⟩)) ∧
    (∀ settings files, (Run.standard settings files).outcome = .ok (Run.standard settings files).report) ∧
    ∀ rules, (∀ r ∈ rules, Rules.Provided r) → ∀ settings files,
      (Run.of settings rules files).outcome = .ok (Run.of settings rules files).report ∧
      ∀ d ∈ (Run.of settings rules files).log, ∀ fault, d.fault = some fault →
        rules[d.seat]? = some Rules.books ∧
          ∃ book markupFault, d.record = some (.book book) ∧ fault = .markup markupFault := by
  intro answer
  have hanswer : answer = check o.settings (o.paths.map fun path => (path, text? path)) := by
    show (request arguments environment).answer text? = _
    rw [h]
    rfl
  have hgood : (∀ path ∈ o.paths, ∃ file, Loads text? path file) → ∃ files,
      List.Forall₂ (Loads text?) o.paths files ∧ answer = ⟨0, reportText (Run.standard o.settings files).report⟩ :=
    fun hall => by
      obtain ⟨files, hfiles⟩ := RecordFile.exists_files hall
      exact ⟨files, hfiles, hanswer.trans (check_of_loads o.settings (paths_of_request h) hfiles)⟩
  have hbad : (¬ ∀ path ∈ o.paths, ∃ file, Loads text? path file) → answer = ⟨1, ""⟩ :=
    fun hnot => hanswer.trans (check_of_not_loads o.settings hnot)
  refine ⟨⟨⟨fun hexit => ?_, fun hall => ?_⟩, hgood, hbad⟩, Rules.outcome_standard, fun rules hrules settings files =>
    ⟨Rules.outcome_of_provided hrules settings files, (Rules.run_of_provided hrules settings files).2⟩⟩
  · by_contra hnot
    rw [hbad hnot] at hexit
    cases hexit
  · obtain ⟨files, _, hfiles⟩ := hgood hall
    rw [hfiles]

/-- A file is checked by itself; beside a second one that cannot be read nothing is said of it. -/
theorem second_file_unreadable :
    let content := "[\x7b\"type\":\"Script\",\"id\":\"Main\",\"text\":\";TODO\"\x7d]"
    let text? := fun path => if path = "a.json" then some content else none
    (request ["a.json", "--mode", "PT"] none = .audit { paths := ["a.json"], mode := some .pt } ∧
      (request ["a.json", "--mode", "PT"] none).answer text? =
        ⟨0, "Script Main contains comment TODO\nScript Main is never started\n"⟩) ∧
    request ["a.json", "--mode", "PT", "b.json"] none = .audit { paths := ["a.json", "b.json"], mode := some .pt } ∧
    (request ["a.json", "--mode", "PT", "b.json"] none).answer text? = ⟨1, ""⟩ := by
  intro content text?
  have hone : request ["a.json", "--mode", "PT"] none = .audit { paths := ["a.json"], mode := some .pt } := by rfl
  have htwo : request ["a.json", "--mode", "PT", "b.json"] none =
      .audit { paths := ["a.json", "b.json"], mode := some .pt } := by rfl
  have hparse : RecordFile.parseRecords "a.json" content = .ok [.script ⟨"Main", ";TODO"⟩] := by
    dsimp only [content]
    rfl
  have hfile : Loads text? "a.json" ⟨"a.json", [.script ⟨"Main", ";TODO"⟩]⟩ := ⟨rfl, content, rfl, hparse⟩
  refine ⟨⟨hone, ?_⟩, htwo, (all_or_nothing htwo text?).1.2.2 fun hall => ?_⟩
  · obtain ⟨files, hfiles, hanswer⟩ := (all_or_nothing hone text?).1.2.1 fun path hpath =>
      ⟨_, List.mem_singleton.1 hpath ▸ hfile⟩
    have hloaded := RecordFile.loadEach_paths_eq_ok.2 hfiles
    rw [RecordFile.loadEach_paths_eq_ok.2 (.cons hfile .nil)] at hloaded
    obtain rfl := Except.ok.inj hloaded
    exact hanswer.trans (by decide +kernel)
  · obtain ⟨file, _, unread, hunread, _⟩ := hall "b.json" (by simp)
    cases hunread

end CommandLine
end WorldAudit
