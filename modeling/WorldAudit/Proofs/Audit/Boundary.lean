import WorldAudit.Proofs.Audit.Interleaving
/-!
# Boundary — where one file ends and the next begins

A new file forgets the topic, and only the last file is known as such.  So two files that follow one another may as well
be one, if the second finds its topics in itself or the first has none to leave behind, and if inhabitants are not
counted (`adjacent_files_merge`).
-/
namespace WorldAudit

namespace Stream

/-- **Records that find their topics among themselves**: a topic stands before every response. -/
def OwnTopics (records : List Record) : Prop :=
  ∀ front info back, records = front ++ .info info :: back → ∃ d, .dialogue d ∈ front

theorem OwnTopics.tail {record : Record} {records : List Record} (h : OwnTopics (record :: records))
    (hrecord : ∀ d, record ≠ .dialogue d) : OwnTopics records := by
  rintro front info back rfl
  obtain ⟨d, hd⟩ := h (record :: front) info back rfl
  rcases List.mem_cons.1 hd with hd | hd
  · exact absurd hd.symm (hrecord d)
  · exact ⟨d, hd⟩

theorem recordGroups_append (ctx : Context) : ∀ (records records' : List Record) (topic : Option Dialogue),
    recordGroups ctx topic (records ++ records') =
      recordGroups ctx topic records ++ recordGroups ctx (records.foldl topicAfter topic) records'
  | [], _, _ => rfl
  | record :: records, records', topic => by
    rw [List.cons_append, recordGroups, recordGroups, recordGroups_append ctx records, List.cons_append]
    rfl

theorem foldl_topicAfter_of_no_dialogue : ∀ (records : List Record) (topic : Option Dialogue),
    (∀ d, .dialogue d ∉ records) → records.foldl topicAfter topic = topic
  | [], _, _ => rfl
  | record :: records, topic, h => by
    have hrecord : topicAfter topic record = topic := by
      cases record with
      | dialogue d => exact absurd List.mem_cons_self (h d)
      | _ => rfl
    rw [List.foldl_cons, hrecord]
    exact foldl_topicAfter_of_no_dialogue records topic fun d hd => h d (List.mem_cons_of_mem _ hd)

section Alike

variable {rules : List Rule} {ctx ctx' : Context}
  (hstep : ∀ r ∈ rules, ∀ call s, r.step ctx call s = r.step ctx' call s)

include hstep

theorem alike_group (record : Option Record) (calls : List Call) :
    Group.Alike rules ⟨ctx, record, calls⟩ ⟨ctx', record, calls⟩ :=
  ⟨rfl, fun r hr => ⟨rfl, rfl, hstep r hr⟩⟩

theorem alike_recordGroups : ∀ (records : List Record) (topic : Option Dialogue),
    List.Forall₂ (Group.Alike rules) (recordGroups ctx topic records) (recordGroups ctx' topic records)
  | [], _ => .nil
  | _ :: records, _ => .cons (alike_group hstep _ _) (alike_recordGroups records _)

/-- **Records that find their topics among themselves are told alike**, whatever the topic before them. -/
theorem alike_recordGroups_of_ownTopics : ∀ (records : List Record), OwnTopics records →
    ∀ topic topic' : Option Dialogue,
      List.Forall₂ (Group.Alike rules) (recordGroups ctx topic records) (recordGroups ctx' topic' records)
  | [], _, _, _ => .nil
  | record :: records, h, topic, topic' => by
    -- From the first topic on the topics are the same, and before it nothing is told that depends on them.
    cases record with
    | dialogue d => exact .cons (alike_group hstep _ _) (alike_recordGroups hstep records (some d))
    | info info =>
      obtain ⟨d, hd⟩ := h [] info records rfl
      cases hd
    | _ =>
      refine .cons (alike_group hstep _ _) (alike_recordGroups_of_ownTopics records (h.tail ?_) topic topic')
      rintro _ ⟨⟩

end Alike

section Merged

variable {rules : List Rule}
  (hstep : ∀ r ∈ rules, ∀ ctx ctx' : Context, ctx.mode = ctx'.mode → ∀ call s, r.step ctx call s = r.step ctx' call s)
  (settings : Settings) {a b : RecordFile} (htopics : OwnTopics b.records ∨ ∀ d, .dialogue d ∉ a.records)

include hstep

/-- A file's name and its place in the list are nothing to such rules. -/
theorem step_eq_of_settings (path path' : String) (isLast isLast' : Bool) :
    ∀ r ∈ rules, ∀ call s, r.step ⟨settings, path, isLast⟩ call s = r.step ⟨settings, path', isLast'⟩ call s :=
  fun r hr => hstep r hr ⟨settings, path, isLast⟩ ⟨settings, path', isLast'⟩ rfl

include htopics

theorem alike_merged_records (path : String) (isLast : Bool) :
    List.Forall₂ (Group.Alike rules)
      (recordGroups ⟨settings, a.path, false⟩ none a.records ++ recordGroups ⟨settings, b.path, isLast⟩ none b.records)
      (recordGroups ⟨settings, path, isLast⟩ none (a.records ++ b.records)) := by
  rw [recordGroups_append]
  refine List.rel_append
    (alike_recordGroups (step_eq_of_settings hstep settings a.path path false isLast) a.records none) ?_
  have hb := step_eq_of_settings hstep settings b.path path isLast isLast
  rcases htopics with hown | hnone
  · exact alike_recordGroups_of_ownTopics hb b.records hown none _
  · rw [foldl_topicAfter_of_no_dialogue a.records none hnone]
    exact alike_recordGroups hb b.records none

theorem alike_merged_files (path : String) (back : List RecordFile) : ∀ front : List RecordFile,
    List.Forall₂ (Group.Alike rules) (fileGroups settings (front ++ a :: b :: back))
      (fileGroups settings (front ++ ⟨path, a.records ++ b.records⟩ :: back))
  | [] => by
    simp only [List.nil_append, fileGroups, List.isEmpty_cons]
    rw [← List.append_assoc]
    exact List.rel_append (alike_merged_records hstep settings htopics path back.isEmpty)
      (List.forall₂_same.2 fun g _ => .refl rules g)
  | file :: front => by
    have hlast : ∀ next : RecordFile, ∀ rest, (front ++ next :: rest).isEmpty = false := fun next rest => by
      cases front <;> rfl
    simp only [List.cons_append, fileGroups, hlast]
    exact List.rel_append (List.forall₂_same.2 fun g _ => .refl rules g) (alike_merged_files path back front)

theorem alike_merged (path : String) (front back : List RecordFile) :
    List.Forall₂ (Group.Alike rules) (groups settings (front ++ a :: b :: back))
      (groups settings (front ++ ⟨path, a.records ++ b.records⟩ :: back)) :=
  List.rel_append (alike_merged_files hstep settings htopics path back front)
    (.cons (alike_group (step_eq_of_settings hstep settings _ _ true true) none [.finish]) .nil)

end Merged

end Stream

namespace Rules

theorem name_ne_population {settings : Settings} (h : settings.minInhabitants = none ∨ settings.similarNames = true)
    {r : Rule} (hr : r ∈ standard settings) : r.name ≠ "population" := by
  rcases h with hnone | hsimilar
  · rw [show settings = { settings with minInhabitants := none } by rw [← hnone], standard_asking_none] at hr
    exact bne_iff_ne.1 (List.mem_filter.1 hr).2
  · rw [standard, if_pos hsimilar] at hr
    rw [List.mem_singleton.1 hr]
    decide

end Rules

namespace Run

/-- **Two files that follow one another may be one.**  Where inhabitants are not counted, an ordinary run over both and
one over the records of both in a single file have the same report, if in the second file a topic stands before every
response, or if the first file has no topics. -/
theorem adjacent_files_merge {settings : Settings}
    (hsettings : settings.minInhabitants = none ∨ settings.similarNames = true) (front back : List RecordFile)
    {a b : RecordFile} (htopics : Stream.OwnTopics b.records ∨ ∀ d, .dialogue d ∉ a.records) (path : String) :
    ∃ report, (Run.standard settings (front ++ a :: b :: back)).outcome = .ok report ∧
      (Run.standard settings (front ++ ⟨path, a.records ++ b.records⟩ :: back)).outcome = .ok report := by
  have hprovided := Rules.provided_standard settings
  have hstep : ∀ r ∈ Rules.standard settings, ∀ ctx ctx' : Context, ctx.mode = ctx'.mode →
      ∀ call s, r.step ctx call s = r.step ctx' call s := fun r hr ctx ctx' hmode call s =>
    Rules.step_eq_of_mode (hprovided r hr) (Rules.name_ne_population hsettings hr) hmode call s
  refine ⟨_, ?_, Rules.outcome_standard _ _⟩
  rw [← Rules.outcome_standard]
  exact Rules.outcome_of_alike hprovided (Stream.alike_merged hstep settings htopics path front back)

/-- A file with a topic and its response, and one with a journal and its entry. -/
theorem topic_and_journal_merge :
    let a : RecordFile := ⟨"a.json", [.dialogue { id := "Hello" }, .info { id := "1" }]⟩
    let b : RecordFile := ⟨"b.json", [.dialogue { id := "Quest", type := .journal },
      .info { id := "2", data := { disposition := 10 } }]⟩
    Stream.OwnTopics b.records ∧
    (Run.standard {} [a, b]).outcome = (Run.standard {} [⟨"ab.json", a.records ++ b.records⟩]).outcome ∧
    (Run.standard {} [a, b]).report.map Finding.line =
      ["Info 1 in topic Hello has no text", "Journal Quest is not used"] := by
  intro a b
  have htopics : Stream.OwnTopics b.records := by
    rintro (_ | ⟨_, front⟩) info back hb
    · cases hb
    · obtain ⟨rfl, _⟩ := List.cons.inj hb
      exact ⟨_, List.mem_cons_self⟩
  have hnone : ({} : Settings).minInhabitants = none ∨ ({} : Settings).similarNames = true := .inl rfl
  obtain ⟨report, hboth, hone⟩ := adjacent_files_merge hnone [] [] (a := a) (.inl htopics) "ab.json"
  refine ⟨htopics, hboth.trans hone.symm, by decide +kernel⟩

/-- A response at the head of the second file would get a topic that it does not have. -/
example :
    let a : RecordFile := ⟨"a.json", [.dialogue { id := "Hello" }]⟩
    let b : RecordFile := ⟨"b.json", [.info { id := "1" }]⟩
    (Run.standard {} [a, b]).report.map Finding.line ≠
      (Run.standard {} [⟨"ab.json", a.records ++ b.records⟩]).report.map Finding.line := by
  decide +kernel

end Run

end WorldAudit
