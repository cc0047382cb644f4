import WorldAudit.Audit.Stream
/-!
# Protocol — what files give rise to, place by place

The reference for the stream.  Every call is said by its place: the topic of a record is the latest one at or before
it, an entry comes with its place in the whole list, and a file is known as the last one by its number.  The stream,
which carries the topic from record to record, is the same (`groups_eq_reference`).
-/
namespace WorldAudit
namespace Protocol

def dialogue? : Record → Option Dialogue
  | .dialogue d => some d
  | _ => none

/-- The topic of the record at place `j` of a file: the latest one at or before it. -/
def topicAt (records : List Record) (j : Nat) : Option Dialogue :=
  ((records.take (j + 1)).filterMap dialogue?).getLast?

/-- What is told of a record of a topic after the record itself: what it holds, each entry with its place in the whole
list, the response, and the lines of its script. -/
def innerCalls (topic : Option Dialogue) : Record → List Call
  | .cell cell => cell.references.zipIdx.map fun (r, i) => .reference cell r (Text.lower r.id) i
  | .levelled k list => list.entries.zipIdx.map fun (e, i) => .levelledEntry (.levelled k list) e (Text.lower e.id) i
  | .actor k actor => actor.inventory.zipIdx.map fun (e, i) => .inventoryEntry (.actor k actor) e (Text.lower e.id) i
  | .info info =>
    .info info topic :: (Script.lines (info.result.getD "")).map fun line => .scriptLine (.info info) line topic
  | .script script => (Script.lines script.text).map fun line => .scriptLine (.script script) line none
  | _ => []

/-- All that is told of a record of a topic. -/
def callsOf (topic : Option Dialogue) (record : Record) : List Call :=
  .record record (Text.lower record.id) :: innerCalls topic record

/-- The groups of a file: a record's calls at its place. -/
def fileGroups (ctx : Context) (records : List Record) : List Group :=
  records.zipIdx.map fun (record, j) => ⟨ctx, some record, callsOf (topicAt records j) record⟩

/-- The path that the end is told with: the last file's, empty without files. -/
def lastPath (files : List RecordFile) : String :=
  match files.getLast? with
  | some file => file.path
  | none => ""

/-- The groups of the records of all files: file by file, the last one known as such by its number. -/
def recordGroups (settings : Settings) (files : List RecordFile) : List Group :=
  files.zipIdx.flatMap fun (file, k) => fileGroups ⟨settings, file.path, k + 1 == files.length⟩ file.records

def lastGroup (settings : Settings) (files : List RecordFile) : Group :=
  ⟨⟨settings, lastPath files, true⟩, none, [.finish]⟩

/-- Everything that a rule is told of files, in its order. -/
def reference (settings : Settings) (files : List RecordFile) : List Group :=
  recordGroups settings files ++ [lastGroup settings files]

theorem finish_notMem_recordGroups (settings : Settings) (files : List RecordFile) :
    ∀ g ∈ recordGroups settings files, Call.finish ∉ g.calls := by
  intro g hg
  obtain ⟨p, _, hg⟩ := List.mem_flatMap.1 hg
  obtain ⟨⟨record, j⟩, _, rfl⟩ := List.mem_map.1 hg
  cases record <;> simp [callsOf, innerCalls]

/-- A record is told of in its own group. -/
theorem record_of_mem_calls {settings : Settings} {files : List RecordFile} :
    ∀ g ∈ reference settings files, ∀ record id, Call.record record id ∈ g.calls → g.record = some record := by
  intro g hg record id hc
  rcases List.mem_append.1 hg with hg | hg
  · obtain ⟨p, _, hg⟩ := List.mem_flatMap.1 hg
    obtain ⟨⟨record', j⟩, _, rfl⟩ := List.mem_map.1 hg
    cases record' <;> simp [callsOf, innerCalls] at hc <;> rw [hc.1]
  · rw [List.mem_singleton.1 hg] at hc
    cases List.mem_singleton.1 hc

/-! ## The stream is the reference -/

theorem recordCalls_eq (topic : Option Dialogue) (record : Record) :
    Stream.recordCalls topic record = callsOf topic record := by
  cases record <;>
    simp [Stream.recordCalls, Stream.entryCalls, Stream.infoCalls, Stream.lineCalls, callsOf, innerCalls,
        List.mapIdx_eq_zipIdx_map]

theorem topicAfter_eq (topic : Option Dialogue) (record : Record) :
    Stream.topicAfter topic record = (dialogue? record).or topic := by
  cases record <;> rfl

theorem topicAt_zero (record : Record) (records : List Record) : topicAt (record :: records) 0 = dialogue? record := by
  unfold topicAt
  rw [Nat.zero_add, List.take_succ_cons, List.take_zero, List.filterMap_cons]
  cases dialogue? record <;> rfl

theorem topicAt_succ (record : Record) (records : List Record) (j : Nat) :
    topicAt (record :: records) (j + 1) = (topicAt records j).or (dialogue? record) := by
  unfold topicAt
  rw [List.take_succ_cons, List.filterMap_cons]
  cases dialogue? record with
  | none => rw [Option.or_none]
  | some d => rw [List.getLast?_cons]; cases (List.filterMap dialogue? (List.take (j + 1) records)).getLast? <;> rfl

/-- The stream of some records after a topic gives each of them the latest topic at or before it, and to those before
the first one the topic at the start. -/
theorem streamRecordGroups_eq (ctx : Context) : ∀ (records : List Record) (topic : Option Dialogue),
    Stream.recordGroups ctx topic records =
      records.zipIdx.map fun (record, j) => ⟨ctx, some record, callsOf ((topicAt records j).or topic) record⟩
  | [], _ => rfl
  | record :: records, topic => by
    rw [Stream.recordGroups, streamRecordGroups_eq ctx records, recordCalls_eq, topicAfter_eq, List.zipIdx_cons,
      List.map_cons, List.zipIdx_succ, List.map_map]
    dsimp only
    rw [topicAt_zero]
    refine congrArg _ (List.map_congr_left fun p _ => ?_)
    dsimp only [Function.comp_apply]
    rw [topicAt_succ, Option.or_assoc]

theorem streamRecordGroups_none (ctx : Context) (records : List Record) :
    Stream.recordGroups ctx none records = fileGroups ctx records := by
  rw [streamRecordGroups_eq]
  simp only [Option.or_none]
  rfl

theorem streamFileGroups_eq (settings : Settings) (n : Nat) : ∀ (files : List RecordFile) (k : Nat),
    k + files.length = n → Stream.fileGroups settings files =
      (files.zipIdx k).flatMap fun (file, k) => fileGroups ⟨settings, file.path, k + 1 == n⟩ file.records
  | [], _, _ => rfl
  | file :: files, k, h => by
    rw [List.length_cons] at h
    -- the stream knows the last file by there being none after it, the reference by its number
    have hlast : (k + 1 == n) = files.isEmpty := by
      cases files with
      | nil => simpa using h
      | cons f fs => rw [List.length_cons] at h; simp; omega
    rw [Stream.fileGroups, List.zipIdx_cons, List.flatMap_cons, streamRecordGroups_none,
      streamFileGroups_eq settings n files (k + 1) (by omega)]
    dsimp only
    rw [hlast]

/-- **The stream is the reference**: every record is told of with the latest topic at or before it in its own file. -/
theorem groups_eq_reference (settings : Settings) (files : List RecordFile) :
    Stream.groups settings files = reference settings files := by
  unfold Stream.groups reference recordGroups
  rw [streamFileGroups_eq settings files.length files 0 (Nat.zero_add _)]
  unfold Stream.lastGroup lastGroup lastPath
  cases files.getLast? <;> rfl

end Protocol
end WorldAudit
