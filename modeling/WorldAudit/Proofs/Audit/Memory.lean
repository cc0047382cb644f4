import WorldAudit.Proofs.Audit.Lockstep
import WorldAudit.Proofs.Audit.Protocol
/-!
# Memory — rules that go from record to record

A rule speaks while it is told of records (`Run.during`), and once more at the end (`Run.atEnd`).  A rule that never
fails is taken by every record, with all that the record holds, from one memory to the next.  What it says of a record
depends on the memory of the records before it, and what it says at the end on the memory of all.
-/
namespace WorldAudit

namespace Protocol

/-- The records of files, each in the context in which it is told of. -/
def told (settings : Settings) (files : List RecordFile) : List (Context × Record) :=
  files.zipIdx.flatMap fun (file, k) => file.records.map (⟨settings, file.path, k + 1 == files.length⟩, ·)

/-- A group that tells of a record in a context, whatever its topic. -/
def TellsOf (p : Context × Record) (g : Group) : Prop := ∃ topic, g = ⟨p.1, some p.2, callsOf topic p.2⟩

theorem tellsOf_recordGroups (settings : Settings) (files : List RecordFile) :
    List.Forall₂ TellsOf (told settings files) (recordGroups settings files) := by
  have hfile : ∀ (ctx : Context) (records : List Record),
      List.Forall₂ TellsOf (records.map (ctx, ·)) (fileGroups ctx records) := fun ctx records => by
    conv => lhs; rw [← List.zipIdx_map_fst 0 records, List.map_map]
    rw [fileGroups, List.forall₂_map_left_iff, List.forall₂_map_right_iff, List.forall₂_same]
    intro p _
    exact ⟨_, rfl⟩
  refine List.rel_flatMap (List.forall₂_same.2 fun p _ => rfl) ?_
  rintro p _ rfl
  exact hfile _ _

theorem map_snd_told (settings : Settings) (files : List RecordFile) :
    (told settings files).map Prod.snd = files.flatMap (·.records) := by
  conv => rhs; rw [← List.zipIdx_map_fst 0 files, List.flatMap_map]
  rw [told, List.map_flatMap]
  simp [Function.comp_def]

/-- Of the files the last one alone is known as such. -/
theorem told_concat (settings : Settings) (front : List RecordFile) (last : RecordFile) :
    ∃ earlier, told settings (front ++ [last]) = earlier ++ last.records.map (⟨settings, last.path, true⟩, ·) ∧
      (∀ p ∈ earlier, p.1.isLast = false) ∧ earlier.map Prod.snd = front.flatMap (·.records) := by
  refine ⟨front.zipIdx.flatMap fun (file, k) =>
    file.records.map (⟨settings, file.path, k + 1 == (front ++ [last]).length⟩, ·), ?_, fun p hp => ?_, ?_⟩
  · rw [told, List.zipIdx_append, List.flatMap_append]
    simp
  · obtain ⟨⟨file, k⟩, hk, hp⟩ := List.mem_flatMap.1 hp
    obtain ⟨record, _, rfl⟩ := List.mem_map.1 hp
    have hlt := (List.mem_zipIdx hk).2.1
    simp only [List.length_append, List.length_singleton, beq_eq_false_iff_ne, ne_eq]
    omega
  · conv => rhs; rw [← List.zipIdx_map_fst 0 front, List.flatMap_map]
    rw [List.map_flatMap]
    simp [Function.comp_def]

/-- A call for what a record holds tells neither of a record nor of the end. -/
theorem innerCalls_ne {topic : Option Dialogue} {record : Record} :
    ∀ call ∈ innerCalls topic record, (∀ r id, call ≠ .record r id) ∧ call ≠ .finish := by
  cases record <;> simp +contextual [innerCalls] <;> grind

end Protocol

namespace Rule

variable {r : Rule}

/-- What a rule finds in calls that it is told one after another. -/
def found (r : Rule) (ctx : Context) : List Call → r.State → List Finding
  | [], _ => []
  | call :: calls, s => (r.step ctx call s).findings ++ found r ctx calls (r.step ctx call s).state

/-- Where such calls leave it. -/
def reached (r : Rule) (ctx : Context) (calls : List Call) (s : r.State) : r.State :=
  calls.foldl (fun s call => (r.step ctx call s).state) s

section Faultless

variable (hfault : ∀ ctx call s, (r.step ctx call s).fault = none) (i : Nat) (g : Group)

include hfault

theorem report_deliver_of_no_fault (call : Call) (s : r.State) :
    (r.deliver i g call s).report = (r.step g.context call s).findings := by
  rw [Delivery.report, Delivery.faultFindings]
  simp [deliver, hfault]

theorem stateAfter_of_no_fault : ∀ (calls : List Call) (s : r.State),
    r.stateAfter g calls s = r.reached g.context calls s
  | [], _ => rfl
  | call :: calls, s => by
    rw [stateAfter, hfault, Option.isSome_none, if_neg Bool.false_ne_true, stateAfter_of_no_fault calls]
    rfl

theorem report_part_of_no_fault : ∀ (calls : List Call) (s : r.State),
    (r.part i g calls s).flatMap Delivery.report = r.found g.context calls s
  | [], _ => rfl
  | call :: calls, s => by
    rw [part, hfault, Option.isSome_none, if_neg Bool.false_ne_true, List.flatMap_cons,
      report_deliver_of_no_fault hfault, report_part_of_no_fault calls, found]

end Faultless

/-- **A rule that goes from record to record**: it never fails, and to be told of a record and of all that it holds
takes it from one memory to the next.  It says `say` then, and learns `learn`. -/
structure Remembers (r : Rule) (say : Context → Record → r.State → List Finding)
    (learn : Context → Record → r.State → r.State) : Prop where
  fault : ∀ ctx call s, (r.step ctx call s).fault = none
  found : ∀ ctx topic record s, r.found ctx (Protocol.callsOf topic record) s = say ctx record s
  reached : ∀ ctx topic record s, r.reached ctx (Protocol.callsOf topic record) s = learn ctx record s

/-- Calls that a rule pays no heed to leave it where it is. -/
theorem heedless {ctx : Context} : ∀ {calls : List Call} (s : r.State),
    (∀ call ∈ calls, ∀ s, r.step ctx call s = { state := s }) → r.found ctx calls s = [] ∧ r.reached ctx calls s = s
  | [], _, _ => ⟨rfl, rfl⟩
  | call :: calls, s, h => by
    obtain ⟨hfound, hreached⟩ := heedless s fun c hc => h c (List.mem_cons_of_mem call hc)
    rw [Rule.found, Rule.reached, List.foldl_cons, h call List.mem_cons_self]
    exact ⟨hfound, hreached⟩

/-- **A rule that heeds records alone**, and the end, goes from record to record. -/
theorem remembers_of_records (hfault : ∀ ctx call s, (r.step ctx call s).fault = none)
    (hother : ∀ ctx call s, (∀ record id, call ≠ .record record id) → call ≠ .finish →
      r.step ctx call s = { state := s }) :
    r.Remembers (fun ctx record s => (r.step ctx (.record record (Text.lower record.id)) s).findings)
      (fun ctx record s => (r.step ctx (.record record (Text.lower record.id)) s).state) := by
  have hinner : ∀ ctx topic record (s : r.State), r.found ctx (Protocol.innerCalls topic record) s = [] ∧
      r.reached ctx (Protocol.innerCalls topic record) s = s := fun ctx topic record s =>
    heedless s fun call hcall s => by
      obtain ⟨hrecord, hfinish⟩ := Protocol.innerCalls_ne call hcall
      exact hother ctx call s hrecord hfinish
  refine ⟨hfault, fun ctx topic record s => ?_, fun ctx topic record s => ?_⟩
  · rw [Protocol.callsOf, Rule.found, (hinner ctx topic record _).1, List.append_nil]
  · exact (hinner ctx topic record _).2

section Memory

variable {σ : Type} (say : Context → Record → σ → List Finding) (learn : Context → Record → σ → σ)

/-- The memory of records. -/
def memory (ps : List (Context × Record)) (s : σ) : σ := ps.foldl (fun s p => learn p.1 p.2 s) s

/-- What is said of records one after another. -/
def sayings : List (Context × Record) → σ → List Finding
  | [], _ => []
  | p :: ps, s => say p.1 p.2 s ++ sayings ps (learn p.1 p.2 s)

theorem memory_cons (p : Context × Record) (ps : List (Context × Record)) (s : σ) :
    memory learn (p :: ps) s = memory learn ps (learn p.1 p.2 s) := rfl

theorem memory_append (ps qs : List (Context × Record)) (s : σ) :
    memory learn (ps ++ qs) s = memory learn qs (memory learn ps s) := List.foldl_append

theorem sayings_append : ∀ (ps qs : List (Context × Record)) (s : σ),
    sayings say learn (ps ++ qs) s = sayings say learn ps s ++ sayings say learn qs (memory learn ps s)
  | [], _, _ => rfl
  | p :: ps, qs, s => by
    rw [List.cons_append, sayings, sayings, sayings_append ps, List.append_assoc]
    rfl

/-- **Of every record is said what the memory of those before it gives.** -/
theorem sayings_eq : ∀ (ps : List (Context × Record)) (s : σ),
    sayings say learn ps s = ps.zipIdx.flatMap fun (p, n) => say p.1 p.2 (memory learn (ps.take n) s)
  | [], _ => rfl
  | p :: ps, s => by
    rw [sayings, sayings_eq ps, List.zipIdx_cons', List.flatMap_cons, List.flatMap_map]
    rfl

theorem sayings_eq_nil : ∀ (ps : List (Context × Record)) (s : σ), (∀ p ∈ ps, ∀ s, say p.1 p.2 s = []) →
    sayings say learn ps s = []
  | [], _, _ => rfl
  | p :: ps, s, h => by
    rw [sayings, h p List.mem_cons_self, sayings_eq_nil ps _ fun q hq => h q (List.mem_cons_of_mem p hq)]
    rfl

/-- Where memory is not asked, it is said of every record by itself. -/
theorem sayings_of_record (f : Record → List Finding) : ∀ (ps : List (Context × Record)) (s : σ),
    sayings (fun _ record _ => f record) learn ps s = (ps.map Prod.snd).flatMap f
  | [], _ => rfl
  | p :: ps, s => by rw [sayings, sayings_of_record f ps, List.map_cons, List.flatMap_cons]

end Memory

section Parts

variable {say : Context → Record → r.State → List Finding} {learn : Context → Record → r.State → r.State}
  (h : r.Remembers say learn) (i : Nat)

include h

theorem Remembers.report_parts {ps : List (Context × Record)} {gs : List Group}
    (hgs : List.Forall₂ Protocol.TellsOf ps gs) (s : r.State) :
    (r.parts i gs s).flatten.flatMap Delivery.report = sayings say learn ps s := by
  induction hgs generalizing s with
  | nil => rfl
  | @cons p g ps gs hg _ ih =>
    obtain ⟨topic, rfl⟩ := hg
    rw [parts, List.flatten_cons, List.flatMap_append, ih, report_part_of_no_fault h.fault,
      stateAfter_of_no_fault h.fault, h.found, h.reached, sayings]

theorem Remembers.stateAfterAll {ps : List (Context × Record)} {gs : List Group}
    (hgs : List.Forall₂ Protocol.TellsOf ps gs) (s : r.State) : r.stateAfterAll gs s = memory learn ps s := by
  induction hgs generalizing s with
  | nil => rfl
  | @cons p g ps gs hg _ ih =>
    obtain ⟨topic, rfl⟩ := hg
    rw [Rule.stateAfterAll, List.foldl_cons, ← Rule.stateAfterAll, ih, stateAfter_of_no_fault h.fault, h.reached]
    rfl

end Parts

end Rule

namespace Run

/-- What the rule at a seat says while it is told of records. -/
def during (run : Run) (i : Nat) : List Finding :=
  (run.log.filter fun d => d.seat == i && d.record.isSome).flatMap Delivery.report

/-- What it says at the end. -/
def atEnd (run : Run) (i : Nat) : List Finding :=
  (run.log.filter fun d => d.seat == i && d.record.isNone).flatMap Delivery.report

theorem filter_seat_record (log : List Delivery) (i : Nat) (p : Option Record → Bool) :
    log.filter (fun d => d.seat == i && p d.record) = (log.filter (·.seat == i)).filter (p ·.record) := by
  rw [List.filter_filter]
  exact List.filter_congr fun d _ => Bool.and_comm _ _

section Seat

variable {settings : Settings} {rules : List Rule} {files : List RecordFile} {i : Nat} {r : Rule}
  (hr : rules[i]? = some r) (hrun : (Run.of settings rules files).violation = none)

include hr hrun

/-- The deliveries to a seat: its rule's parts of the records, and then what it answers to the end. -/
theorem filter_seat : (Run.of settings rules files).log.filter (·.seat == i) =
    (r.parts i (Protocol.recordGroups settings files) r.initial).flatten ++
      [r.deliver i (Protocol.lastGroup settings files) .finish
        (r.stateAfterAll (Protocol.recordGroups settings files) r.initial)] := by
  rw [(log_eq_due_of_log (kept_of_violation hrun)).1, filter_due _ hr, Protocol.groups_eq_reference,
    Protocol.reference, r.parts_concat, List.flatten_append, List.flatten_singleton]
  unfold Protocol.lastGroup
  rw [Rule.part, Rule.part, ite_self]

/-- **What a rule says of the records and what it says at the end**, at its seat in any run that is not ended. -/
theorem during_atEnd_eq :
    (Run.of settings rules files).during i =
      (r.parts i (Protocol.recordGroups settings files) r.initial).flatten.flatMap Delivery.report ∧
    (Run.of settings rules files).atEnd i =
      (r.deliver i (Protocol.lastGroup settings files) .finish
        (r.stateAfterAll (Protocol.recordGroups settings files) r.initial)).report := by
  have hrecord : ∀ d ∈ (r.parts i (Protocol.recordGroups settings files) r.initial).flatten,
      d.record.isSome = true := fun d hd => by
    obtain ⟨g, hg, call, _, s, rfl⟩ := r.exists_call_of_mem_parts i hd
    obtain ⟨p, _, hg⟩ := List.mem_flatMap.1 hg
    obtain ⟨p', _, rfl⟩ := List.mem_map.1 hg
    rfl
  have hnone : ∀ d ∈ (r.parts i (Protocol.recordGroups settings files) r.initial).flatten,
      ¬ d.record.isNone = true := fun d hd => by
    obtain ⟨record, hsome⟩ := Option.isSome_iff_exists.1 (hrecord d hd)
    rw [hsome]
    exact Bool.false_ne_true
  rw [during, atEnd, filter_seat_record _ i (·.isSome), filter_seat_record _ i (·.isNone), filter_seat hr hrun,
    List.filter_append, List.filter_append, List.filter_eq_self.2 hrecord, List.filter_eq_nil_iff.2 hnone]
  exact ⟨congrArg (List.flatMap _) (List.append_nil _), List.append_nil _⟩

/-- **A rule says what it says of the records, and then what it says at the end.** -/
theorem report_eq_during_atEnd : ((Run.of settings rules files).log.filter (·.seat == i)).flatMap Delivery.report =
    (Run.of settings rules files).during i ++ (Run.of settings rules files).atEnd i := by
  obtain ⟨hduring, hend⟩ := during_atEnd_eq hr hrun
  rw [hduring, hend, filter_seat hr hrun, List.flatMap_append, List.flatMap_singleton]

/-- **What a rule that goes from record to record says.** -/
theorem during_of_remembers {say : Context → Record → r.State → List Finding}
    {learn : Context → Record → r.State → r.State} (h : r.Remembers say learn) :
    (Run.of settings rules files).during i = Rule.sayings say learn (Protocol.told settings files) r.initial ∧
    (Run.of settings rules files).atEnd i =
      (r.step (Protocol.lastGroup settings files).context .finish
        (Rule.memory learn (Protocol.told settings files) r.initial)).findings := by
  obtain ⟨hduring, hend⟩ := during_atEnd_eq hr hrun
  have htold := Protocol.tellsOf_recordGroups settings files
  rw [hduring, hend, h.report_parts i htold, h.stateAfterAll htold]
  exact ⟨rfl, Rule.report_deliver_of_no_fault h.fault i _ _ _⟩

end Seat

end Run

end WorldAudit
