import WorldAudit.Proofs.Audit.Memoryless
import WorldAudit.Proofs.Rules.Books
/-!
# BookReports — what a run reports of books

The rule for books is told of a book once and says all of it then, or why its text is no markup (`report_books`).  In a
run it brings what there is to say of one book after another (`report_of_books`), whatever other rules there are.
-/
namespace WorldAudit
namespace Rules

section Books

variable (i : Nat) (g : Group) (s : books.State)

theorem report_books {book : Book} (hrecord : g.record = some (.book book)) (id : String) :
    (books.deliver i g (.record (.book book) id) s).report =
      (bookSayings (book.text.getD "")).map (Finding.about (.book book)) := by
  by_cases hempty : (book.text.getD "").isEmpty = true
  · have hstep : books.step g.context (.record (.book book) id) s = ⟨(), [], none⟩ := by
      simp [books, Rule.stateless, hempty]
    rw [Rule.deliver, hstep, String.isEmpty_iff.1 hempty]
    rfl
  · cases hmessages : bookMessages (book.text.getD "") with
    | error fault =>
      have hstep : books.step g.context (.record (.book book) id) s = ⟨(), [], some (.markup fault)⟩ := by
        simp [books, Rule.stateless, hempty, hmessages]
      rw [Rule.deliver, hstep, bookSayings, hmessages, Delivery.report, Delivery.faultFindings, hrecord]
      rfl
    | ok messages =>
      have hstep : books.step g.context (.record (.book book) id) s =
          ⟨(), messages.map (Finding.about (.book book)), none⟩ := by
        simp [books, Rule.stateless, hempty, hmessages]
      rw [Rule.deliver, hstep, bookSayings, hmessages]
      exact List.append_nil _

theorem report_books_other {call : Call} (h : ∀ book id, call ≠ .record (.book book) id) :
    (books.deliver i g call s).report = [] := by
  cases call with
  | record record id =>
    cases record with
    | book book => exact absurd rfl (h book id)
    | _ => rfl
  | _ => rfl

end Books

/-! ## Runs -/

/-- What there is to say of the text of a record, if it is a book. -/
def recordSayings : Record → List Finding
  | .book book => (bookSayings (book.text.getD "")).map (Finding.about (.book book))
  | _ => []

/-- What there is to say of the text of a book, where a record is told of. -/
def callSayings : Call → List Finding
  | .record record _ => recordSayings record
  | _ => []

theorem report_books_eq {g : Group} {call : Call} (h : ∀ record id, call = .record record id → g.record = some record)
    (i : Nat) (s : books.State) : (books.deliver i g call s).report = callSayings call := by
  cases call with
  | record record id =>
    cases record with
    | book book => exact report_books i g s (h _ id rfl) id
    | _ => rfl
  | _ => rfl

theorem callSayings_of_mem_innerCalls {topic : Option Dialogue} {record : Record} {call : Call}
    (h : call ∈ Protocol.innerCalls topic record) : callSayings call = [] := by
  cases call with
  | record record' id => cases record <;> simp [Protocol.innerCalls] at h
  | _ => rfl

theorem judges_books {settings : Settings} {files : List RecordFile} :
    ∀ g ∈ Protocol.reference settings files, books.Judges callSayings g := by
  intro g hg
  refine ⟨fun call hcall i s => ?_, ?_⟩
  · refine report_books_eq (fun record id hrecord => ?_) i s
    exact Protocol.record_of_mem_calls g hg record id (hrecord ▸ hcall)
  · rcases List.mem_append.1 hg with hg | hg
    · obtain ⟨p, _, hg⟩ := List.mem_flatMap.1 hg
      obtain ⟨⟨record, j⟩, _, rfl⟩ := List.mem_map.1 hg
      -- a book is told of in the first call of its group, so nothing is lost to a fault
      refine List.pairwise_cons.2 ⟨fun call hcall _ => callSayings_of_mem_innerCalls hcall, ?_⟩
      exact List.pairwise_of_forall_mem_list fun _ _ call hcall _ => callSayings_of_mem_innerCalls hcall
    · rw [List.mem_singleton.1 hg]
      exact List.pairwise_singleton _ _

/-- **What a run reports of books**: of each what there is to say, one after another. -/
theorem report_of_books {settings : Settings} {rules : List Rule} {files : List RecordFile} {i : Nat}
    (hr : rules[i]? = some books) (hrun : (Run.of settings rules files).violation = none) :
    ((Run.of settings rules files).log.filter (·.seat == i)).flatMap Delivery.report =
      (files.flatMap (·.records)).flatMap recordSayings := by
  rw [Run.report_of_judges judges_books hr (Run.kept_of_violation hrun)]
  refine Protocol.flatMap_calls rfl (fun topic record => ?_) files
  rw [Protocol.callsOf, List.flatMap_cons, List.flatMap_eq_nil_iff.2 fun _ => callSayings_of_mem_innerCalls]
  exact List.append_nil _

end Rules
end WorldAudit
