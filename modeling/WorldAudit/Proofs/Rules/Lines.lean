import WorldAudit.CommandLine.Answer
import WorldAudit.Proofs.Audit.NamesOnLine
import WorldAudit.Proofs.Reachability.Orphans
import WorldAudit.Proofs.Rules.Books
import WorldAudit.Proofs.Rules.Conduct
/-!
# Lines — rules that speak on one line

A rule speaks on one line if what it says and what it remembers are on one line as long as the names it is given are
(`Rule.SpeaksOnLine`, `Rule.onLine_parts`).  So do all rules but two: that for books, which cites texts of books, and that
for reachability, which speaks at the end, of ids as they were declared (`onLine_of_mem_orphans`).
-/
namespace WorldAudit

open Text (Unbroken unbroken_append unbroken_nat unbroken_int)

namespace Rule

/-- **A rule that says everything on one line** as long as it is given names on one line: it holds nothing in its state
that it could not say so. -/
def SpeaksOnLine (r : Rule) : Prop :=
  ∃ holds : r.State → Prop, holds r.initial ∧ ∀ ctx call s, call.NamedOnLine → holds s →
    (∀ f ∈ (r.step ctx call s).findings, f.OnLine) ∧ holds (r.step ctx call s).state

theorem speaksOnLine_stateless {name : String} {findings : Context → Call → List Finding × Option Fault}
    (h : ∀ ctx call, call.NamedOnLine → ∀ f ∈ (findings ctx call).1, f.OnLine) :
    (Rule.stateless name findings).SpeaksOnLine :=
  ⟨fun _ => True, trivial, fun ctx call _ hcall _ => ⟨h ctx call hcall, trivial⟩⟩

variable (r : Rule) (i : Nat) (holds : r.State → Prop) (g : Group)
  (hstep : ∀ ctx call s, call.NamedOnLine → holds s →
    (∀ f ∈ (r.step ctx call s).findings, f.OnLine) ∧ holds (r.step ctx call s).state)

include hstep

theorem onLine_part : ∀ (calls : List Call) (s : r.State), (∀ call ∈ calls, call.NamedOnLine) → holds s →
    (∀ d ∈ r.part i g calls s, ∀ f ∈ d.findings, f.OnLine) ∧ holds (r.stateAfter g calls s)
  | [], s, _, hs => ⟨fun _ hd => absurd hd List.not_mem_nil, hs⟩
  | call :: calls, s, hcalls, hs => by
    obtain ⟨hfindings, hnext⟩ := hstep g.context call s (hcalls call List.mem_cons_self) hs
    obtain ⟨hrest, hafter⟩ := onLine_part calls _ (fun c hc => hcalls c (List.mem_cons_of_mem call hc)) hnext
    rw [part, stateAfter]
    split
    · refine ⟨fun d hd => ?_, hnext⟩
      rw [List.mem_singleton.1 hd]
      exact hfindings
    · refine ⟨fun d hd => ?_, hafter⟩
      rcases List.mem_cons.1 hd with rfl | hd
      · exact hfindings
      · exact hrest d hd

theorem onLine_parts : ∀ (gs : List Group) (s : r.State), (∀ g ∈ gs, ∀ call ∈ g.calls, call.NamedOnLine) → holds s →
    ∀ d ∈ (r.parts i gs s).flatten, ∀ f ∈ d.findings, f.OnLine
  | [], _, _, _, d, hd => by cases hd
  | g :: gs, s, hgs, hs, d, hd => by
    obtain ⟨hpart, hafter⟩ := r.onLine_part i holds g hstep g.calls s (hgs g List.mem_cons_self) hs
    rw [parts, List.flatten_cons] at hd
    rcases List.mem_append.1 hd with hd | hd
    · exact hpart d hd
    · exact onLine_parts gs _ (fun g' hg => hgs g' (List.mem_cons_of_mem g hg)) hafter d hd

end Rule

namespace Rules

theorem unbroken_infoSubject {info : Info} {topic : Option Dialogue} (hid : Unbroken info.id)
    (htopic : TopicOnLine topic) : Unbroken (infoSubject info topic) := by
  cases topic with
  | none => exact hid
  | some d => exact unbroken_append.2 ⟨unbroken_append.2 ⟨hid, by decide⟩, htopic d rfl⟩

theorem speaksOnLine_workNotes : workNotes.SpeaksOnLine := by
  refine Rule.speaksOnLine_stateless fun ctx call hcall f hf => ?_
  cases call with
  | scriptLine owner line topic =>
    obtain ⟨howner, hcomment, htopic⟩ := hcall
    have hmessage : Unbroken s!"contains comment {line.comment}" := unbroken_append.2 ⟨by decide, hcomment⟩
    dsimp only at hf
    split at hf
    · cases hf
    · rw [List.mem_singleton.1 hf]
      unfold aboutScript
      split
      · exact Finding.onLine_mk (by decide) (unbroken_infoSubject howner htopic) hmessage
      · exact howner.onLine_about hmessage
  | _ => cases hf

theorem speaksOnLine_typography : typography.SpeaksOnLine := by
  have hmessages : ∀ info topic, ∀ m ∈ infoMessages info topic, Unbroken m := fun info topic m hm => by
    simp only [infoMessages, typographyMessages] at hm
    have : m = "has no text" ∨ m = "contains double spaces" ∨ m = "contains a single hyphen" ∨
        m = "contains an overlong ellipsis" := by grind
    rcases this with rfl | rfl | rfl | rfl <;> decide
  refine Rule.speaksOnLine_stateless fun ctx call hcall f hf => ?_
  cases call with
  | info info topic =>
    obtain ⟨m, hm, rfl⟩ := List.mem_map.1 hf
    exact Finding.onLine_mk (by decide) (unbroken_infoSubject hcall.1 hcall.2) (hmessages info topic m hm)
  | _ => cases hf

theorem unbroken_triple (t : Triple) : Unbroken t.text := by
  have hcoordinate : ∀ x, Unbroken (coordinateText x) := fun x => Number.Binary.unbroken_text (by decide) x
  simp only [Triple.text, unbroken_append]
  exact ⟨⟨⟨⟨⟨⟨by decide, hcoordinate _⟩, by decide⟩, hcoordinate _⟩, by decide⟩, hcoordinate _⟩, by decide⟩

theorem unbroken_duplicateMessage {a : Reference} (h : Unbroken a.id) (b : Reference) :
    Unbroken (duplicateMessage a b) := by
  show Unbroken
    ("contains duplicate reference " ++ a.id ++ " at position " ++ a.position.text ++ " " ++ b.position.text)
  simp only [unbroken_append]
  exact ⟨⟨⟨⟨⟨by decide, h⟩, by decide⟩, unbroken_triple a.position⟩, by decide⟩,
    unbroken_triple b.position⟩

theorem speaksOnLine_duplicates (threshold : Number.Single) : (duplicates threshold).SpeaksOnLine := by
  refine Rule.speaksOnLine_stateless fun ctx call hcall f hf => ?_
  cases call with
  | reference cell reference id index =>
    obtain ⟨other, _, rfl⟩ := List.mem_map.1 hf
    exact Finding.onLine_mk (by decide) hcall.1.subject (unbroken_duplicateMessage hcall.2 other)
  | _ => cases hf

theorem speaksOnLine_levelledLists : levelledLists.SpeaksOnLine := by
  -- an entry is spoken of at the end only, so what is pending has to be on one line until then
  refine ⟨fun s => ∀ p ∈ s.pending, Unbroken p.list ∧ Unbroken p.entry, fun _ hp => absurd hp List.not_mem_nil, ?_⟩
  intro ctx call s hcall hs
  have hnone : ∀ f ∈ ([] : List Finding), f.OnLine := fun _ hf => by cases hf
  cases call with
  | record record id =>
    cases record with
    | levelled kind list =>
      have hrecord : (Record.levelled kind list).NamedOnLine := hcall
      have hfindings : ∀ f ∈ (if lacksAllLevels kind list then
          [Finding.about (.levelled kind list) "is not calculated for all levels"] else []), f.OnLine := fun f hf => by
        split at hf
        · rw [List.mem_singleton.1 hf]
          exact hrecord.onLine_about (by decide)
        · cases hf
      simp only [levelledLists, levelledStep]
      split
      · exact ⟨hfindings, hs⟩
      · exact ⟨hfindings, hs⟩
    | _ => exact ⟨hnone, hs⟩
  | levelledEntry owner entry id index => exact ⟨hnone, List.forall_mem_cons.2 ⟨⟨hcall.1.id, hcall.2⟩, hs⟩⟩
  | finish =>
    refine ⟨fun f hf => ?_, hs⟩
    obtain ⟨p, hp, hf⟩ := List.mem_filterMap.1 hf
    obtain ⟨hlist, hentry⟩ := hs p (List.mem_reverse.1 hp)
    unfold PendingEntry.finding? at hf
    split at hf
    · split at hf
      · cases hf
        refine Finding.onLine_mk p.kind.unbroken_name hlist ?_
        simp only [unbroken_append]
        exact ⟨⟨⟨⟨by decide, hentry⟩, by decide⟩, unbroken_nat _⟩, by decide⟩
      · cases hf
    · cases hf
  | _ => exact ⟨hnone, hs⟩

theorem speaksOnLine_populated (least : Nat) : (populated least).SpeaksOnLine := by
  refine ⟨fun s => ∀ c ∈ s.cells, Unbroken c.name, fun _ hc => absurd hc List.not_mem_nil, ?_⟩
  intro ctx call s hcall hs
  have hnone : ∀ f ∈ ([] : List Finding), f.OnLine := fun _ hf => by cases hf
  cases call with
  | record record id =>
    cases record with
    | cell cell =>
      have hrecord : (Record.cell cell).NamedOnLine := hcall
      have hname := hrecord.subject
      simp only [populated, populationStep]
      split
      · refine ⟨fun f hf => ?_, List.forall_mem_cons.2 ⟨hname, hs⟩⟩
        split at hf
        · rw [List.mem_singleton.1 hf]
          refine Finding.onLine_mk (by decide) hname ?_
          simp only [unbroken_append]
          exact ⟨⟨by decide, unbroken_nat _⟩, by decide⟩
        · cases hf
      · exact ⟨hnone, hs⟩
    | pathGrid grid =>
      simp only [populated, populationStep]
      split <;> exact ⟨hnone, hs⟩
    | _ =>
      simp only [populated, populationStep]
      split <;> exact ⟨hnone, hs⟩
  | finish =>
    refine ⟨fun f hf => ?_, hs⟩
    obtain ⟨c, hc, rfl⟩ := List.mem_map.1 hf
    exact Finding.onLine_mk (by decide) (hs c (List.mem_reverse.1 (List.mem_filter.1 hc).1)) (by decide)
  | _ => exact ⟨hnone, hs⟩

theorem mem_of_similarTo? {lower : String} {tolerated : Nat} {other : SeenName} {distance : Nat} :
    ∀ {seen : List SeenName}, similarTo? lower tolerated seen = some (other, distance) → other ∈ seen
  | [], h => by cases h
  | first :: seen, h => by
    simp only [similarTo?] at h
    split at h
    · cases h
      exact List.mem_cons_self
    · exact List.mem_cons_of_mem first (mem_of_similarTo? h)

theorem speaksOnLine_similarNames : similarNames.SpeaksOnLine := by
  refine ⟨fun (seen : List SeenName) => ∀ n ∈ seen, Unbroken n.id ∧ Unbroken n.name,
    fun _ hn => absurd hn List.not_mem_nil, ?_⟩
  intro ctx call seen hcall hseen
  have hnone : ∀ f ∈ ([] : List Finding), f.OnLine := fun _ hf => by cases hf
  cases call with
  | record record id =>
    cases record with
    | actor kind npc =>
      cases kind with
      | npc =>
        have hrecord : (Record.actor .npc npc).NamedOnLine := hcall
        have hname : Unbroken (npc.name.getD "") := unbroken_getD hrecord.2
        simp only [similarNames, similarNamesStep]
        split
        · exact ⟨hnone, hseen⟩
        · refine ⟨fun f hf => ?_, List.forall_mem_append.2 ⟨hseen, List.forall_mem_singleton.2 ⟨hrecord.1, hname⟩⟩⟩
          split at hf
          · rename_i other distance hother
            obtain ⟨hotherId, hotherName⟩ := hseen other (mem_of_similarTo? hother)
            rw [List.mem_singleton.1 hf]
            refine hrecord.onLine_about ?_
            simp only [unbroken_append]
            exact ⟨⟨⟨⟨⟨⟨⟨by decide, hname⟩, by decide⟩, hotherId⟩, by decide⟩, hotherName⟩, by decide⟩,
              unbroken_nat distance⟩
          · cases hf
      | _ => exact ⟨hnone, hseen⟩
    | _ => exact ⟨hnone, hseen⟩
  | _ => exact ⟨hnone, hseen⟩

/-! ## Reachability -/

/-- The id as it is written in a declaration. -/
def Fact.written? : Fact → Option String
  | .declaresScript _ written | .declaresEnchantment _ written | .declaresObject _ _ written
  | .declaresJournal _ written => some written
  | _ => none

theorem written?_eq_none {fact : Fact}
    (h : Fact.declaredScript? fact = none ∧ Fact.declaredEnchantment? fact = none ∧ Fact.declaredObject? fact = none ∧
      Fact.declaredJournal? fact = none) : fact.written? = none := by
  obtain ⟨hscript, henchantment, hobject, hjournal⟩ := h
  cases fact with
  | declaresScript => cases hscript
  | declaresEnchantment => cases henchantment
  | declaresObject => cases hobject
  | declaresJournal => cases hjournal
  | _ => rfl

theorem written?_of_mem_ofAttachments {record : Record} {fact : Fact} (h : fact ∈ Fact.ofAttachments record) :
    fact.written? = none := by
  rcases List.mem_append.1 h with h | h
  · obtain ⟨_, _, rfl⟩ := Option.map_eq_some_iff.1 (Option.mem_toList.1 h)
    rfl
  · obtain ⟨_, _, rfl⟩ := Option.map_eq_some_iff.1 (Option.mem_toList.1 h)
    rfl

theorem id_of_mem_ofDeclaration {record : Record} {id written : String} {fact : Fact}
    (h : fact ∈ Fact.ofDeclaration record id) (hwritten : fact.written? = some written) : record.id = written := by
  unfold Fact.ofDeclaration at h
  split at h
  · rw [List.mem_singleton.1 h] at hwritten
    exact Option.some.inj hwritten
  · rw [List.mem_singleton.1 h] at hwritten
    exact Option.some.inj hwritten
  · split at h
    · rw [List.mem_singleton.1 h] at hwritten
      exact Option.some.inj hwritten
    · cases h
  · split at h
    · rw [List.mem_singleton.1 h] at hwritten
      exact Option.some.inj hwritten
    · cases h

/-- Only what is said of a record itself depends on the mode. -/
theorem ofCall_eq_td {mode : Option Mode} {call : Call} (h : ∀ r id, call ≠ .record r id) :
    Fact.ofCall mode call = Fact.ofCall (some .td) call := by
  cases call with
  | record r id => exact absurd rfl (h r id)
  | _ => rfl

/-- **What is declared is the id of a record.** -/
theorem exists_record_of_written {mode : Option Mode} {files : List RecordFile} {fact : Fact} {written : String}
    (h : fact ∈ Fact.ofFiles mode files) (hwritten : fact.written? = some written) :
    ∃ file ∈ files, ∃ record ∈ file.records, record.id = written := by
  obtain ⟨file, hfile, h⟩ := List.mem_flatMap.1 h
  obtain ⟨⟨record, j⟩, hrecord, h⟩ := List.mem_flatMap.1 h
  obtain ⟨call, hc, hfact⟩ := List.mem_flatMap.1 h
  refine ⟨file, hfile, record, List.fst_mem_of_mem_zipIdx hrecord, ?_⟩
  by_cases hcall : ∃ r id, call = .record r id
  · obtain ⟨r, id, rfl⟩ := hcall
    have hr : r = record := by
      cases record <;> simp [Protocol.callsOf, Protocol.innerCalls] at hc <;> exact hc.1
    subst hr
    rw [Fact.ofCall] at hfact
    split at hfact
    · cases hfact
    · rcases List.mem_append.1 hfact with hfact | hfact
      · exact id_of_mem_ofDeclaration hfact hwritten
      · rw [written?_of_mem_ofAttachments hfact] at hwritten
        cases hwritten
  · rw [ofCall_eq_td fun r id hr => hcall ⟨r, id, hr⟩] at hfact
    rw [written?_eq_none (Fact.declares_nothing call fact hfact)] at hwritten
    cases hwritten

/-- The declarations of one kind show ids as they are written. -/
theorem unbroken_declared {facts : List Fact} (h : ∀ fact ∈ facts, ∀ written ∈ fact.written?, Unbroken written)
    {β : Type} {declared? : Fact → Option β} (shown : β → String)
    (hshown : ∀ fact e, declared? fact = some e → fact.written? = some (shown e)) {e : β}
    (he : e ∈ facts.filterMap declared?) : Unbroken (shown e) := by
  obtain ⟨fact, hfact, hd⟩ := List.mem_filterMap.1 he
  exact h fact hfact _ (hshown fact e hd)

theorem onLine_of_mem_orphans {facts : List Fact} (h : ∀ fact ∈ facts, ∀ written ∈ fact.written?, Unbroken written) :
    ∀ f ∈ orphans facts, f.OnLine := by
  intro f hf
  have hscript : ∀ e ∈ declaredScripts facts, Unbroken e.2 := fun e he => by
    rw [declaredScripts_eq] at he
    refine unbroken_declared h Prod.snd (fun fact e hd => ?_) (Catalog.mem_of_mem_ofEntries he)
    cases fact <;> cases hd
    rfl
  have henchantment : ∀ e ∈ declaredEnchantments facts, Unbroken e.2 := fun e he => by
    rw [declaredEnchantments_eq] at he
    refine unbroken_declared h Prod.snd (fun fact e hd => ?_) (Catalog.mem_of_mem_ofEntries he)
    cases fact <;> cases hd
    rfl
  have hobject : ∀ e ∈ declaredObjects facts, Unbroken e.2.2 := fun e he => by
    rw [declaredObjects_eq] at he
    refine unbroken_declared h (fun e => e.2.2) (fun fact e hd => ?_) (Catalog.mem_of_mem_ofEntries he)
    cases fact <;> cases hd
    rfl
  have hjournal : ∀ e ∈ declaredJournals facts, Unbroken e.2 := fun e he => by
    rw [declaredJournals_eq] at he
    refine unbroken_declared h Prod.snd (fun fact e hd => ?_) (Catalog.mem_of_mem_ofFirstEntries he)
    cases fact <;> cases hd
    rfl
  have hunused : Unbroken "is not used" := by decide
  rcases List.mem_append.1 hf with hf | hf
  · rcases List.mem_append.1 hf with hf | hf
    · rcases List.mem_append.1 hf with hf | hf
      · obtain ⟨e, he, rfl⟩ := List.mem_map.1 hf
        exact Finding.onLine_mk (by decide) (hscript e (List.mem_filter.1 he).1) (by decide)
      · obtain ⟨e, he, rfl⟩ := List.mem_map.1 hf
        exact Finding.onLine_mk (by decide) (henchantment e (List.mem_filter.1 he).1) hunused
    · obtain ⟨e, he, rfl⟩ := List.mem_map.1 hf
      exact Finding.onLine_mk e.2.1.unbroken_name (hobject e (List.mem_filter.1 he).1) hunused
  · obtain ⟨e, he, hf⟩ := List.mem_flatMap.1 hf
    unfold journalFindings at hf
    split at hf
    · obtain ⟨n, _, rfl⟩ := List.mem_map.1 hf
      exact Finding.onLine_mk (by decide) (hjournal e he) (unbroken_append.2 ⟨by decide, unbroken_int n⟩)
    · rw [List.mem_singleton.1 hf]
      exact Finding.onLine_mk (by decide) (hjournal e he) hunused

end Rules
end WorldAudit
