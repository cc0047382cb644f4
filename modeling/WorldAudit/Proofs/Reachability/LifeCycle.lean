import Mathlib.Data.List.TakeWhile
import WorldAudit.Proofs.Audit.Isolation
import WorldAudit.Proofs.Reachability.Gathering
/-!
# LifeCycle — a tracker that is called directly

The rule for reachability keeps its order without the dispatcher.  Calls may be made to it in any order, in any contexts
and with anything in them: up to the first end it gathers and says nothing, at the end it says what is left over, and
from then on it refuses every call and stays as it is (`tracker_life_cycle`).
-/
namespace WorldAudit

namespace Rule

variable (r : Rule)

/-- Where calls that are made to a rule directly, each in its own context, leave it. -/
def driven (told : List (Context × Call)) (s : r.State) : r.State :=
  told.foldl (fun s p => (r.step p.1 p.2 s).state) s

/-- What the rule adds to the report in their course. -/
def reported : List (Context × Call) → r.State → List Finding
  | [], _ => []
  | p :: told, s => (r.step p.1 p.2 s).findings ++ reported told (r.step p.1 p.2 s).state

theorem driven_append (told told' : List (Context × Call)) (s : r.State) :
    r.driven (told ++ told') s = r.driven told' (r.driven told s) := List.foldl_append

theorem reported_append : ∀ (told told' : List (Context × Call)) (s : r.State),
    r.reported (told ++ told') s = r.reported told s ++ r.reported told' (r.driven told s)
  | [], _, _ => rfl
  | p :: told, told', s => by
    rw [List.cons_append, reported, reported, reported_append told, List.append_assoc]
    rfl

end Rule

namespace Rules

/-- What a tracker holds: what is declared, by id, and which ids and indices are used. -/
structure Holdings where
  declaredScripts : Catalog String
  declaredEnchantments : Catalog String
  declaredObjects : Catalog (Kind × String)
  declaredJournals : Catalog String
  /-- The indices of a journal topic. -/
  declaredIndices : String → List Int
  usedScripts : String → Bool
  usedEnchantments : String → Bool
  usedObjects : String → Bool
  usedIndices : String → Int → Bool

/-- What facts, the earliest first, come to. -/
def Holdings.of (facts : List Fact) : Holdings where
  declaredScripts := Rules.declaredScripts facts
  declaredEnchantments := Rules.declaredEnchantments facts
  declaredObjects := Rules.declaredObjects facts
  declaredJournals := Rules.declaredJournals facts
  declaredIndices topic := Rules.declaredIndices topic facts
  usedScripts id := facts.contains (.usesScript id)
  usedEnchantments id := facts.contains (.usesEnchantment id)
  usedObjects id := facts.contains (.usesObject id)
  usedIndices topic n := facts.contains (.usesIndex topic n)

def ReachabilityState.holdings (s : ReachabilityState) : Holdings := .of s.facts.reverse

namespace LifeCycle

/-- The calls before the first end. -/
def beforeEnd (told : List (Context × Call)) : List (Context × Call) := told.takeWhile fun p => !p.2.isFinish

/-- Whether the end is among the calls. -/
def ended (told : List (Context × Call)) : Bool := told.any fun p => p.2.isFinish

def facts (told : List (Context × Call)) : List Fact := told.flatMap fun p => Fact.ofCall p.1.mode p.2

/-- A tracker that has been told of the end, with the facts it had then, latest first. -/
def closed (facts : List Fact) : reachability.State := ReachabilityState.mk facts true

/-! ## One call -/

theorem step_open (ctx : Context) {call : Call} (h : call.isFinish = false) (fs : List Fact) :
    reachability.step ctx call (gathered fs) = { state := gathered ((Fact.ofCall ctx.mode call).reverse ++ fs) } :=
  step_gathered ctx (by rintro rfl; cases h) fs

theorem step_end (ctx : Context) {call : Call} (h : call.isFinish = true) (fs : List Fact) :
    reachability.step ctx call (gathered fs) = { state := closed fs, findings := orphans fs.reverse } := by
  cases call with
  | finish => rfl
  | _ => cases h

/-- **After the end a call is refused**, whatever it is, and leaves nothing behind. -/
theorem step_closed (ctx : Context) (call : Call) (fs : List Fact) :
    reachability.step ctx call (closed fs) =
      { state := closed fs, fault := some (.contract s!"{call.name} called after on_end") } := rfl

/-! ## Any number of calls -/

theorem driven_open : ∀ {told : List (Context × Call)} (fs : List Fact), ended told = false →
    reachability.driven told (gathered fs) = gathered ((facts told).reverse ++ fs) ∧
    reachability.reported told (gathered fs) = []
  | [], _, _ => ⟨rfl, rfl⟩
  | p :: told, fs, h => by
    rw [ended, List.any_cons, Bool.or_eq_false_iff] at h
    obtain ⟨hstate, hreport⟩ := driven_open ((Fact.ofCall p.1.mode p.2).reverse ++ fs) h.2
    rw [Rule.driven, List.foldl_cons, ← Rule.driven, Rule.reported, step_open p.1 h.1]
    refine ⟨hstate.trans ?_, hreport⟩
    rw [facts, facts, List.flatMap_cons, List.reverse_append, List.append_assoc]

theorem driven_closed : ∀ (told : List (Context × Call)) (fs : List Fact),
    reachability.driven told (closed fs) = closed fs ∧ reachability.reported told (closed fs) = []
  | [], _ => ⟨rfl, rfl⟩
  | p :: told, fs => by
    rw [Rule.driven, List.foldl_cons, ← Rule.driven, Rule.reported, step_closed p.1 p.2]
    exact driven_closed told fs

theorem ended_beforeEnd (told : List (Context × Call)) : ended (beforeEnd told) = false := by
  rw [ended, List.any_eq_false]
  intro p hp
  simpa using List.all_eq_true.1 List.all_takeWhile p hp

/-- The first end stands behind the calls before it. -/
theorem exists_end {told : List (Context × Call)} (h : ended told = true) :
    ∃ ctx after, told = beforeEnd told ++ (ctx, Call.finish) :: after := by
  induction told with
  | nil => cases h
  | cons p told ih =>
    obtain ⟨ctx, call⟩ := p
    rw [ended, List.any_cons] at h
    cases hcall : call.isFinish with
    | true =>
      cases call with
      | finish => exact ⟨ctx, told, rfl⟩
      | _ => cases hcall
    | false =>
      rw [hcall, Bool.false_or] at h
      obtain ⟨ctx', after, heq⟩ := ih h
      refine ⟨ctx', after, ?_⟩
      conv => lhs; rw [heq]
      rw [beforeEnd, beforeEnd, List.takeWhile_cons_of_pos (by simp [hcall])]
      rfl

theorem beforeEnd_of_not_ended {told : List (Context × Call)} (h : ended told = false) : beforeEnd told = told := by
  refine List.takeWhile_eq_self_iff.2 fun p hp => ?_
  simpa using List.any_eq_false.1 h p hp

theorem driven_end {front : List (Context × Call)} (h : ended front = false) (ctx : Context)
    (after : List (Context × Call)) :
    reachability.driven (front ++ (ctx, .finish) :: after) (gathered []) = closed (facts front).reverse ∧
    reachability.reported (front ++ (ctx, .finish) :: after) (gathered []) = orphans (facts front) := by
  obtain ⟨hstate, hreport⟩ := driven_open [] h
  obtain ⟨hstate', hreport'⟩ := driven_closed after (facts front).reverse
  have hend := step_end ctx (show Call.finish.isFinish = true from rfl) (facts front).reverse
  rw [List.append_nil] at hstate
  rw [Rule.driven_append, Rule.reported_append, hreport, hstate, Rule.driven, List.foldl_cons, ← Rule.driven,
    Rule.reported, hend]
  dsimp only
  rw [hreport', List.reverse_reverse, List.append_nil]
  exact ⟨hstate', rfl⟩

/-- **Where calls leave a tracker, and what it says in their course**: it holds the facts up to the first end, and has
said what is left over then. -/
theorem driven_eq (told : List (Context × Call)) :
    reachability.driven told reachability.initial = ⟨(facts (beforeEnd told)).reverse, ended told⟩ ∧
    reachability.reported told reachability.initial =
      if ended told then orphans (facts (beforeEnd told)) else [] := by
  cases h : ended told with
  | false =>
    obtain ⟨hstate, hreport⟩ := driven_open [] h
    rw [List.append_nil] at hstate
    rw [beforeEnd_of_not_ended h]
    exact ⟨hstate, hreport⟩
  | true =>
    obtain ⟨ctx, after, heq⟩ := exists_end h
    have hdriven := driven_end (ended_beforeEnd told) ctx after
    rw [← heq] at hdriven
    exact hdriven

end LifeCycle

open LifeCycle in
/-- **The life of a tracker.**  After calls in any order, with anything in them, a further call succeeds as long as the
end has not been among them, and adds findings only if it is the end.  Once the end has been among them every call is
refused for being out of order, adds nothing to the report and leaves all that the tracker holds as it was: what was
declared and used before the first end.  The report is what the first end has said. -/
theorem tracker_life_cycle (told : List (Context × Call)) (ctx : Context) (call : Call) :
    let s := reachability.driven told reachability.initial
    let reply := reachability.step ctx call s
    (ended told = false → reply.fault = none ∧ (reply.findings ≠ [] → call = .finish)) ∧
    (ended told = true →
      reply.fault = some (.contract s!"{call.name} called after on_end") ∧ reply.findings = [] ∧
        reply.state = s ∧ ReachabilityState.holdings reply.state = ReachabilityState.holdings s) ∧
    ReachabilityState.holdings s = .of (facts (beforeEnd told)) ∧
    reachability.reported told reachability.initial =
      if ended told then orphans (facts (beforeEnd told)) else [] := by
  intro s reply
  obtain ⟨hstate, hreport⟩ := driven_eq told
  refine ⟨fun h => ?_, fun h => ?_, ?_, hreport⟩
  · have hs : s = gathered (facts (beforeEnd told)).reverse := by
      rw [show s = _ from hstate, h]
      rfl
    cases hcall : call.isFinish with
    | false =>
      rw [show reply = _ from congrArg (reachability.step ctx call) hs, step_open ctx hcall]
      exact ⟨rfl, fun hne => absurd rfl hne⟩
    | true =>
      rw [show reply = _ from congrArg (reachability.step ctx call) hs, step_end ctx hcall]
      refine ⟨rfl, fun _ => ?_⟩
      cases call with
      | finish => rfl
      | _ => cases hcall
  · have hs : s = closed (facts (beforeEnd told)).reverse := by
      rw [show s = _ from hstate, h]
      rfl
    have hreply : reply = _ := (congrArg (reachability.step ctx call) hs).trans (step_closed ctx call _)
    rw [hreply, hs]
    exact ⟨rfl, rfl, rfl, rfl⟩
  · rw [show s = _ from hstate, ReachabilityState.holdings, List.reverse_reverse]

/-- A script is declared, the tracker ends, and a second script comes too late. -/
theorem script_after_end_is_refused :
    let ctx : Context := ⟨{}, "a.json", true⟩
    let told := [(ctx, .record (.script { id := "Main" }) "main"), (ctx, .finish)]
    let late : Call := .record (.script { id := "Late" }) "late"
    let s := reachability.driven told reachability.initial
    (reachability.step ctx .finish (reachability.driven (told.take 1) reachability.initial)).fault = none ∧
    (reachability.step ctx late s).fault = some (.contract "on_record called after on_end") ∧
    (reachability.step ctx late s).state = s ∧
    reachability.reported told reachability.initial = [⟨"Script", "Main", "is never started"⟩] := by
  intro ctx told late s
  have hended := (tracker_life_cycle told ctx late).2.1 rfl
  exact ⟨((tracker_life_cycle (told.take 1) ctx .finish).1 rfl).1, hended.1, hended.2.2.1, by decide +kernel⟩

end Rules
end WorldAudit
