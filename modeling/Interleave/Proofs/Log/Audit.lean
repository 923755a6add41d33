import Interleave.Proofs.Controller.Account
import Interleave.Proofs.Log.Story

/-!
# Auditing a log

The line of a controller step holds the decision and the state that it led to, so a log can be checked
without the curves and without the control law. The auditor reads line after line, knows the step limit
and keeps nothing but the last ratio that was shown (`LogEntry.audit`). At a controller step the decision
has to tell the ratio and the step of the line; other lines show at most another ratio.

Results:
* `decision?_withDecision`: the decision can be read off the entry.
* `Link.audit_events`: what is told about one observation passes, and leads to its ratio.
* `audit_entries`: so does the log of every run, from the configured ratio to that of the last observation.
* `decisions_account`: all that decisions tell, one by one and in the log of a run.
* `cut_against_step`: from a ratio out of range, the bound need not be on the side of the step.
-/
namespace Interleave

/-! ## Reading -/

namespace Json

def bool? : Json → Option Bool
  | bool b => some b
  | _ => none

def int? : Json → Option Int
  | number (.integer n) => some n
  | _ => none

/-- The member of a name, if the value is an object that has one. -/
def member (key : String) : Json → Option Json
  | object members => members.lookup key
  | _ => none

end Json

namespace LogEntry

/-- The decision that an entry tells of. -/
def decision? (e : LogEntry) : Option Decision := do
  let detail (key : String) := e.details.bind (Json.member key)
  pure
    { rule := ← e.rule.bind Rule.ofName?
      proposed := ← (detail "proposed_step").bind Json.int?
      deadZone := ← (detail "dead_zone").bind Json.bool?
      saturated := ← (detail "saturated").bind Json.bool?
      ratioClamped := ← (detail "ratio_clamped").bind Json.bool? }

theorem decision?_withDecision (e : LogEntry) (d : Decision) : (e.withDecision d).decision? = some d := by
  have hrule : (some d.rule.name).bind Rule.ofName? = some d.rule := Rule.ofName?_name d.rule
  unfold decision?
  change ((some d.rule.name).bind Rule.ofName?).bind _ = _
  rw [hrule]
  rfl

/-- The ratio and the step that an entry shows. -/
def move? (e : LogEntry) : Option (Nat × Int) := do
  pure (← e.ratio, ← e.step)

/-- What an auditor makes of an entry who knows the step limit and the ratio before: the ratio after it,
unless the entry is a controller step that does not follow from its decision. -/
def audit (maxStep : Int) (before : Nat) (e : LogEntry) : Option Nat :=
  if e.event = stepEvent then do
    let decision ← e.decision?
    let shown ← e.move?
    if decision.move maxStep before = shown then some shown.1 else none
  else some (e.ratio.getD before)

end LogEntry

/-- What an auditor makes of the entry of an event. -/
def RunEvent.audit (maxStep : Int) (before : Nat) : RunEvent → Option Nat
  | stepped p d => if d.move maxStep before = (p.ratio, p.step) then some p.ratio else none
  | held p | converged p => some p.ratio
  | started _ | switched .. | completed .. | failed .. => some before

theorem RunEvent.audit_entry (maxStep : Int) (before : Nat) (event : RunEvent) (e : Emitter) :
    (event.entry e).audit maxStep before = event.audit maxStep before := by
  cases event with
  | stepped p d =>
    have hevent : ((stepped p d).entry e).event = stepEvent := rfl
    have hdecision : ((stepped p d).entry e).decision? = some d := LogEntry.decision?_withDecision _ d
    unfold LogEntry.audit
    rw [if_pos hevent, hdecision]
    rfl
  | _ => rfl

/-- An auditor of entries makes of them what one of events makes of the events. -/
theorem Emitter.foldlM_entries {β : Type} {f : β → LogEntry → Option β} {g : β → RunEvent → Option β}
    (h : ∀ before event e, f before (event.entry e) = g before event) (e : Emitter)
    (events : List RunEvent) (before : β) :
    (e.entries events).foldlM f before = events.foldlM g before := by
  induction events generalizing e before with
  | nil => rfl
  | cons event events ih =>
    rw [entries_cons, List.foldlM_cons, List.foldlM_cons, h]
    exact bind_congr fun after => ih (e.wrote event) after

/-! ## Runs -/

namespace Simulator

variable {s : Simulator} {before here : Observation} {k : Nat}

/-- The decision of an iteration tells the move from the point before it. -/
theorem Link.move_eq (h : s.Link k before here) {d : Decision} (hdecision : here.decision = some d) :
    d.move s.controller.config.maxStep before.point.ratio = (here.point.ratio, here.point.step) := by
  cases h with
  | @stepped phase curve state next decision _ _ hstate hstep =>
    cases hdecision
    obtain ⟨-, hadvance⟩ := Controller.iterate_ok hstep
    have hratio : before.point.ratio = state.ratio := by
      rw [hstate]
      split <;> rfl
    rw [hratio]
    exact ControllerConfig.move_of_advance s.controller.valid hadvance
  | held => cases hdecision

/-- What is told about an observation passes the audit, and leaves its ratio. -/
theorem Link.audit_events (h : s.Link k before here) :
    (here.events (some before.point)).foldlM (RunEvent.audit s.controller.config.maxStep)
      before.point.ratio = some here.point.ratio := by
  unfold Observation.events
  dsimp only
  -- a switch of phases shows no ratio
  have hswitch (switch : Option TracePoint) : (switch.map fun p => RunEvent.switched p.phase
      here.point.phase here.point.iteration).toList.foldlM
        (RunEvent.audit s.controller.config.maxStep) before.point.ratio = some before.point.ratio := by
    cases switch <;> rfl
  rw [List.foldlM_append, hswitch]
  cases hdecision : here.decision with
  | none =>
    dsimp only
    rw [h.iteration, if_neg (Nat.succ_ne_zero k)]
    rfl
  | some d =>
    have hmove := h.move_eq hdecision
    dsimp only
    rw [Option.bind_eq_bind, Option.bind_some, List.foldlM_cons, RunEvent.audit, if_pos hmove]
    split <;> rfl

/-- The narration of a run passes the audit from the point of any of its observations on. -/
theorem audit_narration (observed : List Observation)
    (hrun : ∀ j, (before :: observed)[j]? = s.run.observed[k + j]?) :
    (narration (some before.point) observed).foldlM (RunEvent.audit s.controller.config.maxStep)
      before.point.ratio = some ((before :: observed).getLast (List.cons_ne_nil _ _)).point.ratio := by
  induction observed generalizing before k with
  | nil => rfl
  | cons here observed ih =>
    have hlink : s.Link k before here := run_link (hrun 0).symm (hrun 1).symm
    have hnext : ∀ j, (here :: observed)[j]? = s.run.observed[k + 1 + j]? := by
      intro j
      rw [← Nat.add_right_comm, Nat.add_assoc, ← hrun (j + 1)]
      rfl
    rw [narration, List.foldlM_append, hlink.audit_events]
    exact (ih hnext).trans (by rw [List.getLast_cons_cons])

theorem audit_ending (maxStep : Int) (run : Run) (duration before : Nat) :
    (run.ending duration).audit maxStep before = some before := by
  unfold Run.ending
  cases run.result <;> rfl

/-- The log of a run passes the audit, from the configured ratio to that of the last observation. -/
theorem audit_entries (s : Simulator) (duration : Nat) (e : Emitter) :
    ∃ last, s.run.observed.getLast? = some last ∧
      (e.entries (s.run.events s.runConfig duration)).foldlM
        (LogEntry.audit s.controller.config.maxStep) s.config.initialRatio = some last.point.ratio := by
  obtain ⟨observed, hobserved⟩ := s.exists_observed
  have hrun : ∀ j, (s.first :: observed)[j]? = s.run.observed[0 + j]? := by
    intro j
    rw [hobserved, Nat.zero_add]
  refine ⟨(s.first :: observed).getLast (List.cons_ne_nil _ _), ?_, ?_⟩
  · rw [hobserved, List.getLast?_eq_some_getLast]
  · have htold : (narration none s.run.observed).foldlM (RunEvent.audit s.controller.config.maxStep)
        s.config.initialRatio = some ((s.first :: observed).getLast (List.cons_ne_nil _ _)).point.ratio := by
      rw [hobserved]
      exact audit_narration observed hrun
    have hending (before : Nat) : [s.run.ending duration].foldlM
        (RunEvent.audit s.controller.config.maxStep) before = some before := by
      rw [List.foldlM_cons, audit_ending]
      rfl
    rw [Emitter.foldlM_entries (RunEvent.audit_entry _), Run.events, List.foldlM_cons, RunEvent.audit,
      Option.bind_eq_bind, Option.bind_some, List.foldlM_append, htold]
    exact hending _

end Simulator

/-- For every step of the law, the flags of the decision say what became of the proposal, and whether the sum
of the ratio before and the step is out of range. So the step and the ratio follow from the decision, the
step limit and the ratio before. The ratio is the bound that the sum has passed, which from within the range
is the one on the side of the step. In the log of a run, every controller step shows the move that its
decision tells of, from the last ratio that was shown before it. -/
theorem decisions_account :
    (∀ (c : ControllerConfig) (prev next : ControlState) (observed : Float) (d : Decision), c.Valid →
      c.advance prev observed = .ok (next, d) →
      d.AccountsForStep c.maxStep next.step ∧ d.AccountsForRatio prev.ratio next ∧
        (prev.ratio ≤ maxRatio → d.ratioClamped = true →
          next.step < 0 ∧ next.ratio = 0 ∨ 0 < next.step ∧ next.ratio = maxRatio) ∧
        d.move c.maxStep prev.ratio = (next.ratio, next.step)) ∧
    ∀ (s : Simulator) (duration : Nat) (e : Emitter), e.sink.IsOpen →
      ((s.run.log s.runConfig duration).run.run e).2.sink.lines.toList = e.sink.lines.toList ++
          (e.entries (s.run.events s.runConfig duration)).map LogEntry.line ∧
        ∃ last, s.run.observed.getLast? = some last ∧
          (e.entries (s.run.events s.runConfig duration)).foldlM
            (LogEntry.audit s.controller.config.maxStep) s.config.initialRatio =
              some last.point.ratio := by
  refine ⟨?_, ?_⟩
  · intro c prev next observed d hc h
    obtain ⟨hstep, hratio⟩ := ControllerConfig.accounts_of_advance hc h
    exact ⟨hstep, hratio, hratio.side, hstep.move_eq hratio⟩
  · intro s duration e hopen
    refine ⟨?_, s.audit_entries duration e⟩
    rw [s.run.log_open s.runConfig duration hopen]
    exact Emitter.lines_wroteAll hopen _

/-- Under the largest step limit, a decision passes on the most negative step there is, and says so. The log
of `rising`, where a step leads out of the range and another one is dropped, passes the audit. -/
theorem decisions_account_rising :
    let c : ControllerConfig := { maxStep := Step.maxValue }
    let d : Decision := ⟨.coldStart, Step.minValue, false, false, true⟩
    let e : Emitter := { runId := "run", component := "simulator" }
    c.Valid ∧ c.advance ⟨100, 0, 1.0⟩ 1e12 = .ok (⟨0, Step.minValue, 1e12⟩, d) ∧
      d.AccountsForStep c.maxStep Step.minValue ∧ e.sink.IsOpen ∧
      (e.entries (Simulator.rising.run.events Simulator.rising.runConfig 12)).foldlM
        (LogEntry.audit 8) 100 = some 96 := by
  intro c d e
  have hfall : c.advance ⟨100, 0, 1.0⟩ 1e12 = .ok (⟨0, Step.minValue, 1e12⟩, d) := by decide +kernel
  obtain ⟨hsteps, hlogs⟩ := decisions_account
  obtain ⟨-, last, hlast, haudit⟩ := hlogs Simulator.rising 12 e fun _ => rfl
  have hratio : Simulator.rising.run.observed.getLast?.map (·.point.ratio) = some 96 := by
    decide +kernel
  rw [hlast, Option.map_some] at hratio
  rw [hratio] at haudit
  exact ⟨by decide, hfall, (hsteps c _ _ _ d (by decide) hfall).1, fun _ => rfl, haudit⟩

/-- A state may hold a ratio out of range. From there a step that leads down, but not into the range, leads to
its upper bound: the bound need not be on the side of the step. -/
theorem cut_against_step :
    ({} : ControllerConfig).Valid ∧ ∃ next d,
      ({} : ControllerConfig).advance ⟨200, -8, 500.0⟩ 900.0 = .ok (next, d) ∧
        d.ratioClamped = true ∧
        ¬(next.step < 0 ∧ next.ratio = 0 ∨ 0 < next.step ∧ next.ratio = maxRatio) :=
  ⟨by decide, ⟨100, -8, 900.0⟩, ⟨.improving, -8, false, false, true⟩, by decide +kernel, rfl, by decide⟩

end Interleave
