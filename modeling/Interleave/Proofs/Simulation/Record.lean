import Interleave.Simulation

/-!
# What is recorded and what is told

A run records a point and tells its observer of it in two steps, at three places: at the start, after
every iteration, and for every point of the hold. At each of them the point that is told is the one that
was recorded, with the decision whose rule it has (`Progress.tell_record`). So a run under way has always
recorded the points that it has told (`Progress.of`), and what it was told says all about a run: `climb`,
`holdPoints` and `Simulator.runSecond` are its parts as lists of observations.

Results:
* `Progress.climb_of`, `Progress.hold_of`: a climb and a hold go on from what was told, and keep it so.
* `Simulator.run_eq_told`: a run by its observations.
-/
namespace Interleave

/-- The point of a state, with the rule of the decision that led to it. -/
def TracePoint.record (iteration : Nat) (phase : Phase) (state : ControlState)
    (decision : Option Decision) : TracePoint :=
  ⟨iteration, phase, state.ratio, state.step, state.bandwidth, decision.map (·.rule)⟩

def Observation.record (iteration : Nat) (phase : Phase) (state : ControlState)
    (decision : Option Decision) : Observation :=
  ⟨.record iteration phase state decision, decision⟩

/-! ## Observations of a run -/

/-- The observations of a climb within a budget, from iteration `iteration` on, and how it ends. -/
def climb (controller : Controller) (curve : Curve) (phase : Phase) :
    (budget iteration : Nat) → ControlState → List Observation × Ending
  | 0, _, _ => ([], .outOfPoints)
  | budget + 1, iteration, state =>
    match controller.iterate curve state with
    | .error fault => ([], .failed fault)
    | .ok (next, decision) =>
      let here := Observation.record iteration phase next (some decision)
      if next.ratio = state.ratio then ([here], .converged iteration next budget)
      else
        let (rest, ending) := climb controller curve phase budget (iteration + 1) next
        (here :: rest, ending)

/-- `count` points that hold a state, from iteration `iteration` on. -/
def holdPoints (phase : Phase) (state : ControlState) (iteration count : Nat) : List Observation :=
  (List.range' iteration count).map fun i => .record i phase state none

def Trace.ofObserved (observed : List Observation)
    (primaryAt switchedAt secondaryAt : Option Nat) : Trace :=
  ⟨observed.map (·.point), primaryAt, switchedAt, secondaryAt⟩

/-- The run of the second phase after the points `before`, where the first phase has converged at
iteration `primaryAt`. -/
def Simulator.runSecond (s : Simulator) (curve : Curve) (before : List Observation) (primaryAt : Nat)
    (state : ControlState) (budget : Nat) : Run :=
  let held := before ++
    holdPoints .primary state.atRest before.length (min s.config.holdIterations budget)
  if budget < s.config.holdIterations then ⟨held, .error (.noConvergence held.length)⟩
  else
    let (climbed, ending) := climb s.controller curve .secondary
      (budget - s.config.holdIterations) held.length state.atRest
    let observed := held ++ climbed
    match ending with
    | .converged secondaryAt _ _ =>
      ⟨observed, .ok (.ofObserved observed (some primaryAt) (some held.length) (some secondaryAt))⟩
    | .outOfPoints => ⟨observed, .error (.noConvergence observed.length)⟩
    | .failed fault => ⟨observed, .error fault⟩

/-! ## In step -/

namespace Progress

/-- A run under way that has recorded what it was told. -/
def of (observed : List Observation) : Progress :=
  ⟨(observed.map (·.point)).toArray, observed.toArray⟩

variable (observed : List Observation)

/-- The step that all three places take. -/
theorem tell_record (phase : Phase) (state : ControlState) (decision : Option Decision) :
    ((of observed).record phase state (decision.map (·.rule))).2.tell
        ((of observed).record phase state (decision.map (·.rule))).1 decision =
      of (observed ++ [.record observed.length phase state decision]) := by
  simp [of, record, tell, Observation.record, TracePoint.record]

theorem climb_of (controller : Controller) (curve : Curve) (phase : Phase) (budget : Nat)
    (state : ControlState) :
    Progress.climb controller curve phase budget (of observed) state =
      (of (observed ++ (Interleave.climb controller curve phase budget observed.length state).1),
        (Interleave.climb controller curve phase budget observed.length state).2) := by
  induction budget generalizing observed state with
  | zero => simp [Progress.climb, Interleave.climb]
  | succ budget ih =>
    unfold Progress.climb Interleave.climb
    cases controller.iterate curve state with
    | error fault => simp
    | ok step =>
      obtain ⟨next, decision⟩ := step
      have htold := tell_record observed phase next (some decision)
      simp only [Option.map_some] at htold
      dsimp only
      rw [htold]
      split
      · simp [of, record]
      · rw [ih]
        simp

theorem hold_of (phase : Phase) (state : ControlState) (count : Nat) :
    hold phase state count (of observed) =
      of (observed ++ holdPoints phase state observed.length count) := by
  induction count generalizing observed with
  | zero => simp [hold, holdPoints]
  | succ count ih =>
    have htold := tell_record observed phase state none
    simp only [Option.map_none] at htold
    unfold hold
    dsimp only
    rw [htold, ih]
    simp [holdPoints, List.range'_succ]

theorem timeOut_of : (of observed).timeOut = ⟨observed, .error (.noConvergence observed.length)⟩ := by
  simp [timeOut, close, of]

theorem close_of (result : Except ControlFault Trace) : (of observed).close result = ⟨observed, result⟩ := by
  simp [close, of]

theorem complete_of (primaryAt switchedAt secondaryAt : Option Nat) :
    (of observed).complete primaryAt switchedAt secondaryAt =
      ⟨observed, .ok (.ofObserved observed primaryAt switchedAt secondaryAt)⟩ := by
  simp [complete, close, of, Trace.ofObserved]

end Progress

namespace Simulator

theorem switchTo_of (s : Simulator) (curve : Curve) (before : List Observation) (primaryAt : Nat)
    (state : ControlState) (budget : Nat) :
    s.switchTo curve (.of before) primaryAt state budget =
      s.runSecond curve before primaryAt state budget := by
  unfold switchTo runSecond
  simp only [Progress.hold_of, Progress.climb_of, Progress.timeOut_of]
  generalize before ++ holdPoints _ _ _ _ = held
  have hsize : (Progress.of held).points.size = held.length := by simp [Progress.of]
  rw [hsize]
  split
  · rfl
  · obtain ⟨climbed, ending⟩ := Interleave.climb s.controller curve .secondary _ held.length state.atRest
    cases ending with
    | converged => exact Progress.complete_of ..
    | outOfPoints => rfl
    | failed fault => exact Progress.close_of ..

/-- A run by its observations: it records the points that it tells of, and no others. -/
theorem run_eq_told (s : Simulator) : s.run =
    let first := Observation.record 0 .primary s.initial none
    let (climbed, ending) := climb s.controller s.primary .primary (s.config.maxIterations - 1) 1 s.initial
    let observed := first :: climbed
    match ending with
    | .outOfPoints => ⟨observed, .error (.noConvergence observed.length)⟩
    | .failed fault => ⟨observed, .error fault⟩
    | .converged primaryAt state budget =>
      match s.secondary with
      | none => ⟨observed, .ok (.ofObserved observed (some primaryAt) none none)⟩
      | some curve => s.runSecond curve observed primaryAt state budget := by
  have hfirst : (Progress.record {} .primary s.initial none).2.tell
      (Progress.record {} .primary s.initial none).1 none =
        .of [.record 0 .primary s.initial none] := Progress.tell_record [] .primary s.initial none
  unfold run
  dsimp only
  rw [hfirst, Progress.climb_of]
  generalize climb s.controller s.primary .primary _ _ s.initial = climbed
  obtain ⟨climbed, ending⟩ := climbed
  cases ending with
  | outOfPoints => exact Progress.timeOut_of _
  | failed fault => exact Progress.close_of ..
  | converged primaryAt state budget =>
    dsimp only
    cases s.secondary with
    | none => exact Progress.complete_of ..
    | some curve => exact s.switchTo_of ..

end Simulator

end Interleave
