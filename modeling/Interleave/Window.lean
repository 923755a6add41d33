import Interleave.Controller
import Interleave.Sample
/-!
# Control by windows

Online, one window of samples is observed per period. Its first half is dropped, because pages placed
under the previous ratio are still moving, and a percentile of the rest is the observation of the
control law. A window that fails leaves the controller as it was.
-/
namespace Interleave

/-- What a window says. -/
structure Reading where
  sample : Sample
  /-- Samples dropped from the start of the window. -/
  discarded : Nat
  /-- Samples that the percentile was taken of. -/
  considered : Nat
  deriving DecidableEq, Repr

/-- The later half of a window, and the middle sample with it. -/
def settled (window : List Sample) : List Sample := window.drop (window.length / 2)

/-- Reads a window by a percentile of its later half. -/
def readWindow (window : List Sample) (percentile : Int) : Except ControlFault Reading :=
  (selectPercentile (settled window) percentile).map fun sample =>
    ⟨sample, window.length / 2, (settled window).length⟩

/-- One period. -/
structure WindowStep where
  reading : Reading
  state : ControlState
  decision : Decision
  deriving DecidableEq, Repr

/-- A controller fed by windows, and its state. -/
structure WindowedController where
  controller : Controller
  percentile : Int
  state : ControlState
  percentile_mem : percentiles percentile
  ratio_le : state.ratio ≤ maxRatio

namespace WindowedController

/-- Starts a controller: the percentile is checked first, then the ratio, then the configuration. -/
def start (config : ControllerConfig) (percentile : Int) (initial : ControlState) :
    Except ControlFault WindowedController :=
  if hp : percentiles percentile then
    if hr : initial.ratio ≤ maxRatio then
      (Controller.ofConfig config).map fun controller => ⟨controller, percentile, initial, hp, hr⟩
    else .error (.ratioOutOfRange initial.ratio 0 maxRatio)
  else .error (.invalidPercentile percentile)

/-- The step and the controller after it. -/
def step (w : WindowedController) (window : List Sample) :
    Except ControlFault (WindowStep × WindowedController) := do
  let reading ← readWindow window w.percentile
  match h : w.controller.advance w.state reading.sample.total.toFloat with
  | .error fault => .error fault
  | .ok (state, decision) =>
    .ok (⟨reading, state, decision⟩,
      { w with state, ratio_le := ControllerConfig.advance_ratio_le h })

/-- What one window gives, and the controller after it. -/
def observe (w : WindowedController) (window : List Sample) :
    Except ControlFault WindowStep × WindowedController :=
  match w.step window with
  | .ok (s, next) => (.ok s, next)
  | .error fault => (.error fault, w)

/-- The steps of windows in their order up to the first that fails, and the controller after them. -/
def replay (w : WindowedController) :
    List (List Sample) → Except ControlFault (List WindowStep) × WindowedController
  | [] => (.ok [], w)
  | window :: windows =>
    match w.observe window with
    | (.error fault, next) => (.error fault, next)
    | (.ok s, next) =>
      let (rest, last) := next.replay windows
      (rest.map (s :: ·), last)

end WindowedController

/-- The windows of `size` samples that a list starts with, and the samples after the last of them. -/
def fullWindows (size : Nat) (samples : List Sample) : List (List Sample) × List Sample :=
  if 0 < size ∧ size ≤ samples.length then
    let (windows, rest) := fullWindows size (samples.drop size)
    (samples.take size :: windows, rest)
  else ([], samples)
termination_by samples.length

end Interleave
