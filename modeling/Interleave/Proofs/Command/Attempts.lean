import Interleave.Command.Simulation
import Interleave.Proofs.Fallible

/-!
# What attempts do to a world

Reading, asking and telling leave the files of a world as they are (`Attempt.LeavesStore`), and what is
put together of such steps does so as well. So a configuration and curves are read without a trace.
Writing an output makes directories and changes one file.

Results:
* `Attempt.gives_bind`: what comes to a good end does so step by step.
* `SimulationRequest.leavesStore_configuration`, `Workload.leavesStore_curves`: reading changes nothing.
* `gives_write`, `gives_writeOutput`: what writing does to a store.
-/
namespace Interleave

open Desk

namespace Attempt

variable {α β : Type} {x : Attempt (StateM World) α} {f : α → Attempt (StateM World) β}

/-! ## Steps -/

/-- From the world `w` the step comes to a good end, with a result and a world. -/
def Gives (x : Attempt (StateM World) α) (w : World) (a : α) (w' : World) : Prop :=
  x.run.run w = (.ok a, w')

theorem gives_bind {w w' : World} {b : β} : (x >>= f).Gives w b w' ↔
    ∃ a between, x.Gives w a between ∧ (f a).Gives between b w' := Fallible.run_bind_eq_ok

theorem gives_pure {w w' : World} {a a' : α} :
    Gives (pure a) w a' w' ↔ a = a' ∧ w' = w := by
  constructor
  · intro h
    cases h
    exact ⟨rfl, rfl⟩
  · intro ⟨ha, hw⟩
    rw [ha, hw]
    rfl

theorem mapError_eq_ok {ε δ : Type} {result : Except ε α} {f : ε → δ} {a : α} :
    result.mapError f = .ok a ↔ result = .ok a := by
  cases result with
  | error fault => exact ⟨nofun, nofun⟩
  | ok b =>
    constructor
    · intro h
      cases h
      rfl
    · intro h
      cases h
      rfl

theorem gives_of_run {ε : Type} {result : Except ε α} {fail : ε → Failure} {w w₁ w' : World} {a : α}
    (h : x.run.run w = (result.mapError fail, w₁)) : x.Gives w a w' ↔ result = .ok a ∧ w' = w₁ := by
  rw [Gives, h]
  refine (Prod.mk.injEq ..).to_iff.trans ?_
  rw [mapError_eq_ok, eq_comm (a := w₁)]

theorem gives_now {w w' : World} {time : String} :
    Gives (now : Attempt (StateM World) String) w time w' ↔ w.time = time ∧ w' = w :=
  gives_pure (w := w)

theorem gives_report {line : String} {w w' : World} :
    Gives (report line : Attempt (StateM World) Unit) w () w' ↔
      w' = { w with reports := w.reports.push line } := by
  constructor
  · intro h
    cases h
    rfl
  · intro hw
    rw [hw]
    rfl

/-! ## Steps that change no file -/

/-- Whatever comes of the step, the store is as it was. -/
def LeavesStore (x : Attempt (StateM World) α) : Prop := ∀ w, (x.run.run w).2.store = w.store

theorem leavesStore_pure (a : α) : LeavesStore (pure a) := fun _ => rfl

theorem leavesStore_throw (failure : Failure) :
    LeavesStore (throw failure : Attempt (StateM World) α) := fun _ => rfl

theorem LeavesStore.bind (hx : x.LeavesStore) (hf : ∀ a, (f a).LeavesStore) :
    (x >>= f).LeavesStore := by
  intro w
  have hfirst := hx w
  rw [Fallible.run_bind]
  cases hrun : x.run.run w with
  | mk result between =>
    rw [hrun] at hfirst
    cases result with
    | ok a => exact (hf a between).trans hfirst
    | error failure => exact hfirst

theorem LeavesStore.eq (hx : x.LeavesStore) {w w' : World} {a : α} (h : x.Gives w a w') :
    w'.store = w.store := by
  have := hx w
  rwa [h] at this

theorem LeavesStore.map (hx : x.LeavesStore) (g : α → β) : (g <$> x).LeavesStore :=
  hx.bind fun a => leavesStore_pure (g a)

theorem leavesStore_ofFault (result : Except Fault α) : LeavesStore (ofFault result) := fun _ => rfl

theorem leavesStore_ofControl (result : Except ControlFault α) :
    LeavesStore (ofControl result) := fun _ => rfl

theorem leavesStore_read (path : String) : LeavesStore (file (read path)) := fun _ => rfl

theorem leavesStore_environment (name : String) : LeavesStore (environment name) := fun _ => rfl

theorem leavesStore_report (line : String) : LeavesStore (report line) := fun _ => rfl

theorem leavesStore_timed (value : Unit → α) : LeavesStore (timed value) := fun _ => rfl

theorem leavesStore_filterMapM {f : α → Attempt (StateM World) (Option β)}
    (h : ∀ a, (f a).LeavesStore) (as : List α) : LeavesStore (as.filterMapM f) := by
  induction as with
  | nil => exact leavesStore_pure []
  | cons a as ih =>
    rw [List.filterMapM_cons]
    refine (h a).bind fun result => ?_
    cases result with
    | none => exact ih
    | some b => exact ih.map _

end Attempt

open Attempt

/-! ## Reading what a simulation needs -/

theorem leavesStore_environmentConfig :
    Attempt.LeavesStore (environmentConfig : Attempt (StateM World) ControllerConfig) := by
  unfold environmentConfig
  refine (leavesStore_filterMapM (fun name => ?_) _).bind fun given => leavesStore_pure _
  exact (leavesStore_environment name).bind fun value => leavesStore_pure _

theorem leavesStore_configFile (path : String) :
    Attempt.LeavesStore (configFile path : Attempt (StateM World) RunConfig) := by
  refine (leavesStore_read path).bind fun content => (leavesStore_ofFault _).bind fun text => ?_
  cases RunConfig.ofText? text with
  | none => exact leavesStore_throw _
  | some config => exact leavesStore_pure config

theorem leavesStore_curveFile (path column : String) :
    Attempt.LeavesStore (curveFile path column : Attempt (StateM World) Curve) := fun _ => rfl

theorem SimulationRequest.leavesStore_configuration (r : SimulationRequest) :
    Attempt.LeavesStore (r.configuration : Attempt (StateM World) RunConfig) := by
  unfold configuration
  cases r.config with
  | none =>
    exact leavesStore_environmentConfig.bind fun config =>
      (leavesStore_pure _).bind fun config => leavesStore_pure _
  | some path => exact (leavesStore_configFile path).bind fun config => leavesStore_pure _

theorem Workload.leavesStore_curves (column : String) (workload : Workload) :
    Attempt.LeavesStore
      (workload.curves column : Attempt (StateM World) (Curve × Option Curve)) := by
  cases workload with
  | reference =>
    exact (leavesStore_ofControl _).bind fun primary =>
      (leavesStore_ofControl _).bind fun secondary => leavesStore_pure _
  | recorded primary secondary =>
    have hprimary (second : Option Curve) := (leavesStore_curveFile primary column).map (·, second)
    cases secondary with
    | none => exact (leavesStore_pure none).bind hprimary
    | some path => exact ((leavesStore_curveFile path column).map some).bind hprimary

/-! ## Writing files -/

section
variable {path text : String} {w w' : World}

theorem gives_read {bytes : ByteArray} :
    Gives (file (read path) : Attempt (StateM World) ByteArray) w bytes w' ↔
      w.store.read path = .ok bytes ∧ w' = w := gives_of_run rfl

theorem gives_change {change : Store → Except IoFault Store} :
    (file (World.change change)).Gives w () w' ↔
      ∃ changed, change w.store = .ok changed ∧ w' = { w with store := changed } := by
  refine (gives_of_run rfl).trans ?_
  cases change w.store <;> simp

/-- A file is written where its path leads. -/
theorem gives_write {bytes : ByteArray} :
    Gives (file (write path bytes) : Attempt (StateM World) Unit) w () w' ↔
      ∃ place, w.store.writable path = .ok place ∧
        w' = { w with store := w.store.put place bytes } := by
  refine gives_change.trans ?_
  unfold Store.write
  cases w.store.writable path <;> simp [Except.map]

/-- A file is created where its path leads, and holds nothing. -/
theorem gives_create {opened : World.OpenPlace} : (file (World.create path)).Gives w opened w' ↔
    ∃ place, w.store.writable path = .ok place ∧ opened = { place } ∧
      w' = { w with store := w.store.put place .empty } := by
  refine (gives_of_run rfl).trans ?_
  cases w.store.writable path <;> simp [eq_comm]

/-- An output is written where its path leads when the directories above it are made. -/
theorem gives_writeOutput : Gives (writeOutput path text : Attempt (StateM World) Unit) w () w' ↔
    ∃ made place, w.store.makeParents path = .ok made ∧ made.writable path = .ok place ∧
      w' = { w with store := made.put place text.toUTF8 } := by
  unfold writeOutput
  rw [gives_bind]
  constructor
  · intro ⟨_, between, hparents, hwrite⟩
    obtain ⟨made, hmade, rfl⟩ := gives_change.1 hparents
    obtain ⟨place, hplace, rfl⟩ := gives_write.1 hwrite
    exact ⟨made, place, hmade, hplace, rfl⟩
  · intro ⟨made, place, hmade, hplace, hw⟩
    exact ⟨(), _, gives_change.2 ⟨made, hmade, rfl⟩, gives_write.2 ⟨place, hplace, hw⟩⟩

end

end Interleave
