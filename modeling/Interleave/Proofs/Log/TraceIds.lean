import Interleave.Proofs.Log.Operations
import Interleave.Proofs.Number.Digits

/-!
# Trace ids never repeat

An operation that asks for a trace id is given the next number, whether the sink takes its line or not, and
no other operation moves the count. So the ids of a sequence are numbered one after the other from the
count at its beginning. The number can be read off its digits, whatever zeros stand before them, and the
text before the number is the same in every id: so no two ids are the same, even if the names of the run and
the component hold colons and digits themselves.

Results:
* `Utc.numeral_padded`: what a padded number looks like.
* `Emitter.traceId_injective`: ids of different numbers are different.
* `Emitter.count_perform`: which operations take up a number.
* `Emitter.makes_made`: what becomes of the entry that an operation makes.
* `Emitter.issuedAll_eq`: the ids of a sequence.
* `Emitter.ids_never_repeat`: all of this for a new emitter.
-/
namespace Interleave

/-! ## Padded numbers -/

namespace Utc

/-- The text is the number in decimal, with zeros before it only where the width asks for them. -/
structure Numeral (width n : Nat) (text : String) : Prop where
  isDigit : ∀ c ∈ text.toList, c.isDigit
  value : Decimal.ofDigits text.toList = n
  width_le : width ≤ text.length
  leading : width < text.length → text.toList.head? ≠ some '0'

theorem toList_padded (width n : Nat) : (padded width n).toList =
    List.replicate (width - (Decimal.digits n).length) '0' ++ Decimal.digits n := String.toList_ofList

theorem ofDigits_padded (width n : Nat) : Decimal.ofDigits (padded width n).toList = n := by
  rw [toList_padded, Decimal.ofDigits_append, Decimal.ofDigits_zeros, Nat.mul_zero, Nat.zero_add,
    Decimal.ofDigits_digits]

theorem numeral_padded {width : Nat} (h : 0 < width) (n : Nat) : Numeral width n (padded width n) := by
  have hlength : (padded width n).length = max width (Decimal.digits n).length := by
    rw [← String.length_toList, toList_padded, List.length_append, List.length_replicate]
    omega
  refine ⟨?_, ofDigits_padded width n, ?_, ?_⟩
  · intro c hc
    rw [toList_padded, List.mem_append] at hc
    rcases hc with hc | hc
    · rw [List.eq_of_mem_replicate hc]
      rfl
    · exact Decimal.isDigit_of_mem_digits hc
  · omega
  · intro hlong
    have hdigits : width < (Decimal.digits n).length := by omega
    -- the digits of zero are a single one, which no width leaves without a place
    have hne : n ≠ 0 := by
      rintro rfl
      exact absurd hdigits (Nat.not_lt.2 h)
    rw [toList_padded, Nat.sub_eq_zero_of_le hdigits.le]
    exact Decimal.head_digits hne

theorem padded_injective (width : Nat) : Function.Injective (padded width) := by
  intro m n h
  have hvalue := congrArg (fun text => Decimal.ofDigits text.toList) h
  simpa only [ofDigits_padded] using hvalue

end Utc

/-! ## What operations ask for and make -/

namespace Operation

/-- The trace id that an operation comes with. -/
def traceId : Operation → String
  | emitEntry filled => filled.traceId
  | wait _ | entry .. | emit .. => ""

/-- The operation makes an entry that has no trace id yet. -/
def asks : Operation → Bool
  | wait _ => false
  | entry .. | emit .. => true
  | emitEntry filled => filled.traceId = ""

end Operation

namespace Emitter

/-- The entry that an operation makes, be it written or only begun. -/
def made (e : Emitter) : Operation → Option LogEntry
  | .entry level event => some (e.draft level event)
  | op => e.written op

/-- What becomes of the entry that an operation makes: one that is begun goes to the caller, one that is
handed over goes to the sink as a line, and one that is emitted goes to both, if the sink takes it. -/
def Makes (e : Emitter) (result : LogEntry) : Operation → Prop
  | .wait _ => False
  | .entry level event => ((entry level event).run e).1 = result
  | .emit level event => (emit level event).run.run e =
      ((e.sink.write result.line).1.map fun _ => result,
        (e.after (.emit level event)).onto (e.sink.write result.line).2)
  | .emitEntry filled => (emitEntry filled).run.run e =
      ((e.sink.write result.line).1, (e.after (.emitEntry filled)).onto (e.sink.write result.line).2)

/-- The trace id that an operation is given. -/
def issued (e : Emitter) (op : Operation) : Option String :=
  if op.asks then (e.made op).map (·.traceId) else none

/-- The trace ids that operations are given, in their order, on an emitter that goes on after a fault. -/
def issuedAll (e : Emitter) : List Operation → List String
  | [] => []
  | op :: ops => (e.issued op).toList ++ (e.perform op).issuedAll ops

theorem traceId_injective (runId component : String) :
    Function.Injective (traceId runId component) := by
  intro m n h
  exact Utc.padded_injective 3 (String.append_right_inj _ |>.1 h)

variable {e : Emitter} {op : Operation} {entry : LogEntry}

theorem makes_made (h : e.made op = some entry) : e.Makes entry op := by
  cases op with
  | wait time => cases h
  | entry level event =>
    cases h
    rfl
  | emit level event =>
    cases h
    rw [Makes, emit_run, Fallible.run_bind, write_run]
    have hsink : e.next.2.sink = e.sink := rfl
    rw [hsink]
    cases (e.sink.write (e.draft level event).line).1 <;> rfl
  | emitEntry filled =>
    cases h
    rw [Makes, emitEntry_complete, write_run, after_sink]
    rfl

/-- An entry gets the next trace id, unless it comes with one. -/
theorem traceId_made (h : e.made op = some entry) : entry.traceId =
    if op.asks then traceId e.runId e.component (e.count + 1) else op.traceId := by
  cases op with
  | wait time => cases h
  | entry level event =>
    cases h
    rfl
  | emit level event =>
    cases h
    rfl
  | emitEntry filled =>
    cases h
    by_cases hid : filled.traceId = "" <;> simp [complete, Operation.asks, Operation.traceId, hid, next]

theorem exists_made (e : Emitter) (h : op.asks = true) : ∃ entry, e.made op = some entry := by
  cases op with
  | wait time => cases h
  | _ => exact ⟨_, rfl⟩

theorem issued_eq (e : Emitter) (op : Operation) : e.issued op =
    if op.asks then some (traceId e.runId e.component (e.count + 1)) else none := by
  unfold issued
  by_cases hasks : op.asks = true
  · obtain ⟨entry, hmade⟩ := e.exists_made hasks
    rw [if_pos hasks, if_pos hasks, hmade, Option.map_some, traceId_made hmade, if_pos hasks]
  · rw [if_neg hasks, if_neg hasks]

/-! ## One operation -/

/-- The sink has no say in what becomes of the rest of an emitter. -/
theorem exists_perform (e : Emitter) (op : Operation) :
    ∃ sink, e.perform op = (e.after op).onto sink := by
  rw [perform_eq]
  cases e.written op with
  | none => exact ⟨(e.after op).sink, rfl⟩
  | some entry => exact ⟨_, rfl⟩

/-- An operation takes up a number if it asks for one, whether it fails or not. -/
theorem count_perform (e : Emitter) (op : Operation) :
    (e.perform op).count = e.count + if op.asks then 1 else 0 := by
  obtain ⟨sink, hperform⟩ := e.exists_perform op
  rw [hperform]
  change (e.after op).count = _
  cases op with
  | emitEntry filled => by_cases hid : filled.traceId = "" <;> simp [after, Operation.asks, hid, next]
  | _ => rfl

theorem names_perform (e : Emitter) (op : Operation) :
    (e.perform op).runId = e.runId ∧ (e.perform op).component = e.component := by
  obtain ⟨sink, hperform⟩ := e.exists_perform op
  rw [hperform]
  change (e.after op).runId = _ ∧ (e.after op).component = _
  cases op with
  | emitEntry filled =>
    rw [after]
    split <;> exact ⟨rfl, rfl⟩
  | _ => exact ⟨rfl, rfl⟩

/-! ## Whole sequences -/

theorem count_performAll (e : Emitter) (ops : List Operation) :
    (e.performAll ops).count = e.count + ops.countP (·.asks) := by
  induction ops generalizing e with
  | nil => rfl
  | cons op ops ih =>
    have hrest := ih (e.perform op)
    rw [count_perform, Nat.add_assoc] at hrest
    rw [List.countP_cons, Nat.add_comm (ops.countP _)]
    exact hrest

theorem names_performAll (e : Emitter) (ops : List Operation) :
    (e.performAll ops).runId = e.runId ∧ (e.performAll ops).component = e.component := by
  induction ops generalizing e with
  | nil => exact ⟨rfl, rfl⟩
  | cons op ops ih =>
    obtain ⟨hrun, hcomponent⟩ := ih (e.perform op)
    obtain ⟨hrun', hcomponent'⟩ := e.names_perform op
    exact ⟨hrun.trans hrun', hcomponent.trans hcomponent'⟩

/-- The ids of a sequence are numbered one after the other. -/
theorem issuedAll_eq (e : Emitter) (ops : List Operation) : e.issuedAll ops =
    (List.range' (e.count + 1) (ops.countP (·.asks))).map (traceId e.runId e.component) := by
  induction ops generalizing e with
  | nil => rfl
  | cons op ops ih =>
    obtain ⟨hrun, hcomponent⟩ := e.names_perform op
    rw [issuedAll, ih, issued_eq, count_perform, hrun, hcomponent, List.countP_cons]
    by_cases hasks : op.asks = true
    · rw [if_pos hasks, if_pos hasks, List.range'_succ]
      rfl
    · rw [if_neg hasks, if_neg hasks]
      rfl

theorem nodup_issuedAll (e : Emitter) (ops : List Operation) : (e.issuedAll ops).Nodup := by
  rw [issuedAll_eq]
  exact List.Nodup.map (traceId_injective e.runId e.component) List.nodup_range'

/-- The trace ids of a new emitter, whatever is done with it and whatever its sink refuses. Operations that
ask for an id are given the numbers from 1 on, one after the other and each at least three digits wide, and no
two ids are the same. After any operations, the entry of the next one is returned or handed to the sink with
the id of the next number, or with the id that it came with. -/
theorem ids_never_repeat (runId component : String) (time : Clock) (sink : Sink)
    (ops : List Operation) :
    let e : Emitter := { runId, component, time, sink }
    let idOf (number : Nat) : String := runId ++ "::" ++ component ++ "::" ++ Utc.padded 3 number
    e.issuedAll ops = (List.range (ops.countP (·.asks))).map (fun k => idOf (k + 1)) ∧
      (∀ number, Utc.Numeral 3 number (Utc.padded 3 number)) ∧
      (e.issuedAll ops).Nodup ∧
      (e.performAll ops).count = ops.countP (·.asks) ∧
      ∀ op entry, (e.performAll ops).made op = some entry →
        (e.performAll ops).Makes entry op ∧
          entry.traceId = if op.asks then idOf (ops.countP (·.asks) + 1) else op.traceId := by
  intro e idOf
  have hcount : (e.performAll ops).count = ops.countP (·.asks) := by
    rw [count_performAll, Nat.zero_add]
  refine ⟨?_, Utc.numeral_padded (by decide), e.nodup_issuedAll ops, hcount, ?_⟩
  · rw [issuedAll_eq, List.range'_eq_map_range, List.map_map]
    apply List.map_congr_left
    intro k _
    change idOf (0 + 1 + k) = idOf (k + 1)
    rw [Nat.zero_add, Nat.add_comm]
  · intro op entry hmade
    obtain ⟨hrun, hcomponent⟩ := e.names_performAll ops
    refine ⟨makes_made hmade, ?_⟩
    rw [traceId_made hmade, hrun, hcomponent, hcount]
    rfl

/-- Beyond a thousand ids, from names that hold colons and digits, with a sink that takes one line only. The
entry with an id of its own is passed over, and the ids go on behind the line that is refused. -/
theorem ids_never_repeat_past_thousand :
    let e : Emitter := { runId := "7::001", component := ":08", sink := .upTo 1 }
    let ops : List Operation := List.replicate 999 (.entry .debug "dropped") ++
      [.emit .info "taken", .emitEntry .solid, .emit .info "refused"]
    let filled := (e.performAll ops).complete .hollow
    (e.performAll ops).made (.emitEntry .hollow) = some filled ∧
      (e.issuedAll ops).length = 1001 ∧ (e.issuedAll ops).Nodup ∧
      (e.issuedAll ops)[8]? = some "7::001:::08::009" ∧
      (e.issuedAll ops)[1000]? = some "7::001:::08::1001" ∧
      filled.traceId = "7::001:::08::1002" := by
  intro e ops filled
  have hasks : ops.countP (·.asks) = 1001 := by
    rw [List.countP_append, List.countP_replicate]
    rfl
  obtain ⟨hids, -, hnodup, -, hnext⟩ := ids_never_repeat "7::001" ":08" "" (.upTo 1) ops
  rw [hasks] at hids hnext
  obtain ⟨-, hid⟩ := hnext (.emitEntry .hollow) filled rfl
  have hlength : (e.issuedAll ops).length = 1001 := by
    rw [hids, List.length_map, List.length_range]
  refine ⟨rfl, hlength, hnodup, ?_, ?_, hid.trans (by decide)⟩
  · rw [hids, List.getElem?_map, List.getElem?_range (by decide), Option.map_some]
    decide
  · rw [hids, List.getElem?_map, List.getElem?_range (by decide), Option.map_some]
    decide

end Emitter

end Interleave
