import Interleave.Proofs.Json.SingleLine
import Interleave.Proofs.Log.Emission
import Interleave.Proofs.Log.Entries

/-!
# Whatever is written is read back

An emitter is used in any order: entries are begun and dropped, written with the fields of every entry
only, or filled in and handed over, while the time goes on. Every step writes at most one entry
(`written`) and leaves an emitter that does not depend on the sink (`after`), so the entries of a whole
sequence are known beforehand (`logged`). An open sink then holds a line for each of them, and as every
line is read back, so is the sequence.

Results:
* `Emitter.perform_eq`: what one operation does, with any sink.
* `LogEntry.Built.storable`: an entry that is built from values of its types can be read back.
* `Emitter.lines_performAll`: the lines of a whole sequence.
* `Emitter.read_performAll`: the text of a sequence gives back its entries, line by line.
-/
namespace Interleave

open Json

/-! ## Built entries -/

namespace LogEntry

/-- An entry that is begun with a trace id, a level and an event, and then filled in, in any order and as
often as one likes. Numbers are those of their types, and texts are any texts. -/
inductive Built : LogEntry → Prop where
  | begun (timestamp traceId : String) (level : Level) (event : String) :
    Built { timestamp, traceId, level, event }
  | withRun {e : LogEntry} (h : Built e) (runId : String) : Built (e.withRun runId)
  | withComponent {e : LogEntry} (h : Built e) (component : String) : Built (e.withComponent component)
  | withPhase {e : LogEntry} (h : Built e) (phase : Phase) : Built (e.withPhase phase)
  | withPoint {e : LogEntry} (h : Built e) {p : TracePoint} (iteration : p.iteration ≤ maxCount)
    (ratio : p.ratio ≤ 255) (step : Step.InWord p.step)
    (bandwidth : p.bandwidth.isFinite = true → (Number.real p.bandwidth).ReadsBack) :
    Built (e.withPoint p)
  | withDecision {e : LogEntry} (h : Built e) {d : Decision} (proposed : Step.InWord d.proposed) :
    Built (e.withDecision d)
  | withOutcome {e : LogEntry} (h : Built e) (outcome : Outcome) : Built (e.withOutcome outcome)
  | withDuration {e : LogEntry} (h : Built e) {duration : Nat} (fits : duration ≤ maxCount) :
    Built (e.withDuration duration)
  | withArtifacts {e : LogEntry} (h : Built e) (paths : List String) : Built (e.withArtifacts paths)
  | withDetails {e : LogEntry} (h : Built e) {details : Json} (fits : details.Fits detailDepth) :
    Built (e.withDetails details)

variable {e : LogEntry}

/-- Details are put into canonical form, which does not nest them deeper. -/
theorem Storable.withDetails (h : e.Storable) {details : Json} (fits : details.Fits detailDepth) :
    (e.withDetails details).Storable :=
  { h with details := by rintro d ⟨⟩; exact ⟨fits.canonical, canonical_canonical details⟩ }

/-- An entry that is built from values of its types can be read back. -/
theorem Built.storable (h : e.Built) : e.Storable := by
  induction h with
  | begun => exact ⟨nofun, nofun, nofun, nofun, nofun, nofun⟩
  | withRun _ _ ih => exact { ih with }
  | withComponent _ _ ih => exact { ih with }
  | withPhase _ _ ih => exact { ih with }
  | withPoint _ iteration ratio step bandwidth ih =>
    exact { ih with
      iteration := by rintro n ⟨⟩; exact iteration
      ratio := by rintro n ⟨⟩; exact ratio
      step := by rintro n ⟨⟩; exact step
      bandwidth := by rintro x ⟨⟩; exact bandwidth }
  | @withDecision e _ d proposed ih =>
    have hrule : { e with rule := some d.rule.name }.Storable := { ih with }
    exact hrule.withDetails (fits_decisionDetails proposed)
  | withOutcome _ _ ih => exact { ih with }
  | withDuration _ fits ih => exact { ih with duration := by rintro n ⟨⟩; exact fits }
  | withArtifacts _ _ ih => exact { ih with }
  | withDetails _ fits ih => exact ih.withDetails fits

end LogEntry

/-! ## Operations -/

/-- Something that happens to an emitter. -/
inductive Operation where
  /-- The clock is set. -/
  | wait (time : Clock)
  /-- An entry is begun, which writes nothing. -/
  | entry (level : Level) (event : String)
  | emit (level : Level) (event : String)
  | emitEntry (entry : LogEntry)

namespace Operation

def run : Operation → Logging IoFault Unit
  | wait time => modify fun e => { e with time }
  | entry level event => do
    let _ ← Emitter.entry level event
    pure ()
  | emit level event => do
    let _ ← Emitter.emit level event
    pure ()
  | emitEntry filled => Emitter.emitEntry filled

/-- The operation writes an entry. -/
def writes : Operation → Bool
  | wait _ | entry .. => false
  | emit .. | emitEntry _ => true

end Operation

namespace Emitter

/-- The emitter after an operation, which goes on after a fault too. -/
def perform (e : Emitter) (op : Operation) : Emitter := (op.run.run.run e).2

def performAll (e : Emitter) (ops : List Operation) : Emitter := ops.foldl perform e

/-- An entry with what it lacks: an empty trace id is the next one, and a missing run is that of the
emitter. -/
def complete (e : Emitter) (entry : LogEntry) : LogEntry :=
  { entry with
    traceId := if entry.traceId = "" then e.next.1 else entry.traceId
    runId := some (entry.runId.getD e.runId) }

/-- The entry that an operation writes. -/
def written (e : Emitter) : Operation → Option LogEntry
  | .wait _ | .entry .. => none
  | .emit level event => some (e.draft level event)
  | .emitEntry entry => some (e.complete entry)

/-- The emitter after an operation, but for what is in the sink. -/
def after (e : Emitter) : Operation → Emitter
  | .wait time => { e with time }
  | .entry .. | .emit .. => e.next.2
  | .emitEntry entry => if entry.traceId = "" then e.next.2 else e

/-- The entries that the operations write, in their order. -/
def logged (e : Emitter) : List Operation → List LogEntry
  | [] => []
  | op :: ops => (e.written op).toList ++ (e.after op).logged ops

/-- The emitter with another sink. -/
def onto (e : Emitter) (sink : Sink) : Emitter := { e with sink }

/-! ## One operation -/

theorem after_onto (e : Emitter) (sink : Sink) (op : Operation) :
    (e.onto sink).after op = (e.after op).onto sink := by
  cases op with
  | emitEntry entry =>
    rw [after, after]
    split <;> rfl
  | _ => rfl

theorem after_sink (e : Emitter) (op : Operation) : (e.after op).sink = e.sink := by
  have h := congrArg Emitter.sink (after_onto e e.sink op)
  exact h

theorem emit_run (level : Level) (event : String) (e : Emitter) :
    (emit level event).run.run e =
      ((write (e.draft level event).line >>= fun _ => pure (e.draft level event) :
        Logging IoFault LogEntry).run.run e.next.2) := rfl

/-- An entry is written with what it lacks. -/
theorem emitEntry_complete (entry : LogEntry) (e : Emitter) :
    (emitEntry entry).run.run e =
      (write (e.complete entry).line).run.run (e.after (.emitEntry entry)) := by
  by_cases h : entry.traceId = ""
  · rw [complete, after, if_pos h, if_pos h, emitEntry, if_pos h]
    rfl
  · rw [complete, after, if_neg h, if_neg h]
    exact emitEntry_run e h

/-- What one operation does: it hands the line of its entry to the sink, which may refuse it. -/
theorem perform_eq (e : Emitter) (op : Operation) : e.perform op = match e.written op with
    | none => e.after op
    | some entry => (e.after op).onto (e.sink.write entry.line).2 := by
  cases op with
  | wait time => rfl
  | entry level event => rfl
  | emit level event =>
    rw [perform, Operation.run, Fallible.run_bind, emit_run, Fallible.run_bind, write_run]
    cases (e.next.2.sink.write (e.draft level event).line).1 with
    | ok _ => rfl
    | error _ => rfl
  | emitEntry entry =>
    rw [perform, Operation.run, emitEntry_complete, write_run, after_sink]
    rfl

theorem length_written (e : Emitter) (op : Operation) :
    (e.written op).toList.length = if op.writes then 1 else 0 := by
  cases op <;> rfl

/-! ## Whole sequences -/

/-- What is logged does not depend on the sink. -/
theorem logged_onto (e : Emitter) (sink : Sink) (ops : List Operation) :
    (e.onto sink).logged ops = e.logged ops := by
  induction ops generalizing e with
  | nil => rfl
  | cons op ops ih =>
    have hwritten : (e.onto sink).written op = e.written op := rfl
    rw [logged, logged, hwritten, after_onto, ih]

/-- Every operation that writes an entry writes one. -/
theorem length_logged (e : Emitter) (ops : List Operation) :
    (e.logged ops).length = ops.countP (·.writes) := by
  induction ops generalizing e with
  | nil => rfl
  | cons op ops ih => rw [logged, List.length_append, ih, length_written, List.countP_cons, Nat.add_comm]

theorem storable_complete (e : Emitter) {entry : LogEntry} (h : entry.Storable) :
    (e.complete entry).Storable := { h with }

theorem storable_draft (e : Emitter) (level : Level) (event : String) :
    (e.draft level event).Storable := ⟨nofun, nofun, nofun, nofun, nofun, nofun⟩

/-- All that is logged can be read back, if what is handed over can. -/
theorem storable_logged (e : Emitter) {ops : List Operation}
    (h : ∀ entry, .emitEntry entry ∈ ops → entry.Storable) :
    ∀ entry ∈ e.logged ops, entry.Storable := by
  induction ops generalizing e with
  | nil => exact List.forall_mem_nil _
  | cons op ops ih =>
    have hrest := ih (e.after op) fun entry hentry => h entry (List.mem_cons_of_mem op hentry)
    refine List.forall_mem_append.2 ⟨?_, hrest⟩
    intro entry hentry
    rw [Option.mem_toList] at hentry
    cases op with
    | wait time => cases hentry
    | entry level event => cases hentry
    | emit level event =>
      cases hentry
      exact storable_draft e level event
    | emitEntry filled =>
      cases hentry
      exact storable_complete e (h filled List.mem_cons_self)

variable {e : Emitter}

/-- An open sink has the line of what an operation writes, and stays open. -/
theorem perform_open (h : e.sink.IsOpen) (op : Operation) : ∃ sink : Sink,
    e.perform op = (e.after op).onto sink ∧ sink.IsOpen ∧
      sink.lines.toList = e.sink.lines.toList ++ (e.written op).toList.map LogEntry.line := by
  rw [perform_eq]
  cases e.written op with
  | none =>
    refine ⟨e.sink, ?_, h, (List.append_nil _).symm⟩
    change e.after op = (e.after op).onto e.sink
    rw [← after_onto]
    rfl
  | some entry =>
    refine ⟨_, rfl, ?_, ?_⟩
    · rw [write_of_isOpen h]
      exact h
    · rw [write_of_isOpen h]
      exact Array.toList_push

/-- The lines of a whole sequence. -/
theorem lines_performAll (h : e.sink.IsOpen) (ops : List Operation) :
    (e.performAll ops).sink.lines.toList = e.sink.lines.toList ++ (e.logged ops).map LogEntry.line := by
  induction ops generalizing e with
  | nil => exact (List.append_nil _).symm
  | cons op ops ih =>
    obtain ⟨sink, hperform, hopen, hlines⟩ := perform_open h op
    have hrest : (((e.after op).onto sink).performAll ops).sink.lines.toList = _ := ih hopen
    change ((e.perform op).performAll ops).sink.lines.toList = _
    rw [hperform, hrest, logged_onto, logged, List.map_append, ← List.append_assoc, ← hlines]
    rfl

end Emitter

/-! ## The text of a log -/

/-- What a file holds that got the lines, each with a line feed. -/
def Sink.text (s : Sink) : String := String.join (s.lines.toList.map (· ++ "\n"))

/-- Texts that are a line each are the lines of all of them. -/
theorem Text.lines_join {texts : List String} (h : ∀ text ∈ texts, lines (text ++ "\n") = [text]) :
    lines (String.join (texts.map (· ++ "\n"))) = texts := by
  induction texts with
  | nil => rfl
  | cons text texts ih =>
    rw [List.forall_mem_cons] at h
    rw [List.map_cons, String.join_cons, lines_append, h.1, ih h.2]
    rfl

namespace Emitter

variable {e : Emitter} {ops : List Operation}

theorem lines_text (hopen : e.sink.IsOpen) (hnew : e.sink.lines = #[]) :
    Text.lines (e.performAll ops).sink.text = (e.logged ops).map LogEntry.line := by
  rw [Sink.text, lines_performAll hopen, hnew]
  apply Text.lines_join
  intro text htext
  obtain ⟨entry, -, rfl⟩ := List.mem_map.1 htext
  exact Json.lines_compact entry.toJson

/-- The text of a sequence gives back its entries, line by line. -/
theorem read_performAll (hopen : e.sink.IsOpen) (hnew : e.sink.lines = #[])
    (hentries : ∀ entry, .emitEntry entry ∈ ops → entry.Storable) :
    (Text.lines (e.performAll ops).sink.text).length = ops.countP (·.writes) ∧
      (∀ line ∈ Text.lines (e.performAll ops).sink.text, ∃ members,
        Json.read? line = some (.object members)) ∧
      (Text.lines (e.performAll ops).sink.text).map LogEntry.ofText? =
        (e.logged ops).map fun entry => some entry.kept := by
  have hstorable := e.storable_logged hentries
  rw [lines_text hopen hnew]
  refine ⟨?_, ?_, ?_⟩
  · rw [List.length_map, length_logged]
  · intro line hline
    obtain ⟨entry, hentry, rfl⟩ := List.mem_map.1 hline
    exact ⟨_, LogEntry.read?_line (hstorable entry hentry)⟩
  · rw [List.map_map]
    apply List.map_congr_left
    intro entry hentry
    rw [Function.comp_apply, LogEntry.ofText?_line (hstorable entry hentry)]

end Emitter

/-- An emitter with names that need escapes. -/
def Emitter.hoarse : Emitter where
  runId := "night\n\"7\""
  component := "m\\é"

/-- An entry of a point without a bandwidth, with details that are `null` and no trace id. -/
def LogEntry.hollow : LogEntry :=
  (LogEntry.withPoint { timestamp := "", traceId := "", level := .warn, event := "no \"signal\"\r\n" }
    ⟨3, .primary, 60, -4, 0.0 / 0.0, none⟩).withDetails .null

theorem LogEntry.built_hollow : hollow.Built := by
  have hbegun := Built.begun "" "" .warn "no \"signal\"\r\n"
  refine (hbegun.withPoint (by decide) (by decide) (by decide) ?_).withDetails fits_null
  intro hfinite
  exact absurd hfinite (by decide +kernel)

/-- An entry of another run with a trace id of its own, whose details are filled in twice. -/
def LogEntry.solid : LogEntry :=
  ((LogEntry.withPoint { timestamp := "t", traceId := "mine", level := .error, event := "" }
    ⟨4, .secondary, 58, -2, 2.5, none⟩).withDecision ⟨.regressing, -2, false, false, false⟩
    |>.withRun "other\u0000").withDetails
      (.object [("b", .string "\n"), ("a", .array [.number (.real 0.5), .null])])

theorem LogEntry.built_solid : solid.Built := by
  have hpoint : (Number.real 2.5).ReadsBack := readsBack_real (by decide +kernel) (by decide +kernel)
  have hhalf : (Number.real 0.5).ReadsBack := readsBack_real (by decide +kernel) (by decide +kernel)
  have hbegun := Built.begun "t" "mine" .error ""
  have hdecided := (hbegun.withPoint (p := ⟨4, .secondary, 58, -2, 2.5, none⟩) (by decide) (by decide)
    (by decide) fun _ => hpoint).withDecision (d := ⟨.regressing, -2, false, false, false⟩) (by decide)
  apply (hdecided.withRun "other\u0000").withDetails
  apply fits_object
  simp only [List.forall_mem_cons, List.not_mem_nil, false_implies, implies_true, and_true]
  refine ⟨fits_string "\n", fits_array ?_⟩
  simp only [List.forall_mem_cons, List.not_mem_nil, false_implies, implies_true, and_true]
  exact ⟨fits_number hhalf, fits_null⟩

/-- Operations that write three entries and take up three trace ids. -/
def Emitter.chatter : List Operation :=
  [.emit .info "start", .wait "later", .entry .debug "dropped", .emitEntry .hollow, .emitEntry .solid]

/-- The text of these operations has three lines, and what is lost is only what no line holds. -/
theorem Emitter.read_performAll_chatter : LogEntry.hollow.Built ∧ LogEntry.solid.Built ∧
    (Text.lines (hoarse.performAll chatter).sink.text).map LogEntry.ofText? =
      (hoarse.logged chatter).map (fun entry => some entry.kept) ∧
    (hoarse.logged chatter).map (fun entry => (entry.timestamp, entry.kept.traceId)) =
      [("", "night\n\"7\"::m\\é::001"), ("", "night\n\"7\"::m\\é::003"), ("t", "mine")] ∧
    (hoarse.logged chatter).map (fun entry => (entry.kept.runId, entry.kept.bandwidth)) =
      [(some "night\n\"7\"", none), (some "night\n\"7\"", none), (some "other\u0000", some 2.5)] ∧
    (hoarse.logged chatter).map (fun entry => entry.kept.details.isSome) = [false, false, true] := by
  have hopen : hoarse.sink.IsOpen := fun _ => rfl
  have hentries : ∀ entry, .emitEntry entry ∈ chatter → entry.Storable := by
    intro entry hentry
    simp only [chatter, List.mem_cons, reduceCtorEq, Operation.emitEntry.injEq,
      List.not_mem_nil, false_or, or_false] at hentry
    rcases hentry with rfl | rfl
    · exact LogEntry.built_hollow.storable
    · exact LogEntry.built_solid.storable
  obtain ⟨-, -, hread⟩ := read_performAll hopen rfl hentries
  exact ⟨LogEntry.built_hollow, LogEntry.built_solid, hread, by decide +kernel, by decide +kernel,
    by decide +kernel⟩

end Interleave
