import Interleave.Proofs.Log.Entries
import Mathlib.Data.Set.Function

/-!
# Lines tell entries apart

A line with finite numbers is the line of one entry only, so the entries of a log are known from its
text. This does not depend on how well numbers are read: different numbers have different digits.

Results:
* `LogEntry.field_of_line`: entries of one line agree in every field.
* `LogEntry.injOn_line`: entries of one line are the same.
-/
namespace Interleave

open Json

namespace Json

/-- The numbers that are written are finite. -/
def AllFinite (j : Json) : Prop := ∀ n ∈ numbers j, n.Finite

theorem allFinite_string (s : String) : (Json.string s).AllFinite := List.forall_mem_nil _

theorem allFinite_bool (b : Bool) : (Json.bool b).AllFinite := List.forall_mem_nil _

theorem allFinite_int (n : Int) : (Json.int n).AllFinite := List.forall_mem_singleton.2 trivial

theorem allFinite_nat (n : Nat) : (Json.nat n).AllFinite := allFinite_int n

/-- A number that is not finite is written as `null`, which is none. -/
theorem allFinite_real (x : Float) : (Json.real x).AllFinite := by
  unfold real
  split
  · rename_i hfinite
    exact List.forall_mem_singleton.2 hfinite
  · exact List.forall_mem_nil _

theorem allFinite_orNull {α : Type} {f : α → Json} (h : ∀ x, (f x).AllFinite) (o : Option α) :
    (Json.orNull f o).AllFinite := by
  cases o with
  | none => exact List.forall_mem_nil _
  | some x => exact h x

theorem allFinite_array {xs : List Json} (h : ∀ x ∈ xs, x.AllFinite) : (Json.array xs).AllFinite := by
  induction xs with
  | nil => exact List.forall_mem_nil _
  | cons x xs ih =>
    rw [List.forall_mem_cons] at h
    exact List.forall_mem_append.2 ⟨h.1, ih h.2⟩

theorem allFinite_object {ms : List (String × Json)} (h : ∀ m ∈ ms, m.2.AllFinite) :
    (Json.object ms).AllFinite := by
  intro n hn
  obtain ⟨m, hm, hnm⟩ := mem_memberNumbers.1 hn
  exact h m hm n hnm

theorem AllFinite.canonical {j : Json} (h : j.AllFinite) : j.canonical.AllFinite :=
  fun n hn => h n (mem_numbers_canonical j hn)

theorem nat_injective : Function.Injective Json.nat := by
  intro m n h
  simpa [Json.nat] using h

theorem int_injective : Function.Injective Json.int := by
  intro m n h
  simpa [Json.int] using h

theorem string_injective : Function.Injective Json.string := fun _ _ => Json.string.inj

end Json

namespace LogEntry

variable {e e' : LogEntry}

/-- No number of the entry is written as `null`. -/
structure Finite (e : LogEntry) : Prop where
  bandwidth : ∀ x ∈ e.bandwidth, x.isFinite = true
  details : ∀ d ∈ e.details, d.AllFinite

theorem allFinite_toJson (h : e.Finite) : e.toJson.AllFinite := by
  have hmap {α : Type} {f : α → Json} (hf : ∀ x, (f x).AllFinite) (o : Option α) :
      ∀ j ∈ o.map f, j.AllFinite := by
    intro j hj
    obtain ⟨x, -, rfl⟩ := Option.map_eq_some_iff.1 hj
    exact hf x
  have htext (o : Option String) := hmap allFinite_string o
  have hfields : ∀ f ∈ e.fields, ∀ j ∈ f.2, j.AllFinite := by
    simp only [fields, List.forall_mem_cons, List.not_mem_nil, false_implies, implies_true, and_true]
    refine ⟨htext (some _), htext (some _), htext (some _), htext (some _), htext _, htext _,
      hmap (fun p => allFinite_string _) _, hmap allFinite_nat _, hmap allFinite_nat _,
      hmap allFinite_int _, hmap allFinite_real _, htext _, hmap (fun o => allFinite_string _) _,
      hmap allFinite_nat _, hmap (fun ps => allFinite_array ?_) _, h.details⟩
    intro x hx
    obtain ⟨p, -, rfl⟩ := List.mem_map.1 hx
    exact allFinite_string p
  rw [toJson_eq]
  exact allFinite_object (forall_present hfields)

/-- Entries of one line agree in every field. -/
theorem field_of_line (he : e.Finite) (he' : e'.Finite) (h : e.line = e'.line) (k : String) :
    e.field k = e'.field k := by
  have hjson := compact_injective (allFinite_toJson he) (allFinite_toJson he') h
  rw [toJson_eq, toJson_eq, Json.object.injEq] at hjson
  rw [field, field, ← lookup_present e.nodup_fields, ← lookup_present e'.nodup_fields, hjson]

theorem bandwidth_of_field (he : e.Finite) (he' : e'.Finite)
    (h : e.bandwidth.map Json.real = e'.bandwidth.map Json.real) : e.bandwidth = e'.bandwidth := by
  cases hx : e.bandwidth with
  | none =>
    rw [hx] at h
    exact (Option.map_eq_none_iff.1 h.symm).symm
  | some x =>
    rw [hx] at h
    obtain ⟨y, hy, heq⟩ := Option.map_eq_some_iff.1 h.symm
    rw [real_of_finite (he.bandwidth x hx), real_of_finite (he'.bandwidth y hy)] at heq
    cases heq
    exact hy.symm

/-- A line is that of one entry only. -/
theorem injOn_line : Set.InjOn line {e | e.Finite} := by
  intro e he e' he' h
  have hfield := field_of_line he he' h
  have htext {a b : String} (hab : some (Json.string a) = some (Json.string b)) : a = b :=
    string_injective (Option.some.inj hab)
  have hword {α : Type} {name : α → String} {named : String → Option α}
      (hnamed : ∀ x, named (name x) = some x) : Function.Injective fun x => Json.string (name x) := by
    intro x y hxy
    have hname := congrArg named (string_injective hxy)
    rwa [hnamed, hnamed, Option.some.injEq] at hname
  have hstrings : Function.Injective fun ps : List String => Json.array (ps.map .string) :=
    fun ps qs hpq => List.map_injective_iff.2 string_injective (Json.array.inj hpq)
  have htimestamp := htext (by simpa using hfield "timestamp")
  have htraceId := htext (by simpa using hfield "trace_id")
  have hlevel : e.level = e'.level :=
    hword Level.ofName?_name (Option.some.inj (by simpa using hfield "level"))
  have hevent := htext (by simpa using hfield "event")
  have hrunId := Option.map_injective string_injective (by simpa using hfield "run_id")
  have hcomponent := Option.map_injective string_injective (by simpa using hfield "component")
  have hphase := Option.map_injective (hword Phase.ofName?_name) (by simpa using hfield "phase")
  have hiteration := Option.map_injective nat_injective (by simpa using hfield "iteration")
  have hratio := Option.map_injective nat_injective (by simpa using hfield "ratio")
  have hstep := Option.map_injective int_injective (by simpa using hfield "step")
  have hbandwidth := bandwidth_of_field he he' (by simpa using hfield "bandwidth")
  have hrule := Option.map_injective string_injective (by simpa using hfield "rule")
  have houtcome := Option.map_injective (hword Outcome.ofName?_name) (by simpa using hfield "outcome")
  have hduration := Option.map_injective nat_injective (by simpa using hfield "duration_ms")
  have hartifacts := Option.map_injective hstrings (by simpa using hfield "artifact_refs")
  have hdetails : e.details = e'.details := by simpa using hfield "details"
  obtain ⟨⟩ := e
  obtain ⟨⟩ := e'
  simp only at *
  subst htimestamp htraceId hlevel hevent hrunId hcomponent hphase hiteration hratio hstep hbandwidth
    hrule houtcome hduration hartifacts hdetails
  rfl

end LogEntry

end Interleave
