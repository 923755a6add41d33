import Interleave.Proofs.Telemetry.Patterns
import Interleave.Proofs.Text.Lines
import Mathlib

/-!
# Node streams lose nothing

The bandwidths of a node are those of its lines (`bandwidth?`), in their order. What stands between these
lines, and how the lines of both nodes are mixed, does not matter.

Results:
* `readNodeLines_append`: lines without a fatal one add to the series what they say.
* `readNodes_eq_ok_iff`: when a stream reads, and what it gives.
* `Rearranged.series_eq`: noise and mixing leave the series alone.
* `nodes_lose_nothing`: a stream that reads is read in full.
-/
namespace Interleave.Telemetry

open Text (NumberedLine isDigit number)

variable {id : Nat} {x : Float} {text l : String} {lines before after : List String} {s : NodeSeries}

/-! ## What a line says -/

/-- What the leftmost reading of a line keeps: the digit of its node and the digits of its total. -/
def nodeGroups? (text : String) : Option (List (List Char)) :=
  (nodePattern.find? text.toList).map (·.groups)

/-- The line has no reading. -/
def IsNoise (text : String) : Prop := ∀ w, ¬nodePattern.Finds text.toList w

/-- The bandwidth of a node, if the line has a reading of it. -/
def bandwidth? (id : Nat) (text : String) : Option Float :=
  match nodeGroups? text with
  | some [node, total] =>
    if Literal.digits? node = some id then
      (Literal.digits? total).map fun n => Decimal.toFloat ⟨n, 0⟩
    else none
  | _ => none

/-- The line has a reading, but neither of local nor of remote memory. -/
def Fatal (text : String) : Prop :=
  ¬IsNoise text ∧ bandwidth? 0 text = none ∧ bandwidth? 1 text = none

instance (text : String) : Decidable (IsNoise text) :=
  decidable_of_iff (nodePattern.find? text.toList = none) Text.Pattern.find?_eq_none_iff

instance (text : String) : Decidable (Fatal text) := inferInstanceAs (Decidable (_ ∧ _))

theorem isNoise_iff : IsNoise text ↔ nodeGroups? text = none := by
  rw [IsNoise, ← Text.Pattern.find?_eq_none_iff, nodeGroups?, Option.map_eq_none_iff]

theorem IsNoise.bandwidth?_eq (h : IsNoise text) (id : Nat) : bandwidth? id text = none := by
  rw [bandwidth?, isNoise_iff.1 h]

theorem IsNoise.not_fatal (h : IsNoise text) : ¬Fatal text := fun hfatal => hfatal.1 h

theorem bandwidth?_eq_some_iff : bandwidth? id text = some x ↔
    ∃ node total n, nodeGroups? text = some [node, total] ∧ Literal.digits? node = some id ∧
      Literal.digits? total = some n ∧ Decimal.toFloat ⟨n, 0⟩ = x := by
  unfold bandwidth?
  split
  · rename_i node total hgroups
    rw [hgroups, Option.ite_none_right_eq_some, Option.map_eq_some_iff]
    constructor
    · rintro ⟨hnode, n, htotal, hx⟩
      exact ⟨node, total, n, rfl, hnode, htotal, hx⟩
    · rintro ⟨_, _, n, hsame, hnode, htotal, hx⟩
      cases hsame
      exact ⟨hnode, n, htotal, hx⟩
  · rename_i hother
    constructor
    · intro h
      cases h
    · rintro ⟨node, total, -, hgroups, -⟩
      exact absurd hgroups (hother node total)

/-- A line is of one node. -/
theorem bandwidth?_eq_none {other : Nat} (h : bandwidth? id text = some x) (hne : other ≠ id) :
    bandwidth? other text = none := by
  obtain ⟨node, total, n, hgroups, hnode, -, -⟩ := bandwidth?_eq_some_iff.1 h
  rw [bandwidth?, hgroups]
  dsimp only
  rw [hnode, if_neg (by simpa using hne.symm)]

/-! ## Reading a line -/

theorem toLower_of_isDigit {c : Char} (h : isDigit c) : c.toLower = c := by
  have hapart : ∀ z ∈ Text.decimalZeros, z + 10 ≤ 'A'.toNat ∨ 'Z'.toNat < z := by decide
  simp only [isDigit, List.any_eq_true, Bool.and_eq_true, decide_eq_true_eq] at h
  obtain ⟨z, hz, hle, hlt⟩ := h
  have hor := hapart z hz
  have hupper : ¬(c.val ≥ 'A'.val ∧ c.val ≤ 'Z'.val) := by
    intro h
    have ha : 'A'.toNat ≤ c.toNat := h.1
    have hb : c.toNat ≤ 'Z'.toNat := h.2
    omega
  rw [Char.toLower, dif_neg hupper]

theorem decimal?_of_isDigit {ds : List Char} (h : ∀ d ∈ ds, isDigit d) :
    Literal.decimal? ds = (Literal.digits? ds).map fun n => ⟨n, 0⟩ := by
  have hsplit := List.takeWhile_append_dropWhile (p := Char.isDigit) (l := ds)
  rw [Literal.decimal?, Literal.digits?]
  cases hrest : ds.dropWhile Char.isDigit with
  | nil =>
    rw [hrest, List.append_nil] at hsplit
    have hall : ds.all Char.isDigit := by
      rw [← hsplit]
      exact List.all_takeWhile
    by_cases hne : ds = []
    · simp [hne]
    · simp [hsplit, hne, hall, Literal.power?, Decimal.ofParts]
  | cons c rest =>
    -- A digit of another script is neither a point nor the mark of a power.
    have hc : isDigit c := h c (by rw [← hsplit, hrest]; simp)
    have hascii : c.isDigit = false := by
      have hhead := List.head?_dropWhile_not Char.isDigit ds
      rw [hrest] at hhead
      simpa using hhead
    have hall : ds.all Char.isDigit = false := by
      rw [← hsplit, hrest]
      simp [hascii]
    have hpoint : c ≠ '.' := Ne.symm (isDigit_ne hc (by decide))
    have hlower : c ≠ 'e' := Ne.symm (isDigit_ne hc (by decide))
    have hupper : c ≠ 'E' := Ne.symm (isDigit_ne hc (by decide))
    simp [hpoint, hlower, hupper, Literal.power?, hall]

/-- Digits are a number if they are ASCII digits. -/
theorem float?_of_isDigit {ds : List Char} (h : ∀ d ∈ ds, isDigit d) :
    Literal.float? (String.ofList ds) = (Literal.digits? ds).map fun n => Decimal.toFloat ⟨n, 0⟩ := by
  have habsent {c : Char} (hc : isDigit c = false) : c ∉ ds := by
    intro hmem
    rw [h c hmem] at hc
    cases hc
  have hunsigned : Literal.binary64? (String.ofList ds) = Literal.unsigned? ds := by
    rw [Literal.binary64?, String.toList_ofList]
    split
    · exact absurd List.mem_cons_self (habsent (by decide))
    · exact absurd List.mem_cons_self (habsent (by decide))
    · rfl
  have hlower : ds.map Char.toLower = ds := by
    rw [List.map_congr_left fun d hd => toLower_of_isDigit (h d hd), List.map_id']
  have hword (word : String) (hn : 'n' ∈ word.toList) : String.ofList ds ≠ word := by
    intro heq
    rw [← heq, String.toList_ofList] at hn
    exact habsent (by decide) hn
  have hinf := hword "inf" (by decide)
  have hinfinity := hword "infinity" (by decide)
  have hnan := hword "nan" (by decide)
  rw [Literal.float?, hunsigned, Literal.unsigned?, hlower, decimal?_of_isDigit h]
  simp [hinf, hinfinity, hnan, Function.comp_def, Binary64.toFloat, Binary64.ofFloat, Float.ofBits_toBits]

theorem nodeGroups?_eq (h : '\n' ∉ text.toList) (n : Nat) :
    nodeGroups? text = (lineReading? ⟨n, text⟩).map fun r => [[r.node], r.digits] := find?_node h

theorem isNoise_iff_lineReading (h : '\n' ∉ text.toList) (n : Nat) :
    IsNoise text ↔ lineReading? ⟨n, text⟩ = none := by
  rw [isNoise_iff, nodeGroups?_eq h n, Option.map_eq_none_iff]

theorem readReading_eq_ok_iff {n : Nat} {r : NodeReading} (h : '\n' ∉ text.toList)
    (hr : lineReading? ⟨n, text⟩ = some r) :
    readReading ⟨n, text⟩ r = .ok (id, x) ↔ bandwidth? id text = some x := by
  obtain ⟨here, -, hhere, -⟩ := Text.first?_eq_some_iff.1 hr
  rw [readReading, float?_of_isDigit (isDigit_of_nodeReading hhere), bandwidth?, nodeGroups?_eq h n, hr]
  dsimp only [Option.map_some]
  cases Literal.digits? [r.node] <;> cases Literal.digits? r.digits <;> simp

/-! ## Lines -/

/-- What lines say of both nodes. -/
def series (lines : List String) : NodeSeries :=
  ⟨lines.filterMap (bandwidth? 0), lines.filterMap (bandwidth? 1)⟩

/-- Bandwidths, and those that arrive behind them. -/
def NodeSeries.append (s t : NodeSeries) : NodeSeries := ⟨s.near ++ t.near, s.far ++ t.far⟩

theorem series_append (a b : List String) : series (a ++ b) = (series a).append (series b) := by
  simp [series, NodeSeries.append]

/-- A line that is not fatal adds what it says. -/
theorem readNodeLines_cons (h : '\n' ∉ l.toList) (hl : ¬Fatal l) (n : Nat) (ls : List NumberedLine) :
    readNodeLines (⟨n, l⟩ :: ls) = (readNodeLines ls).map (series [l]).append := by
  rw [readNodeLines]
  cases hreading : lineReading? ⟨n, l⟩ with
  | none =>
    have hnoise := (isNoise_iff_lineReading h n).2 hreading
    cases readNodeLines ls <;> simp [series, hnoise.bandwidth?_eq, NodeSeries.append, Except.map]
  | some r =>
    have hfilled : ¬IsNoise l := by simp [isNoise_iff_lineReading h n, hreading]
    have hread (id : Nat) (x : Float) : readReading ⟨n, l⟩ r = .ok (id, x) ↔ bandwidth? id l = some x :=
      readReading_eq_ok_iff h hreading
    cases hnear : bandwidth? 0 l with
    | some x =>
      have hfar := bandwidth?_eq_none hnear (show 1 ≠ 0 by decide)
      dsimp only
      rw [(hread 0 x).2 hnear, series, List.filterMap_cons_some hnear, List.filterMap_cons_none hfar]
      rfl
    | none =>
      cases hfar : bandwidth? 1 l with
      | some x =>
        dsimp only
        rw [(hread 1 x).2 hfar, series, List.filterMap_cons_none hnear, List.filterMap_cons_some hfar]
        rfl
      | none => exact absurd ⟨hfilled, hnear, hfar⟩ hl

/-- A fatal line ends the reading, whatever stands behind it. -/
theorem readNodeLines_fatal (h : '\n' ∉ l.toList) (hl : Fatal l) (n : Nat) :
    ∃ fault, ∀ ls, readNodeLines (⟨n, l⟩ :: ls) = .error fault := by
  obtain ⟨hfilled, hnear, hfar⟩ := hl
  cases hreading : lineReading? ⟨n, l⟩ with
  | none => exact absurd ((isNoise_iff_lineReading h n).2 hreading) hfilled
  | some r =>
    have hread (id : Nat) (x : Float) : readReading ⟨n, l⟩ r = .ok (id, x) ↔ bandwidth? id l = some x :=
      readReading_eq_ok_iff h hreading
    cases hr : readReading ⟨n, l⟩ r with
    | error fault =>
      refine ⟨.control fault, fun ls => ?_⟩
      simp [readNodeLines, hreading, hr]
    | ok found =>
      obtain ⟨id, x⟩ := found
      have hsome := (hread id x).1 hr
      match id with
      | 0 => simp [hnear] at hsome
      | 1 => simp [hfar] at hsome
      | id + 2 =>
        refine ⟨.invalidNode (id + 2) n, fun ls => ?_⟩
        simp [readNodeLines, hreading, hr]

/-- Lines without a fatal one add what they say. -/
theorem readNodeLines_append {first : Nat} (hlines : ∀ l ∈ before ++ after, '\n' ∉ l.toList)
    (hbefore : ∀ l ∈ before, ¬Fatal l) :
    readNodeLines (number first (before ++ after)) =
      (readNodeLines (number (first + before.length) after)).map (series before).append := by
  induction before generalizing first with
  | nil =>
    cases h : readNodeLines (number first after) <;>
      simp [h, series, NodeSeries.append, Except.map]
  | cons l before ih =>
    rw [List.cons_append, List.forall_mem_cons] at hlines
    rw [List.forall_mem_cons] at hbefore
    have hseries : series (l :: before) = (series [l]).append (series before) := series_append [l] before
    rw [List.cons_append, number, readNodeLines_cons hlines.1 hbefore.1, ih hlines.2 hbefore.2, hseries,
      List.length_cons, Nat.add_right_comm]
    cases readNodeLines (number (first + before.length + 1) after) <;>
      simp [NodeSeries.append, Except.map]

/-- The first fatal line is the fault of all, whatever stands behind it. -/
theorem readNodeLines_of_fatal (hlines : ∀ line ∈ before ++ l :: after, '\n' ∉ line.toList)
    (hbefore : ∀ line ∈ before, ¬Fatal line) (hl : Fatal l) (first : Nat) :
    ∃ fault, readNodeLines (number first (before ++ l :: after)) = .error fault := by
  obtain ⟨fault, hfault⟩ := readNodeLines_fatal (hlines l (by simp)) hl (first + before.length)
  refine ⟨fault, ?_⟩
  rw [readNodeLines_append hlines hbefore, number, hfault]
  rfl

/-- Lines read if none of them is fatal. -/
theorem readNodeLines_eq_ok_iff {first : Nat} (hlines : ∀ l ∈ lines, '\n' ∉ l.toList) :
    readNodeLines (number first lines) = .ok s ↔ (∀ l ∈ lines, ¬Fatal l) ∧ s = series lines := by
  rcases Text.all_or_first Fatal lines with hnone | ⟨before, l, after, rfl, hbefore, hl⟩
  · have hread : readNodeLines (number first lines) = .ok (series lines) := by
      rw [← List.append_nil lines] at hlines ⊢
      rw [readNodeLines_append hlines hnone, number, readNodeLines]
      simp [Except.map, NodeSeries.append]
    rw [hread, Except.ok.injEq]
    constructor
    · intro hs
      exact ⟨hnone, hs.symm⟩
    · intro h
      exact h.2.symm
  · obtain ⟨fault, hfault⟩ := readNodeLines_of_fatal hlines hbefore hl first
    rw [hfault]
    constructor
    · intro h
      cases h
    · intro h
      exact absurd hl (h.1 l (by simp))

/-! ## Streams -/

/-- A stream reads if no line is fatal and, if there are remote readings, they are as many as the local
ones. -/
theorem readNodes_eq_ok_iff : readNodes text = .ok s ↔
    (∀ l ∈ Text.lines text, ¬Fatal l) ∧ s = series (Text.lines text) ∧
      (s.far = [] ∨ s.near.length = s.far.length) := by
  have hlines : readNodeLines (number 1 (Text.lines text)) = .ok s ↔
      (∀ l ∈ Text.lines text, ¬Fatal l) ∧ s = series (Text.lines text) :=
    readNodeLines_eq_ok_iff fun _ => Text.not_mem_of_mem_lines
  rw [readNodes, Text.numberedLines, ← and_assoc, ← hlines]
  cases readNodeLines (number 1 (Text.lines text)) with
  | error fault =>
    constructor
    · intro h
      cases h
    · rintro ⟨h, -⟩
      cases h
  | ok t =>
    change (if t.near.length ≠ t.far.length ∧ t.far ≠ [] then _ else Except.ok t) = _ ↔ _
    split
    · rename_i hodd
      constructor
      · intro h
        cases h
      · rintro ⟨h, heven⟩
        cases h
        exact absurd heven (by simp [hodd])
    · rename_i heven
      rw [Except.ok.injEq]
      constructor
      · rintro rfl
        exact ⟨rfl, by tauto⟩
      · exact And.left

/-! ## Samples -/

/-- Every local bandwidth has a sample, with the remote one in its place or else 0. -/
theorem pairSamples_getElem? (near far : List Float) (i : Nat) :
    (pairSamples near far)[i]? = near[i]?.map fun x => pairSample x (far[i]?.getD 0.0) := by
  induction near generalizing far i with
  | nil => simp [pairSamples]
  | cons x near ih => cases far <;> cases i <;> simp [pairSamples, ih]

theorem length_pairSamples (near far : List Float) : (pairSamples near far).length = near.length := by
  induction near generalizing far with
  | nil => rfl
  | cons x near ih => cases far <;> simp [pairSamples, ih]

/-- Of as many remote bandwidths each is used once. -/
theorem remote_pairSamples {near far : List Float} (h : near.length = far.length) :
    (pairSamples near far).map (·.remotePart) = far.map .ofFloat := by
  induction near generalizing far with
  | nil => simp [pairSamples, List.length_eq_zero_iff.1 h.symm]
  | cons x near ih =>
    cases far with
    | nil => cases h
    | cons y far => simpa [pairSamples, pairSample] using ih (Nat.succ_inj.1 h)

/-! ## Noise and mixing -/

/-- The same lines of each node in the same order, among other noise and mixed in another way. -/
inductive Rearranged : List String → List String → Prop
  | insert {a b : List String} {noise : String} : IsNoise noise → Rearranged (a ++ b) (a ++ noise :: b)
  | remove {a b : List String} {noise : String} : IsNoise noise → Rearranged (a ++ noise :: b) (a ++ b)
  | reorder {a b : List String} : a.Perm b →
    a.filter (fun l => (bandwidth? 0 l).isSome) = b.filter (fun l => (bandwidth? 0 l).isSome) →
    a.filter (fun l => (bandwidth? 1 l).isSome) = b.filter (fun l => (bandwidth? 1 l).isSome) →
    Rearranged a b
  | trans {a b c : List String} : Rearranged a b → Rearranged b c → Rearranged a c

theorem series_noise {noise : String} (h : IsNoise noise) (a b : List String) :
    series (a ++ noise :: b) = series (a ++ b) := by
  simp [series, h.bandwidth?_eq]

theorem filterMap_congr_of_filter {a b : List String} {f : String → Option Float}
    (h : a.filter (fun l => (f l).isSome) = b.filter (fun l => (f l).isSome)) :
    a.filterMap f = b.filterMap f := by
  have hfilter (c : List String) : (c.filter fun l => (f l).isSome).filterMap f = c.filterMap f := by
    rw [List.filterMap_filter]
    refine List.filterMap_congr fun l _ => ?_
    cases f l <;> rfl
  rw [← hfilter a, h, hfilter b]

/-- Without a fatal line, a rearrangement has none either, and says the same of both nodes. -/
theorem Rearranged.series_eq {a b : List String} (h : Rearranged a b) (ha : ∀ l ∈ a, ¬Fatal l) :
    (∀ l ∈ b, ¬Fatal l) ∧ series b = series a := by
  induction h with
  | insert hnoise =>
    refine ⟨fun l hl => ?_, series_noise hnoise _ _⟩
    rw [List.mem_append, List.mem_cons] at hl
    rcases hl with hl | rfl | hl
    · exact ha l (List.mem_append_left _ hl)
    · exact hnoise.not_fatal
    · exact ha l (List.mem_append_right _ hl)
  | remove hnoise =>
    refine ⟨fun l hl => ha l ?_, (series_noise hnoise _ _).symm⟩
    rw [List.mem_append] at hl
    rw [List.mem_append, List.mem_cons]
    exact hl.imp_right .inr
  | reorder hperm hnear hfar =>
    refine ⟨fun l hl => ha l (hperm.mem_iff.2 hl), ?_⟩
    rw [series, series, filterMap_congr_of_filter hnear, filterMap_congr_of_filter hfar]
  | trans _ _ hab hbc =>
    obtain ⟨hb, heq⟩ := hab ha
    obtain ⟨hc, heq'⟩ := hbc hb
    exact ⟨hc, heq'.trans heq⟩

theorem Rearranged.readNodes_eq {other : String} (h : Rearranged (Text.lines text) (Text.lines other))
    (hread : readNodes text = .ok s) : readNodes other = .ok s := by
  obtain ⟨hlines, hseries, hlength⟩ := readNodes_eq_ok_iff.1 hread
  obtain ⟨hnone, hsame⟩ := h.series_eq hlines
  exact readNodes_eq_ok_iff.2 ⟨hnone, by rw [hseries, hsame], hlength⟩

/-- A stream that reads is read in full: every line with a reading counts for its node, every local
bandwidth has a sample, and a remote one is missing only if all are. Noise and mixing do not matter. -/
theorem nodes_lose_nothing (h : readNodes text = .ok s) :
    s.near = (Text.lines text).filterMap (bandwidth? 0) ∧
    s.far = (Text.lines text).filterMap (bandwidth? 1) ∧
    (∀ l ∈ Text.lines text, ¬IsNoise l → (bandwidth? 0 l).isSome ∨ (bandwidth? 1 l).isSome) ∧
    s.samples.length = s.near.length ∧
    (∀ (i : Nat) (x : Float), s.near[i]? = some x →
      ∃ y, s.samples[i]? = some ⟨.ofFloat x, .ofFloat y, .ofFloat (x + y)⟩ ∧
        (s.far[i]? = some y ∨ s.far = [] ∧ y = 0.0)) ∧
    (s.far ≠ [] → s.samples.map (·.remotePart) = s.far.map .ofFloat) ∧
    ∀ other, Rearranged (Text.lines text) (Text.lines other) → readNodes other = .ok s := by
  obtain ⟨hlines, hseries, hlength⟩ := readNodes_eq_ok_iff.1 h
  refine ⟨by rw [hseries, series], by rw [hseries, series], ?_, length_pairSamples _ _, ?_, ?_,
    fun other hother => hother.readNodes_eq h⟩
  · intro l hl hfilled
    by_contra hother
    simp only [not_or, Option.not_isSome_iff_eq_none] at hother
    exact hlines l hl ⟨hfilled, hother.1, hother.2⟩
  · intro i x hx
    refine ⟨s.far[i]?.getD 0.0, by rw [NodeSeries.samples, pairSamples_getElem?, hx]; rfl, ?_⟩
    rcases hlength with hnone | hlength
    · right
      simp [hnone]
    · left
      obtain ⟨hi, -⟩ := List.getElem?_eq_some_iff.1 hx
      rw [hlength] at hi
      simp [hi]
  · intro hne
    exact remote_pairSamples (hlength.resolve_left hne)

/-- Two readings of each node in turns, and noise among them. -/
def mixedText : String :=
  "Node 0: a Total 2 MB/s\nNode 1: b Total 3 MB/s\nsum\nNode 1: c Total 5 MB/s\nNode 0: d Total 4 MB/s\n"

/-- The same readings, those of local memory behind those of remote memory. -/
def partedText : String :=
  "Node 1: b Total 3 MB/s\nNode 1: c Total 5 MB/s\nNode 0: a Total 2 MB/s\nNode 0: d Total 4 MB/s"

theorem nodes_lose_nothing_parted :
    readNodes mixedText = .ok ⟨[2.0, 4.0], [3.0, 5.0]⟩ ∧
      readNodes partedText = .ok ⟨[2.0, 4.0], [3.0, 5.0]⟩ := by
  have hread : readNodes mixedText = .ok ⟨[2.0, 4.0], [3.0, 5.0]⟩ := by decide +kernel
  have hmixed : Text.lines mixedText = ["Node 0: a Total 2 MB/s", "Node 1: b Total 3 MB/s"] ++
      "sum" :: ["Node 1: c Total 5 MB/s", "Node 0: d Total 4 MB/s"] := by decide +kernel
  have hparted : Text.lines partedText = ["Node 1: b Total 3 MB/s", "Node 1: c Total 5 MB/s",
      "Node 0: a Total 2 MB/s", "Node 0: d Total 4 MB/s"] := by decide +kernel
  have hsame : Rearranged (Text.lines mixedText) (Text.lines partedText) := by
    rw [hmixed, hparted]
    exact .trans (.remove (by decide)) (.reorder (by decide) (by decide +kernel) (by decide +kernel))
  exact ⟨hread, (nodes_lose_nothing hread).2.2.2.2.2.2 partedText hsame⟩

end Interleave.Telemetry
