import Interleave.Proofs.Fallible
import Interleave.Proofs.Number.Digits
import Interleave.Proofs.Telemetry.Nodes

/-!
# Nodes without a memory of their own

A reading of a node from 2 to 9 is a fault. The pattern of a reading has room for one digit, so a line that
names a node of two or more digits has no reading at its head, and is noise if there is none further on.

Results:
* `lineReading?_of_le`, `lineReading?_of_ten_le`: what is read of a line of a node.
* `node_le_of_error`: a fault names a node of one digit.
* `unknown_node_refused_iff`: which unknown nodes are refused, and what becomes of the others.
* `node_ten_dropped`: a stream of node 10 reads as an empty one.
-/
namespace Interleave.Telemetry

open Text (NumberedLine isDigit number)

variable {id n : Nat} {between total text : String} {before after : List String}

/-- The part of a line of a node that follows its colon: anything, and a total. -/
def nodeTail (between total : String) : String := between ++ " Total " ++ total ++ " MB/s"

/-- A line of a node. -/
def nodeLine (id : Nat) (between total : String) : String :=
  "Node " ++ toString id ++ ": " ++ nodeTail between total

theorem toList_nodeLine : (nodeLine id between total).toList =
    ['N', 'o', 'd', 'e', ' '] ++ (Decimal.digits id ++ ':' :: ' ' :: (nodeTail between total).toList) := by
  simp [nodeLine, Decimal.digits]

theorem digits_of_le (h : id ≤ 9) : Decimal.digits id = [id.digitChar] :=
  Nat.toDigits_of_lt_base (by omega)

theorem digits_of_ten_le (h : 10 ≤ id) : ∃ c d ds, Decimal.digits id = c :: d :: ds := by
  have hlast : Decimal.digits id = Decimal.digits (id / 10) ++ [(id % 10).digitChar] :=
    Nat.toDigits_of_base_le (by decide) h
  obtain ⟨c, cs, hcs⟩ := List.exists_cons_of_ne_nil (Decimal.digits_ne_nil (id / 10))
  rw [hlast, hcs]
  cases cs with
  | nil => exact ⟨c, _, [], rfl⟩
  | cons d ds => exact ⟨c, d, _, rfl⟩

/-! ## Lines of a node -/

theorem nodeTotal?_of_ne {c : Char} (hc : c ≠ ' ') (cs : List Char) : nodeTotal? (c :: cs) = none := by
  simp [nodeTotal?, Text.afterWord?, Ne.symm hc]

theorem nodeTotal?_total (hne : total.toList ≠ []) (h : ∀ d ∈ total.toList, d.isDigit) :
    nodeTotal? (' ' :: (['T', 'o', 't', 'a', 'l', ' '] ++ (total.toList ++ [' ', 'M', 'B', '/', 's']))) =
      some total.toList := by
  have hrun : Text.digitRun? (total.toList ++ [' ', 'M', 'B', '/', 's']) =
      some (total.toList, [' ', 'M', 'B', '/', 's']) :=
    Text.digitRun?_append hne (fun d hd => Text.isDigit_of_isDigit (h d hd)) (by decide)
  simp [nodeTotal?, throughput?, Text.afterWord?, hrun]

/-- The total at the end of a line is the last one. -/
theorem last?_nodeTail (h : Literal.digits? total.toList = some n) :
    Text.last? nodeTotal? (nodeTail between total).toList = some total.toList := by
  obtain ⟨⟨hne, hall⟩, -⟩ := Option.ite_none_right_eq_some.1 h
  have hdigit : ∀ d ∈ total.toList, d.isDigit := List.all_eq_true.1 hall
  -- A total begins with a blank, and of the three from the last word on only the first begins one.
  have hunit : Text.last? nodeTotal? (total.toList ++ [' ', 'M', 'B', '/', 's']) = none := by
    rw [Text.last?_append_of_none]
    · rfl
    · intro c rest hc
      refine nodeTotal?_of_ne ?_ rest
      rintro rfl
      exact absurd (hdigit _ hc) (by decide)
  have hgap : Text.last? nodeTotal? (' ' :: (total.toList ++ [' ', 'M', 'B', '/', 's'])) = none := by
    rw [Text.last?, hunit]
    obtain ⟨d, ds, hds⟩ := List.exists_cons_of_ne_nil hne
    have hd : 'T' ≠ d := by
      rintro rfl
      exact absurd (hdigit 'T' (by simp [hds])) (by decide)
    simp [hds, nodeTotal?, throughput?, Text.afterWord?, hd]
  have hword : Text.last? nodeTotal?
      (['T', 'o', 't', 'a', 'l'] ++ ' ' :: (total.toList ++ [' ', 'M', 'B', '/', 's'])) = none := by
    rw [Text.last?_append_of_none, hgap]
    intro c rest hc
    refine nodeTotal?_of_ne ?_ rest
    rintro rfl
    exact absurd hc (by decide)
  rw [nodeTail, String.toList_append, String.toList_append, String.toList_append, List.append_assoc,
    List.append_assoc]
  refine Text.last?_append _ ?_
  change Text.last? nodeTotal?
    (' ' :: (['T', 'o', 't', 'a', 'l'] ++ ' ' :: (total.toList ++ [' ', 'M', 'B', '/', 's']))) = _
  rw [Text.last?, hword]
  exact nodeTotal?_total hne hdigit

/-- A node of one digit is read. -/
theorem lineReading?_of_le (hid : id ≤ 9) (h : Literal.digits? total.toList = some n) (m : Nat) :
    lineReading? ⟨m, nodeLine id between total⟩ = some ⟨id.digitChar, total.toList⟩ := by
  have hdigit : isDigit id.digitChar := by
    refine Text.isDigit_of_isDigit (Decimal.isDigit_of_mem_digits (n := id) ?_)
    rw [digits_of_le hid]
    exact List.mem_singleton_self _
  refine Text.first?_of_match ?_
  rw [toList_nodeLine, digits_of_le hid, nodeReading?, Text.afterWord?_append]
  simp [hdigit, last?_nodeTail h]

/-- A node of more digits is not: the line says what it says behind its colon. -/
theorem lineReading?_of_ten_le (hid : 10 ≤ id) (m : Nat) :
    lineReading? ⟨m, nodeLine id between total⟩ = lineReading? ⟨m, nodeTail between total⟩ := by
  obtain ⟨c, d, ds, hdigits⟩ := digits_of_ten_le hid
  have hdigit : ∀ d ∈ Decimal.digits id, d.isDigit := fun d hd => Decimal.isDigit_of_mem_digits hd
  have hcolon : d ≠ ':' := by
    rintro rfl
    exact absurd (hdigit ':' (by simp [hdigits])) (by decide)
  have hhead : nodeReading? (nodeLine id between total).toList = none := by
    rw [toList_nodeLine, nodeReading?, Text.afterWord?_append, hdigits]
    simp [hcolon]
  have hsplit : (nodeLine id between total).toList =
      'N' :: ((['o', 'd', 'e', ' '] ++ Decimal.digits id ++ [':', ' ']) ++
        (nodeTail between total).toList) := by
    rw [toList_nodeLine]
    simp
  rw [lineReading?, lineReading?]
  dsimp only
  rw [hsplit] at hhead ⊢
  rw [Text.first?, hhead]
  -- The only `N` up to the colon is the first character.
  refine Text.first?_append fun c rest hc => ?_
  have hword : c ≠ 'N' := by
    rintro rfl
    simp only [List.mem_append] at hc
    rcases hc with (hc | hc) | hc
    · exact absurd hc (by decide)
    · exact absurd (hdigit _ hc) (by decide)
    · exact absurd hc (by decide)
  simp [nodeReading?, Text.afterWord?, Ne.symm hword]

theorem isNoise_nodeLine (hid : 10 ≤ id) (h : '\n' ∉ (nodeLine id between total).toList) :
    IsNoise (nodeLine id between total) ↔ IsNoise (nodeTail between total) := by
  have htail : '\n' ∉ (nodeTail between total).toList := by
    rw [toList_nodeLine] at h
    simp_all
  rw [isNoise_iff_lineReading h 0, isNoise_iff_lineReading htail 0, lineReading?_of_ten_le hid]

/-! ## Faults -/

theorem node_le_of_readReading {line : NumberedLine} {r : NodeReading} {x : Float}
    (h : readReading line r = .ok (id, x)) : id ≤ 9 := by
  unfold readReading at h
  split at h
  · rename_i node _ hnode _
    cases h
    obtain ⟨⟨-, hdigit⟩, hvalue⟩ := Option.ite_none_right_eq_some.1 hnode
    rw [Option.some_inj, Decimal.ofDigits, List.foldl_cons, List.foldl_nil] at hvalue
    have hle : r.node.toNat ≤ '9'.toNat := by simp_all [Char.isDigit, UInt32.le_iff_toNat_le]
    have hnine : '9'.toNat = 57 := rfl
    have hzero : '0'.toNat = 48 := rfl
    omega
  · cases h

/-- A fault names a node of one digit. -/
theorem node_le_of_error {ls : List NumberedLine} {m : Nat}
    (h : readNodeLines ls = .error (.invalidNode id m)) : id ≤ 9 := by
  induction ls with
  | nil => cases h
  | cons l ls ih =>
    rw [readNodeLines] at h
    split at h
    · exact ih h
    · split at h
      · cases h
      · exact ih (Fallible.map_eq_error.1 h)
      · exact ih (Fallible.map_eq_error.1 h)
      · rename_i hread
        cases h
        exact node_le_of_readReading hread

/-- A stream names an unknown node if its lines do. -/
theorem readNodes_eq_invalid_iff {m : Nat} : readNodes text = .error (.invalidNode id m) ↔
    readNodeLines (Text.numberedLines text) = .error (.invalidNode id m) := by
  rw [readNodes]
  cases readNodeLines (Text.numberedLines text) with
  | error fault => rfl
  | ok s =>
    change (if s.near.length ≠ s.far.length ∧ s.far ≠ [] then _ else _) = _ ↔ _
    constructor
    · intro h
      split at h <;> cases h
    · intro h
      cases h

/-! ## Unknown nodes -/

/-- A node of one digit is refused if it is neither of the two memories. -/
theorem readNodeLines_nodeLine {ls : List NumberedLine} (hid : 2 ≤ id) (hle : id ≤ 9)
    (htotal : Literal.digits? total.toList = some n) (m : Nat) :
    readNodeLines (⟨m, nodeLine id between total⟩ :: ls) = .error (.invalidNode id m) := by
  obtain ⟨⟨-, hall⟩, -⟩ := Option.ite_none_right_eq_some.1 htotal
  have hnode : Literal.digits? [id.digitChar] = some id := by
    rw [← digits_of_le hle]
    exact Literal.digits?_digits id
  have hfloat : Literal.float? total = some (Decimal.toFloat ⟨n, 0⟩) := by
    rw [← String.ofList_toList (s := total), float?_of_isDigit, htotal]
    · rfl
    · intro d hd
      exact Text.isDigit_of_isDigit (List.all_eq_true.1 hall d hd)
  have hread : readReading ⟨m, nodeLine id between total⟩ ⟨id.digitChar, total.toList⟩ =
      .ok (id, Decimal.toFloat ⟨n, 0⟩) := by
    rw [readReading, hnode, String.ofList_toList, hfloat]
  obtain ⟨k, rfl⟩ := Nat.exists_eq_add_of_le' hid
  rw [readNodeLines, lineReading?_of_le hle htotal]
  dsimp only
  rw [hread]
  rfl

/-- A reading of a node from 2 to 9 is refused, at its line if no line before it is at fault. A reading of
a node of more digits is not seen: if there is no other on its line, the text reads as it does without the
line. -/
theorem unknown_node_refused_iff (hid : 2 ≤ id) (htotal : Literal.digits? total.toList = some n)
    (hlines : Text.lines text = before ++ nodeLine id between total :: after) :
    (id ≤ 9 → ∃ fault, readNodes text = .error fault) ∧
    ((∀ l ∈ before, ¬Fatal l) →
      (readNodes text = .error (.invalidNode id (before.length + 1)) ↔ id ≤ 9)) ∧
    (10 ≤ id → IsNoise (nodeTail between total) → ∀ other, Text.lines other = before ++ after →
      ∀ s, readNodes text = .ok s ↔ readNodes other = .ok s) := by
  have hfeed : ∀ l ∈ before ++ nodeLine id between total :: after, '\n' ∉ l.toList := by
    rw [← hlines]
    exact fun l => Text.not_mem_of_mem_lines
  refine ⟨fun hle => ?_, fun hbefore => ⟨fun h => ?_, fun hle => ?_⟩,
    fun hge hnoise other hother s => ?_⟩
  · have hfatal : Fatal (nodeLine id between total) := by
      by_contra hnot
      have hread := readNodeLines_cons (hfeed _ (by simp)) hnot 1 []
      rw [readNodeLines_nodeLine hid hle htotal] at hread
      cases hread
    cases hread : readNodes text with
    | error fault => exact ⟨fault, rfl⟩
    | ok s => exact absurd hfatal ((readNodes_eq_ok_iff.1 hread).1 _ (by simp [hlines]))
  · exact node_le_of_error (readNodes_eq_invalid_iff.1 h)
  · refine readNodes_eq_invalid_iff.2 ?_
    rw [Text.numberedLines, hlines, readNodeLines_append hfeed hbefore, number,
      readNodeLines_nodeLine hid hle htotal, Nat.add_comm 1]
    rfl
  · have hline := (isNoise_nodeLine hge (hfeed _ (by simp))).2 hnoise
    have hremove : Rearranged (Text.lines text) (Text.lines other) := by
      rw [hlines, hother]
      exact .remove hline
    have hinsert : Rearranged (Text.lines other) (Text.lines text) := by
      rw [hlines, hother]
      exact .insert hline
    exact ⟨hremove.readNodes_eq, hinsert.readNodes_eq⟩

/-- A reading of node 2 behind noise. -/
def nodeTwoText : String := "start\nNode 2: Read 1 Write 1 Total 2 MB/s\n"

/-- A reading of node 10, and no more. -/
def nodeTenText : String := "Node 10: Read 1 Write 1 Total 2 MB/s\n"

theorem unknown_node_refused_iff_digits :
    readNodes nodeTwoText = .error (.invalidNode 2 2) ∧
      ∀ s, readNodes nodeTenText = .ok s ↔ readNodes "" = .ok s := by
  have htwo : Text.lines nodeTwoText = ["start"] ++ nodeLine 2 "Read 1 Write 1" "2" :: [] := by
    decide +kernel
  have hten : Text.lines nodeTenText = [] ++ nodeLine 10 "Read 1 Write 1" "2" :: [] := by decide +kernel
  have htotal : Literal.digits? "2".toList = some 2 := by decide
  refine ⟨((unknown_node_refused_iff (by decide) htotal htwo).2.1 (by decide)).2 (by decide), ?_⟩
  exact (unknown_node_refused_iff (by decide) htotal hten).2.2 (by decide) (by decide +kernel) ""
    (by decide)

/-- Node 10 is neither local nor remote memory, but its stream reads as an empty one. -/
theorem node_ten_dropped :
    Text.lines nodeTenText = [nodeLine 10 "Read 1 Write 1" "2"] ∧ readNodes nodeTenText = .ok {} := by
  decide +kernel

end Interleave.Telemetry
