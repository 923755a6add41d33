import Interleave.Curve.File
import Interleave.Proofs.Csv.Written
import Interleave.Proofs.Curve.Points
import Interleave.Proofs.Curve.Sweep

/-!
# Two formats of one curve

A table and a sweep are read in ways that have nothing in common, and report different faults. Yet what
the table of some points holds, whichever order its rows and its columns are in and however its fields are
written (`Tabulates`), makes the same curve as the sweep of these points does, or none. A ratio beyond the
range is the fault of its row in a table, and of its point in a sweep; the points are checked against each
other in the order of the file, which the curve does not depend on (`Curve.ofPoints_perm`).

A field counts without the white space around it, so a column whose name has some is in no table.

Results:
* `CurveTable.readRow_row`: what a row of a table is read as.
* `CurveTable.read_of_tabulates`: a table is read as its points make a curve.
* `Curve.ofFile_formats_agree`: the table and the sweep of the same points.
-/
namespace Interleave

theorem fromUTF8?_toUTF8 (text : String) : String.fromUTF8? text.toUTF8 = some text := by
  unfold String.fromUTF8?
  exact dif_pos text.isValidUTF8

theorem toOption_mapError {α ε ε' : Type} (f : ε → ε') (x : Except ε α) :
    (x.mapError f).toOption = x.toOption := by
  cases x <;> rfl

theorem toList_loop (bytes : ByteArray) (i : Nat) (before : List UInt8) :
    ByteArray.toList.loop bytes i before = before.reverse ++ bytes.data.toList.drop i := by
  fun_induction ByteArray.toList.loop bytes i before with
  | case1 i before hlt ih =>
    have hinside : i < bytes.data.toList.length := by simpa using hlt
    have hget : bytes.get! i = bytes.data.toList[i] := by
      unfold ByteArray.get!
      simp [hlt]
    rw [ih, List.reverse_cons, List.append_assoc, hget, List.singleton_append, List.getElem_cons_drop]
  | case2 i before hge =>
    rw [List.drop_eq_nil_of_le (by simpa using hge), List.append_nil]

theorem toList_eq (bytes : ByteArray) : bytes.toList = bytes.data.toList := by
  rw [ByteArray.toList, toList_loop]
  rfl

namespace CurveTable

/-- The bytes of a field that holds a text. -/
def fieldOf (text : String) : Csv.Field := text.toUTF8.data.toList

/-- A header row: its columns of the two names are the ones at hand, and the others have other names. -/
structure Columns.Header (columns : Columns) (names : List String) : Prop where
  width : names.length = columns.width
  ratio : ∀ i, names[i]?.map Text.trim = some ratioColumn ↔ i = columns.ratioAt
  bandwidth : ∀ i, names[i]?.map Text.trim = some columns.bandwidth ↔ i = columns.bandwidthAt

/-- A row of a point. The other columns hold anything. -/
structure Columns.Row (columns : Columns) (p : CurvePoint Float) (texts : List String) : Prop where
  width : texts.length = columns.width
  ratio : texts[columns.ratioAt]?.map Text.trim = some (toString p.ratio)
  bandwidth : texts[columns.bandwidthAt]?.map Text.trim = some (plainText p.bandwidth)

/-- The bytes are a table of the points, in their order. -/
def Tabulates (column : String) (points : List (CurvePoint Float)) (content : ByteArray) : Prop :=
  ∃ (columns : Columns) (names : List String) (rows : List (List String)),
    columns.bandwidth = column ∧ columns.Header names ∧ List.Forall₂ columns.Row points rows ∧
      Csv.Written ((names :: rows).map (·.map fieldOf)) (Csv.dropMark content.data.toList)

/-! ## Fields -/

theorem fieldText?_fieldOf (text : String) : fieldText? (fieldOf text) = some (Text.trim text) := by
  unfold fieldText? fieldOf
  rw [Array.toArray_toList]
  exact congrArg (Option.map Text.trim) (fromUTF8?_toUTF8 text)

theorem rowTexts_fieldOf (texts : List String) :
    rowTexts (texts.map fieldOf) = .ok (texts.map Text.trim) := by
  have hall : (texts.map fieldOf).mapM fieldText? = some (texts.map Text.trim) := by
    induction texts with
    | nil => rfl
    | cons text texts ih =>
      rw [List.map_cons, List.mapM_cons, fieldText?_fieldOf, ih]
      rfl
  rw [rowTexts, hall]

theorem columnOf_eq {names : List String} {name : String} {at' : Nat}
    (h : ∀ i, names[i]? = some name ↔ i = at') : columnOf names name = .ok at' := by
  have hfound : names.findIdx? (· = name) = some at' := by
    obtain ⟨hlt, hname⟩ := List.getElem?_eq_some_iff.1 ((h at').2 rfl)
    rw [List.findIdx?_eq_some_iff_getElem]
    refine ⟨hlt, by simpa using hname, ?_⟩
    intro j hj heq
    have hsame := (h j).1 (List.getElem?_eq_some_iff.2 ⟨hj.trans hlt, by simpa using heq⟩)
    exact absurd hsame hj.ne
  rw [columnOf, hfound]

theorem ofHeader_fieldOf {columns : Columns} {names : List String} (h : columns.Header names) :
    Columns.ofHeader columns.bandwidth (names.map fieldOf) = .ok columns := by
  have hratio : columnOf (names.map Text.trim) ratioColumn = .ok columns.ratioAt :=
    columnOf_eq (by simpa using h.ratio)
  have hbandwidth : columnOf (names.map Text.trim) columns.bandwidth = .ok columns.bandwidthAt :=
    columnOf_eq (by simpa using h.bandwidth)
  rw [Columns.ofHeader, rowTexts_fieldOf]
  simp only [bind, Except.bind, hratio, hbandwidth, List.length_map, h.width]
  rfl

/-! ## Rows -/

/-- A row is read as its point, unless the ratio is out of range. -/
theorem readRow_row {columns : Columns} {p : CurvePoint Float} {texts : List String}
    (h : columns.Row p texts) (hratio : p.ratio ≤ 255)
    (hplain : Literal.float? (plainText p.bandwidth) = some p.bandwidth) (row : Nat) :
    readRow columns row (texts.map fieldOf) = if p.ratio ≤ maxRatio then .ok p
      else .error (.control (.ratioOutOfRange p.ratio 0 maxRatio)) := by
  have hget {i : Nat} {text : String} (hi : texts[i]?.map Text.trim = some text) :
      (texts.map Text.trim).getD i "" = text := by
    rw [List.getD_eq_getElem?_getD, List.getElem?_map, hi, Option.getD_some]
  have hread : readRatio row (toString p.ratio) = if p.ratio ≤ maxRatio then .ok p.ratio
      else .error (.control (.ratioOutOfRange p.ratio 0 maxRatio)) := by
    rw [readRatio, Literal.natUpTo?_toString (by omega)]
  have hbandwidth : readBandwidth row columns.bandwidth (plainText p.bandwidth) = .ok p.bandwidth := by
    rw [readBandwidth, hplain]
  rw [readRow, if_neg (by simp [h.width]), rowTexts_fieldOf]
  simp only [bind, Except.bind, hget h.ratio, hget h.bandwidth, hread, hbandwidth]
  by_cases hle : p.ratio ≤ maxRatio
  · simp only [if_pos hle]
    rfl
  · simp only [if_neg hle]

/-- Rows are read as their points, unless a ratio is out of range. -/
theorem readRows_rows {columns : Columns} {points : List (CurvePoint Float)} {rows : List (List String)}
    (h : List.Forall₂ columns.Row points rows) (hratio : ∀ p ∈ points, p.ratio ≤ 255)
    (hplain : ∀ p ∈ points, Literal.float? (plainText p.bandwidth) = some p.bandwidth) (row : Nat) :
    (readRows columns row (rows.map (·.map fieldOf))).toOption =
      if ∀ p ∈ points, p.ratio ≤ maxRatio then some points else none := by
  induction h generalizing row with
  | nil => simp [readRows, Except.toOption]
  | @cons p texts points rows hrow _ ih =>
    rw [List.forall_mem_cons] at hratio hplain
    have hcons (later : Except Fault (List (CurvePoint Float))) :
        (later >>= fun ps => pure (p :: ps)).toOption = later.toOption.map (p :: ·) := by
      cases later <;> rfl
    rw [List.map_cons, readRows, readRow_row hrow hratio.1 hplain.1]
    simp only [List.forall_mem_cons]
    by_cases hle : p.ratio ≤ maxRatio
    · rw [if_pos hle]
      show (readRows columns (row + 1) _ >>= fun ps => pure (p :: ps)).toOption = _
      rw [hcons, ih hratio.2 hplain.2]
      by_cases hall : ∀ q ∈ points, q.ratio ≤ maxRatio
      · rw [if_pos hall, if_pos ⟨hle, hall⟩]
        rfl
      · rw [if_neg hall, if_neg (fun h => hall h.2)]
        rfl
    · rw [if_neg hle, if_neg (fun hall => hle hall.1)]
      rfl

/-- A table is read as its points make a curve. -/
theorem read_of_tabulates {column : String} {points : List (CurvePoint Float)} {content : ByteArray}
    (h : Tabulates column points content) (hratio : ∀ p ∈ points, p.ratio ≤ 255)
    (hplain : ∀ p ∈ points, Literal.float? (plainText p.bandwidth) = some p.bandwidth) :
    (read column content).toOption = (Curve.ofPoints points).toOption := by
  obtain ⟨columns, names, rows, rfl, hheader, hrows, hwritten⟩ := h
  have hcontent : Csv.rows content.toList = (names :: rows).map (·.map fieldOf) := by
    rw [toList_eq]
    exact Csv.rowsFrom_of_written hwritten
  have hread := readRows_rows hrows hratio hplain 2
  rw [read, hcontent, List.map_cons, List.headD_cons, List.tail_cons]
  simp only [bind, Except.bind, ofHeader_fieldOf hheader]
  cases hpoints : readRows columns 2 (rows.map (·.map fieldOf)) with
  | ok later =>
    rw [hpoints] at hread
    split at hread
    · cases hread
      exact toOption_mapError Fault.control (Curve.ofPoints points)
    · cases hread
  | error fault =>
    -- a ratio out of range is no part of any curve
    rw [hpoints] at hread
    split at hread
    · cases hread
    · rename_i hout
      cases hcurve : Curve.ofPoints points with
      | error fault' => rfl
      | ok curve =>
        have hperm := Curve.ofPoints_eq_ok_iff.1 hcurve
        exact absurd (fun p hp => curve.ratio_le p (hperm.mem_iff.2 hp)) hout

end CurveTable

/-- A sweep in a file is read as its points make a curve. -/
theorem Curve.ofFile_sweep {path : String} (hpath : isSweepFile path = true) (column : String)
    {sweep : Sweep} (h : sweep.Recordable) :
    (Curve.ofFile path column (.ok sweep.text.toUTF8)).toOption = sweep.curve.toOption := by
  have hdecode : decodeText sweep.text.toUTF8 = .ok sweep.text := by
    rw [decodeText, fromUTF8?_toUTF8]
  rw [ofFile, if_pos hpath]
  simp only [bind, Except.bind, hdecode, Sweep.ofText?_text h]
  exact toOption_mapError Fault.control sweep.curve

/-- The table of some points, whatever their order, and the sweep of these points make the same curve, or
both make none. -/
theorem Curve.ofFile_formats_agree {tablePath sweepPath column : String} {content : ByteArray}
    {rows : List (CurvePoint Float)} {sweep : Sweep} (htablePath : isSweepFile tablePath = false)
    (hsweepPath : isSweepFile sweepPath = true) (hrows : rows.Perm sweep.points)
    (hsweep : sweep.Recordable)
    (hplain : ∀ p ∈ sweep.points, Literal.float? (plainText p.bandwidth) = some p.bandwidth)
    (htable : CurveTable.Tabulates column rows content) :
    (Curve.ofFile tablePath column (.ok content)).toOption =
      (Curve.ofFile sweepPath column (.ok sweep.text.toUTF8)).toOption := by
  have hread : (CurveTable.read column content).toOption = (Curve.ofPoints rows).toOption :=
    CurveTable.read_of_tabulates htable (fun p hp => (hsweep p (hrows.mem_iff.1 hp)).ratio_le)
      (fun p hp => hplain p (hrows.mem_iff.1 hp))
  have htableFile : Curve.ofFile tablePath column (.ok content) = CurveTable.read column content := by
    rw [ofFile, htablePath]
    rfl
  rw [htableFile, hread, ofPoints_perm hrows, ofFile_sweep hsweepPath column hsweep]
  rfl

/-- Two points of a sweep. -/
def Sweep.slope : Sweep where
  version := "v1"
  name := "slope"
  description := none
  points := [⟨0, 200.5⟩, ⟨50, 480.0⟩]

/-- The same points in a table, in the other order and beside a column of notes. -/
def CurveTable.slope : ByteArray :=
  "Note, BW ,DRAM Ratio\r\n\"the \"\"peak\"\", so far\",480,50\n\nidle,200.5, 0 ".toUTF8

theorem CurveTable.tabulates_slope :
    Tabulates "BW" [⟨50, 480.0⟩, ⟨0, 200.5⟩] CurveTable.slope := by
  have hnames : ["Note", " BW ", "DRAM Ratio"].map Text.trim = ["Note", "BW", ratioColumn] := by
    decide +kernel
  refine ⟨⟨3, 2, 1, "BW"⟩, ["Note", " BW ", "DRAM Ratio"],
    [["the \"peak\", so far", "480", "50"], ["idle", "200.5", " 0 "]], rfl, ⟨rfl, ?_, ?_⟩, ?_, ?_⟩
  · intro i
    rw [← List.getElem?_map, hnames]
    match i with
    | 0 | 1 | 2 => decide
    | i + 3 => simp
  · intro i
    rw [← List.getElem?_map, hnames]
    match i with
    | 0 | 1 | 2 => decide
    | i + 3 => simp
  · refine .cons ?_ (.cons ?_ .nil) <;> exact ⟨rfl, by decide +kernel, by decide +kernel⟩
  · have hplain (text : String) (h : (fieldOf text).head? ≠ some 34 ∧
        ∀ b ∈ fieldOf text, b ≠ 44 ∧ Csv.isLineEnd b = false := by decide +kernel) :
        Csv.WrittenField (fieldOf text) (fieldOf text) := .plain h.1 h.2
    have hheader := Csv.WrittenRow.comma (hplain "Note")
      (.comma (hplain " BW ") (.last (hplain "DRAM Ratio")))
    have hfirst := Csv.WrittenRow.comma (.quoted (fieldOf "the \"peak\", so far"))
      (.comma (hplain "480") (.last (hplain "50")))
    have hsecond := Csv.WrittenRow.comma (hplain "idle")
      (.comma (hplain "200.5") (.last (hplain " 0 ")))
    have hlast := Csv.Written.row hsecond (by decide +kernel) (by decide +kernel) .nil
    have hrows := Csv.Written.row hfirst (by decide +kernel) (by decide +kernel)
      (.lineEnd (b := 10) rfl (.lineEnd (b := 10) rfl hlast))
    have hwritten := Csv.Written.row hheader (by decide +kernel) (by decide +kernel)
      (.lineEnd (b := 13) rfl (.lineEnd (b := 10) rfl hrows))
    apply cast (congrArg (Csv.Written _) _) hwritten
    decide +kernel

/-- Between a quoted note with a comma in it and rows in another order, the table says the same. -/
theorem Curve.ofFile_formats_agree_slope :
    (Curve.ofFile "slope.csv" "BW" (.ok CurveTable.slope)).toOption =
        (Curve.ofFile "slope.JSON" "BW" (.ok Sweep.slope.text.toUTF8)).toOption ∧
      (Curve.ofFile "slope.csv" "BW" (.ok CurveTable.slope)).toOption.map (·.points) =
        some Sweep.slope.points := by
  have hreads : ∀ p ∈ Sweep.slope.points, p.Recordable := by
    intro p hp
    simp only [Sweep.slope, List.mem_cons, List.not_mem_nil, or_false] at hp
    rcases hp with rfl | rfl
    · exact ⟨by decide, by decide, Json.readsBack_real (by decide) (by decide +kernel)⟩
    · exact ⟨by decide, by decide, Json.readsBack_real (by decide) (by decide +kernel)⟩
  have hplain : ∀ p ∈ Sweep.slope.points,
      Literal.float? (plainText p.bandwidth) = some p.bandwidth := by decide +kernel
  have hagree : (Curve.ofFile "slope.csv" "BW" (.ok CurveTable.slope)).toOption =
      (Curve.ofFile "slope.JSON" "BW" (.ok Sweep.slope.text.toUTF8)).toOption :=
    Curve.ofFile_formats_agree (by decide +kernel) (by decide +kernel) (.swap ..) hreads hplain
      CurveTable.tabulates_slope
  refine ⟨hagree, ?_⟩
  rw [hagree, Curve.ofFile_sweep (by decide +kernel) "BW" hreads]
  decide +kernel

end Interleave
