import Interleave.Csv

/-!
# Written rows

What a table may look like, said without the reader: a field stands in its row as it is, where no byte of
it means anything else, or between quotes, with its own quotes doubled (`WrittenField`). Commas stand
between the fields of a row, and line ends behind it and anywhere between rows (`Written`). Such a text is
read as the rows that it was written from, whichever way each field was written.

Results:
* `rowsFrom_field`: a field is read to its end, and leaves the row open.
* `rowsFrom_of_written`: a text is read as its rows.
-/
namespace Interleave.Csv

/-- A byte between quotes. -/
def doubled (b : UInt8) : List UInt8 := if b = 34 then [34, 34] else [b]

/-- The bytes of a field in a row. -/
inductive WrittenField : Field → List UInt8 → Prop
  | plain {f : Field} : f.head? ≠ some 34 → (∀ b ∈ f, b ≠ 44 ∧ isLineEnd b = false) → WrittenField f f
  | quoted (f : Field) : WrittenField f (34 :: (f.flatMap doubled ++ [34]))

/-- The bytes of a row, without its line end. -/
inductive WrittenRow : List Field → List UInt8 → Prop
  | last {f : Field} {bs : List UInt8} : WrittenField f bs → WrittenRow [f] bs
  | comma {f : Field} {fs : List Field} {bs rest : List UInt8} :
      WrittenField f bs → WrittenRow fs rest → WrittenRow (f :: fs) (bs ++ 44 :: rest)

/-- The bytes of rows. A row ends at a line end or at the end of the text. -/
inductive Written : List (List Field) → List UInt8 → Prop
  | nil : Written [] []
  | lineEnd {b : UInt8} {rows : List (List Field)} {bs : List UInt8} :
      isLineEnd b = true → Written rows bs → Written rows (b :: bs)
  | row {r : List Field} {rows : List (List Field)} {line rest : List UInt8} :
      WrittenRow r line → line ≠ [] → (∀ b ∈ rest.head?, isLineEnd b = true) → Written rows rest →
      Written (r :: rows) (line ++ rest)

/-! ## Fields -/

/-- Outside quotes a comma ends the field. -/
theorem next_comma {p : Pen} (h : p.place ≠ .quoted) : p.next 44 = some p.comma := by
  unfold Pen.next Pen.outside
  split <;> simp_all

/-- Outside quotes a line end ends the row. -/
theorem next_lineEnd {p : Pen} {b : UInt8} (h : p.place ≠ .quoted) (hb : isLineEnd b = true) :
    p.next b = none := by
  have hquote : b ≠ 34 := by
    intro heq
    subst heq
    cases hb
  have hcomma : b ≠ 44 := by
    intro heq
    subst heq
    cases hb
  unfold Pen.next Pen.outside
  split <;> simp_all

/-- Any other byte outside quotes belongs to the field, a quote at its start excepted. -/
theorem next_plain {p : Pen} {b : UInt8} (hplace : p.place = .plain ∨ p.place = .start ∧ b ≠ 34)
    (hb : b ≠ 44 ∧ isLineEnd b = false) : p.next b = some (p.put .plain b) := by
  unfold Pen.next Pen.outside
  rcases hplace with hplace | ⟨hplace, hquote⟩
  · simp [hplace, hb]
  · simp [hplace, hb, hquote]

theorem rowsFrom_next {p q : Pen} {b : UInt8} (h : p.next b = some q) (bs : List UInt8) :
    rowsFrom (some p) (b :: bs) = rowsFrom (some q) bs := by
  rw [rowsFrom, h]

theorem rowsFrom_close {p : Pen} {b : UInt8} (h : p.next b = none) (bs : List UInt8) :
    rowsFrom (some p) (b :: bs) = p.close :: rowsFrom none bs := by
  rw [rowsFrom, h]

theorem rowsFrom_plain {f : Field} (hf : ∀ b ∈ f, b ≠ 44 ∧ isLineEnd b = false)
    (before : Field) (fs : List Field) (rest : List UInt8) :
    rowsFrom (some ⟨.plain, before, fs⟩) (f ++ rest) =
      rowsFrom (some ⟨.plain, f.reverse ++ before, fs⟩) rest := by
  induction f generalizing before with
  | nil => rfl
  | cons b f ih =>
    rw [List.forall_mem_cons] at hf
    rw [List.cons_append, rowsFrom_next (next_plain (.inl rfl) hf.1), Pen.put, ih hf.2]
    simp

theorem rowsFrom_quoted (f before : Field) (fs : List Field) (rest : List UInt8) :
    rowsFrom (some ⟨.quoted, before, fs⟩) (f.flatMap doubled ++ 34 :: rest) =
      rowsFrom (some ⟨.quote, f.reverse ++ before, fs⟩) rest := by
  induction f generalizing before with
  | nil => rfl
  | cons b f ih =>
    have hbyte : rowsFrom (some ⟨.quoted, before, fs⟩)
        (doubled b ++ (f.flatMap doubled ++ 34 :: rest)) =
          rowsFrom (some ⟨.quoted, b :: before, fs⟩) (f.flatMap doubled ++ 34 :: rest) := by
      unfold doubled
      by_cases hb : b = 34
      · subst hb
        rfl
      · rw [if_neg hb]
        exact rowsFrom_next (by simp [Pen.next, Pen.put, hb]) _
    rw [List.flatMap_cons, List.append_assoc, hbyte, ih]
    simp

/-- A field is read to its end, and leaves the row open. -/
theorem rowsFrom_field {f : Field} {bs : List UInt8} (h : WrittenField f bs) (fs : List Field)
    (rest : List UInt8) : ∃ place, place ≠ .quoted ∧
      rowsFrom (some ⟨.start, [], fs⟩) (bs ++ rest) = rowsFrom (some ⟨place, f.reverse, fs⟩) rest := by
  cases h with
  | plain hhead hplain =>
    cases f with
    | nil => exact ⟨.start, by decide, rfl⟩
    | cons b f =>
      rw [List.forall_mem_cons] at hplain
      have hquote : b ≠ 34 := by simpa using hhead
      refine ⟨.plain, by decide, ?_⟩
      rw [List.cons_append, rowsFrom_next (next_plain (.inr ⟨rfl, hquote⟩) hplain.1), Pen.put,
        rowsFrom_plain hplain.2]
      simp
  | quoted =>
    refine ⟨.quote, by decide, ?_⟩
    have hquoted := rowsFrom_quoted f [] fs rest
    rw [List.append_nil] at hquoted
    rw [← hquoted, List.cons_append, List.append_assoc]
    rfl

/-! ## Rows -/

/-- A row is read to its end, behind the fields that are there already. -/
theorem rowsFrom_row {r : List Field} {line : List UInt8} (h : WrittenRow r line) (fs : List Field)
    {rest : List UInt8} (hrest : ∀ b ∈ rest.head?, isLineEnd b = true) :
    rowsFrom (some ⟨.start, [], fs⟩) (line ++ rest) = (fs.reverse ++ r) :: rowsFrom none rest := by
  induction h generalizing fs with
  | @last f bs hfield =>
    obtain ⟨place, hplace, hread⟩ := rowsFrom_field hfield fs rest
    have hclose : (⟨place, f.reverse, fs⟩ : Pen).close = fs.reverse ++ [f] := by simp [Pen.close]
    rw [hread]
    cases rest with
    | nil => exact congrArg ([·]) hclose
    | cons b rest =>
      have hb : isLineEnd b = true := hrest b rfl
      rw [rowsFrom_close (next_lineEnd hplace hb), hclose, rows_blank hb]
  | @comma f fields bs later hfield _ ih =>
    obtain ⟨place, hplace, hread⟩ := rowsFrom_field hfield fs (44 :: later ++ rest)
    rw [List.append_assoc, hread, List.cons_append, rowsFrom_next (next_comma hplace), Pen.comma, ih]
    simp

/-- A row that is written at all does not begin with a line end. -/
theorem head_line {r : List Field} {b : UInt8} {line : List UInt8} (h : WrittenRow r (b :: line)) :
    isLineEnd b = false := by
  have hfield {f : Field} {bs : List UInt8} (hf : WrittenField f (b :: bs)) : isLineEnd b = false := by
    cases hf with
    | plain _ hplain => exact (hplain b List.mem_cons_self).2
    | quoted => rfl
  generalize hline : b :: line = bytes at h
  cases h with
  | last hf =>
    subst hline
    exact hfield hf
  | @comma f fs bs rest hf _ =>
    cases bs with
    | nil =>
      cases hline
      rfl
    | cons c bs =>
      cases hline
      exact hfield hf

/-- A row opens with its first byte. -/
theorem rowsFrom_open {r : List Field} {line : List UInt8} (h : WrittenRow r line) (hne : line ≠ [])
    (rest : List UInt8) : rowsFrom none (line ++ rest) = rowsFrom (some {}) (line ++ rest) := by
  cases line with
  | nil => exact absurd rfl hne
  | cons b line =>
    have hb := head_line h
    have hopen : ∃ p, ({} : Pen).next b = some p := by
      unfold Pen.next Pen.outside
      by_cases hquote : b = 34
      · exact ⟨_, if_pos hquote⟩
      · by_cases hcomma : b = 44 <;> simp [hquote, hcomma, hb]
    obtain ⟨p, hp⟩ := hopen
    rw [List.cons_append, rowsFrom_next hp, rowsFrom, hb, hp]
    rfl

/-- A text is read as its rows. -/
theorem rowsFrom_of_written {rows : List (List Field)} {bs : List UInt8} (h : Written rows bs) :
    rowsFrom none bs = rows := by
  induction h with
  | nil => rfl
  | lineEnd hb _ ih => rw [rows_blank hb, ih]
  | row hrow hne hrest _ ih =>
    rw [rowsFrom_open hrow hne, rowsFrom_row hrow [] hrest, ih]
    rfl

end Interleave.Csv
