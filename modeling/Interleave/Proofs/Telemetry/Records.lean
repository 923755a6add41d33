import Interleave.Proofs.Telemetry.Blocks
import Interleave.Proofs.Telemetry.Patterns

/-!
# Records are read apart

Each block of a text comes to one thing: a sample, a fault that names one of its lines, or nothing if it is
the last one and cut short (`Yields`). What it comes to depends on the block alone, so a bad block costs the
others nothing but a shift of their line numbers.

Results:
* `exists_yields`, `Yields.unique`: every block comes to exactly one thing.
* `readBlocks_eq`: reading gathers what the blocks come to.
* `YieldAll.count_eq`: every block is counted once.
* `BlockReplaced.yieldAlike`: with another block in place of one, all others come to the same.
* `records_stand_apart`: all of it for the text of a recording.
-/
namespace Interleave.Telemetry

open Text (NumberedLine Way number numberedLines isDigit)

variable {line : NumberedLine} {text : String} {n : Nat}

/-! ## The lines of a record -/

/-- The leftmost total of the line is `n`. -/
def SaysTotal (text : String) (n : Nat) : Prop :=
  ∃ w digits, totalPattern.Finds text.toList w ∧ w.groups = [digits] ∧ IsCount digits n

/-- The line is a label with the number `n`. -/
def SaysLabelled (text : String) (n : Nat) : Prop :=
  ∃ w digits, labelledPattern.match? text.toList = some w ∧ w.groups = [digits] ∧ IsCount digits n

/-- A search that keeps one word of digits says what they write. -/
theorem says_iff {found : Option Way} {digits? : Option (List Char)}
    (hfound : found.map (·.groups) = digits?.map ([·]))
    (hdigit : ∀ ds ∈ digits?, ∀ d ∈ ds, isDigit d) :
    (∃ w digits, found = some w ∧ w.groups = [digits] ∧ IsCount digits n) ↔
      digits?.bind count? = some n := by
  cases digits? with
  | none =>
    rw [Option.map_none, Option.map_eq_none_iff] at hfound
    simp [hfound]
  | some ds =>
    obtain ⟨w, rfl, hgroups⟩ := Option.map_eq_some_iff.1 hfound
    rw [Option.bind_some, count?_eq_some_iff (hdigit ds rfl)]
    constructor
    · rintro ⟨v, digits, hv, hdigits, hcount⟩
      cases hv
      rw [hgroups] at hdigits
      cases hdigits
      exact hcount
    · intro hcount
      exact ⟨w, ds, rfl, hgroups, hcount⟩

theorem saysTotal_iff : SaysTotal text n ↔
    ((Text.first? throughput? text.toList).map Prod.fst).bind count? = some n := by
  have hfound : (totalPattern.find? text.toList).map (·.groups) =
      ((Text.first? throughput? text.toList).map Prod.fst).map ([·]) := by
    simp [find?_total, Function.comp_def]
  rw [← says_iff hfound]
  · simp only [SaysTotal, Text.Pattern.find?_eq_some_iff]
  · intro ds hds
    obtain ⟨found, hfound, rfl⟩ := Option.map_eq_some_iff.1 hds
    obtain ⟨here, -, hhere, -⟩ := Text.first?_eq_some_iff.1 hfound
    exact isDigit_of_throughput hhere

theorem saysLabelled_iff : SaysLabelled text n ↔ (labelled? text.toList).bind count? = some n := by
  have hfound : (labelledPattern.match? text.toList).map (·.groups) =
      (labelled? text.toList).map ([·]) := by
    simp [match?_labelled, Function.comp_def]
  exact says_iff hfound fun ds hds => isDigit_of_labelled hds

theorem read?_of_some {pattern : List Char → Option (List Char)}
    (h : (pattern line.text.toList).bind count? = some n) :
    read? pattern line = .ok (.ofFloat (.ofNat n)) := by
  rw [read?, h]

theorem read?_of_ne {pattern : List Char → Option (List Char)}
    (h : ∀ n, (pattern line.text.toList).bind count? ≠ some n) :
    read? pattern line = .error (malformed line) := by
  rw [read?, Option.eq_none_iff_forall_ne_some.2 h]

theorem readTotal_of_says (h : SaysTotal line.text n) : readTotal line = .ok (.ofFloat (.ofNat n)) :=
  read?_of_some (saysTotal_iff.1 h)

theorem readTotal_of_not (h : ∀ n, ¬SaysTotal line.text n) : readTotal line = .error (malformed line) :=
  read?_of_ne fun n => mt saysTotal_iff.2 (h n)

theorem readLabelled_of_says (h : SaysLabelled line.text n) :
    read? labelled? line = .ok (.ofFloat (.ofNat n)) :=
  read?_of_some (saysLabelled_iff.1 h)

theorem readLabelled_of_not (h : ∀ n, ¬SaysLabelled line.text n) :
    read? labelled? line = .error (malformed line) :=
  read?_of_ne fun n => mt saysLabelled_iff.2 (h n)

/-! ## What a block comes to -/

/-- What one block of a text comes to. -/
inductive Yield where
  | sample (s : Sample)
  | skipped (fault : ControlFault)
  /-- A record cut short at the end. -/
  | cut
  deriving DecidableEq, Repr

/-- The record of three numbers. -/
def recordSample (x y z : Nat) : Sample :=
  ⟨.ofFloat (.ofNat x), .ofFloat (.ofNat y), .ofFloat (.ofNat z)⟩

/-- What a block comes to, if it is the last one or not. -/
inductive Yields (last : Prop) : List NumberedLine → Yield → Prop
  | record {near far total : NumberedLine} {x y z : Nat} : SaysTotal near.text x →
    SaysTotal far.text y → SaysLabelled total.text z →
    Yields last [near, far, total] (.sample (recordSample x y z))
  | badNear {near far total : NumberedLine} : (∀ n, ¬SaysTotal near.text n) →
    Yields last [near, far, total] (.skipped (malformed near))
  | badFar {near far total : NumberedLine} {x : Nat} : SaysTotal near.text x →
    (∀ n, ¬SaysTotal far.text n) → Yields last [near, far, total] (.skipped (malformed far))
  | badTotal {near far total : NumberedLine} {x y : Nat} : SaysTotal near.text x →
    SaysTotal far.text y → (∀ n, ¬SaysLabelled total.text n) →
    Yields last [near, far, total] (.skipped (malformed total))
  | overlong {block : List NumberedLine} {fourth : NumberedLine} : block[3]? = some fourth →
    Yields last block (.skipped (malformed fourth))
  | short {block : List NumberedLine} {first : NumberedLine} : block.length < 3 → ¬last →
    block.head? = some first → Yields last block (.skipped (malformed first))
  | cut {block : List NumberedLine} : block.length < 3 → last → Yields last block .cut

variable {last : Prop} {block : List NumberedLine} {yield : Yield}

/-- What a block comes to that is read. -/
def Yield.ofRead : Except ControlFault Sample → Yield
  | .ok s => .sample s
  | .error fault => .skipped fault

theorem Yields.cases_read (h : Yields last block yield) :
    (yield = .cut ∧ last ∧ block.length < 3) ∨
      (yield = .ofRead (readBlock block) ∧ ¬(last ∧ block.length < 3)) := by
  cases h with
  | record hnear hfar htotal =>
    right
    rw [readBlock, readTotal_of_says hnear, readTotal_of_says hfar, readLabelled_of_says htotal]
    exact ⟨rfl, by simp⟩
  | badNear hnear =>
    right
    rw [readBlock, readTotal_of_not hnear]
    exact ⟨rfl, by simp⟩
  | badFar hnear hfar =>
    right
    rw [readBlock, readTotal_of_says hnear, readTotal_of_not hfar]
    exact ⟨rfl, by simp⟩
  | badTotal hnear hfar htotal =>
    right
    rw [readBlock, readTotal_of_says hnear, readTotal_of_says hfar, readLabelled_of_not htotal]
    exact ⟨rfl, by simp⟩
  | overlong hfourth =>
    right
    match block, hfourth with
    | _ :: _ :: _ :: l :: _, hfourth =>
      cases hfourth
      exact ⟨rfl, by simp⟩
  | short hlength hlast hfirst =>
    right
    match block, hlength, hfirst with
    | [l], _, hfirst | [l, _], _, hfirst =>
      cases hfirst
      exact ⟨rfl, fun h => hlast h.1⟩
  | cut hlength hlast => exact .inl ⟨rfl, hlast, hlength⟩

theorem Yields.unique {other : Yield} (h : Yields last block yield) (h' : Yields last block other) :
    yield = other := by
  rcases h.cases_read with ⟨hy, hcut⟩ | ⟨hy, hread⟩ <;>
    rcases h'.cases_read with ⟨hy', hcut'⟩ | ⟨hy', hread'⟩
  · rw [hy, hy']
  · exact absurd hcut hread'
  · exact absurd hcut' hread
  · rw [hy, hy']

/-- Every block comes to something. -/
theorem exists_yields (last : Prop) (hne : block ≠ []) : ∃ yield, Yields last block yield := by
  match block with
  | [] => exact absurd rfl hne
  | [l] | [l, _] =>
    by_cases hlast : last
    · exact ⟨.cut, .cut (by simp) hlast⟩
    · exact ⟨.skipped (malformed l), .short (by simp) hlast rfl⟩
  | [near, far, total] =>
    by_cases hnear : ∃ x, SaysTotal near.text x
    · obtain ⟨x, hnear⟩ := hnear
      by_cases hfar : ∃ y, SaysTotal far.text y
      · obtain ⟨y, hfar⟩ := hfar
        by_cases htotal : ∃ z, SaysLabelled total.text z
        · obtain ⟨z, htotal⟩ := htotal
          exact ⟨_, .record hnear hfar htotal⟩
        · exact ⟨_, .badTotal hnear hfar (not_exists.1 htotal)⟩
      · exact ⟨_, .badFar hnear (not_exists.1 hfar)⟩
    · exact ⟨_, .badNear (not_exists.1 hnear)⟩
  | _ :: _ :: _ :: l :: _ => exact ⟨.skipped (malformed l), .overlong rfl⟩

theorem Yields.mem_of_skipped {fault : ControlFault} (h : Yields last block (.skipped fault)) :
    ∃ l ∈ block, fault = malformed l := by
  cases h with
  | badNear => exact ⟨_, by simp, rfl⟩
  | badFar => exact ⟨_, by simp, rfl⟩
  | badTotal => exact ⟨_, by simp, rfl⟩
  | overlong hfourth => exact ⟨_, List.mem_of_getElem? hfourth, rfl⟩
  | short _ _ hfirst => exact ⟨_, List.mem_of_mem_head? hfirst, rfl⟩

/-- The same, further down. -/
def Yield.later (count : Nat) : Yield → Yield
  | .skipped (.malformedRecord line content) => .skipped (.malformedRecord (line + count) content)
  | yield => yield

theorem Yields.later (count : Nat) (h : Yields last block yield) :
    Yields last (block.map (·.later count)) (yield.later count) := by
  cases h with
  | record hnear hfar htotal => exact .record hnear hfar htotal
  | badNear hnear => exact .badNear hnear
  | badFar hnear hfar => exact .badFar hnear hfar
  | badTotal hnear hfar htotal => exact .badTotal hnear hfar htotal
  | @overlong _ fourth hfourth =>
    have hfourth' : (block.map (·.later count))[3]? = some (fourth.later count) := by simp [hfourth]
    exact .overlong hfourth'
  | @short _ first hlength hlast hfirst =>
    have hfirst' : (block.map (·.later count)).head? = some (first.later count) := by simp [hfirst]
    exact .short (by simpa using hlength) hlast hfirst'
  | cut hlength hlast => exact .cut (by simpa using hlength) hlast

/-! ## What all blocks come to -/

/-- What blocks come to, one after the other. -/
inductive YieldAll : List (List NumberedLine) → List Yield → Prop
  | nil : YieldAll [] []
  | cons {block : List NumberedLine} {blocks : List (List NumberedLine)} {yield : Yield}
    {yields : List Yield} : Yields (blocks = []) block yield → YieldAll blocks yields →
      YieldAll (block :: blocks) (yield :: yields)

def Yield.sample? : Yield → Option Sample
  | .sample s => some s
  | _ => none

def Yield.fault? : Yield → Option ControlFault
  | .skipped fault => some fault
  | _ => none

/-- What was read if blocks came to these. -/
def gathered (yields : List Yield) : RecordRead :=
  ⟨yields.filterMap Yield.sample?, yields.filterMap Yield.fault?, decide (.cut ∈ yields)⟩

variable {bs : List (List NumberedLine)} {yields : List Yield}

theorem cons_gathered (block : List NumberedLine) (yields : List Yield) :
    (gathered yields).cons block = gathered (.ofRead (readBlock block) :: yields) := by
  unfold RecordRead.cons
  cases readBlock block <;> simp [gathered, Yield.ofRead, Yield.sample?, Yield.fault?, List.filterMap_cons]

/-- Reading gathers what the blocks come to. -/
theorem readBlocks_eq (h : YieldAll bs yields) : readBlocks bs = gathered yields := by
  induction h with
  | nil => rfl
  | @cons block bs yield yields hyield hrest ih =>
    rcases hyield.cases_read with ⟨rfl, rfl, hlength⟩ | ⟨rfl, hread⟩
    · cases hrest
      rw [readBlocks, if_pos hlength]
      rfl
    · rw [← cons_gathered, ← ih]
      cases bs with
      | nil => exact if_neg fun hlength => hread ⟨rfl, hlength⟩
      | cons b bs => rfl

theorem exists_yieldAll (h : ∀ block ∈ bs, block ≠ []) : ∃ yields, YieldAll bs yields := by
  induction bs with
  | nil => exact ⟨[], .nil⟩
  | cons block bs ih =>
    rw [List.forall_mem_cons] at h
    obtain ⟨yields, hrest⟩ := ih h.2
    obtain ⟨yield, hyield⟩ := exists_yields (bs = []) h.1
    exact ⟨yield :: yields, .cons hyield hrest⟩

theorem YieldAll.unique {other : List Yield} (h : YieldAll bs yields) (h' : YieldAll bs other) :
    yields = other := by
  induction h generalizing other with
  | nil => cases h'; rfl
  | cons hyield _ ih =>
    cases h' with
    | cons hyield' hrest' => rw [hyield.unique hyield', ih hrest']

/-- Every block counts once. -/
theorem YieldAll.count_eq (h : YieldAll bs yields) :
    (gathered yields).samples.length + (gathered yields).skipped.length +
      (if (gathered yields).truncated then 1 else 0) = bs.length := by
  induction h with
  | nil => rfl
  | @cons block bs yield yields hyield hrest ih =>
    rcases hyield.cases_read with ⟨rfl, rfl, -⟩ | ⟨rfl, -⟩
    · cases hrest
      rfl
    · cases hblock : readBlock block <;>
        simp [gathered, Yield.ofRead, Yield.sample?, Yield.fault?, List.filterMap_cons] at ih ⊢ <;> omega

theorem YieldAll.later (count : Nat) (h : YieldAll bs yields) :
    YieldAll (bs.map (·.map (·.later count))) (yields.map (·.later count)) := by
  induction h with
  | nil => exact .nil
  | cons hyield _ ih => exact .cons (by simpa using hyield.later count) ih

theorem Yields.of_iff {last' : Prop} (hlast : last ↔ last') (h : Yields last block yield) :
    Yields last' block yield := propext hlast ▸ h

/-- What the blocks before one come to does not depend on it, nor on what follows. -/
theorem YieldAll.replace {before after : List (List NumberedLine)}
    (h : YieldAll (before ++ block :: after) yields) :
    ∃ first yield rest, yields = first ++ yield :: rest ∧ first.length = before.length ∧
      Yields (after = []) block yield ∧ YieldAll after rest ∧
      ∀ replaced after' yield' rest', Yields (after' = []) replaced yield' → YieldAll after' rest' →
        YieldAll (before ++ replaced :: after') (first ++ yield' :: rest') := by
  induction before generalizing yields with
  | nil =>
    cases h with
    | @cons _ _ yield rest hyield hrest =>
      exact ⟨[], yield, rest, rfl, rfl, hyield, hrest, fun _ _ _ _ => .cons⟩
  | cons b before ih =>
    cases h with
    | @cons _ _ yield yields hyield hrest =>
      obtain ⟨first, yield', rest, rfl, hlength, hblock, hafter, hreplace⟩ := ih hrest
      refine ⟨yield :: first, yield', rest, rfl, by simp [hlength], hblock, hafter, ?_⟩
      intro replaced after' yield'' rest' hyield' hrest'
      exact .cons (hyield.of_iff (by simp)) (hreplace replaced after' yield'' rest' hyield' hrest')

theorem YieldAll.exists_of_mem (h : YieldAll bs yields) (hmem : yield ∈ yields) :
    ∃ block ∈ bs, ∃ last, Yields last block yield := by
  induction h with
  | nil => cases hmem
  | @cons block bs _ _ hyield _ ih =>
    rcases List.mem_cons.1 hmem with rfl | hmem
    · exact ⟨block, List.mem_cons_self, _, hyield⟩
    · obtain ⟨block', hblock, hyields⟩ := ih hmem
      exact ⟨block', List.mem_cons_of_mem _ hblock, hyields⟩

theorem mem_skipped_gathered {fault : ControlFault} :
    fault ∈ (gathered yields).skipped ↔ .skipped fault ∈ yields := by
  rw [gathered, List.mem_filterMap]
  constructor
  · rintro ⟨yield, hmem, hfault⟩
    cases yield with
    | skipped fault' =>
      cases hfault
      exact hmem
    | sample | cut => cases hfault
  · exact fun hmem => ⟨_, hmem, rfl⟩

/-! ## The text of a recording -/

/-- Two texts that are the same but for one block. -/
structure BlockReplaced (text other : String) (before block replaced after : List String) : Prop where
  lines_eq : Text.lines text = before ++ block ++ after
  isBlock : IsBlock before block after
  lines_other : Text.lines other = before ++ replaced ++ after
  isBlock_replaced : IsBlock before replaced after

/-- All blocks but one come to the same, those behind it with the numbers of their lines. -/
def YieldAlike (text other : String) (before block replaced : List String) : Prop :=
  ∃ (first : List Yield) (yield yield' : Yield) (rest : List Yield),
    YieldAll (blocks (numberedLines text)) (first ++ yield :: rest.map (·.later block.length)) ∧
    YieldAll (blocks (numberedLines other)) (first ++ yield' :: rest.map (·.later replaced.length)) ∧
    first.length = (blocks (number 1 before)).length

variable {other : String} {before lines replaced after : List String}

theorem exists_yieldAll_blocks (first : Nat) (lines : List String) :
    ∃ yields, YieldAll (blocks (number first lines)) yields :=
  exists_yieldAll fun _ => ne_nil_of_mem_blocks

theorem BlockReplaced.yieldAlike (h : BlockReplaced text other before lines replaced after) :
    YieldAlike text other before lines replaced := by
  have htext := blocks_number h.isBlock 1
  have hother := blocks_number h.isBlock_replaced 1
  rw [← h.lines_eq, blocks_later] at htext
  rw [← h.lines_other, blocks_later] at hother
  obtain ⟨yields, hyields⟩ := exists_yieldAll_blocks 1 (Text.lines text)
  obtain ⟨others, hothers⟩ := exists_yieldAll_blocks 1 (Text.lines other)
  obtain ⟨rest, hrest⟩ := exists_yieldAll_blocks (1 + before.length) after
  rw [htext] at hyields
  rw [hother] at hothers
  obtain ⟨first, yield, rest', rfl, hlength, -, hafter, hreplace⟩ := hyields.replace
  obtain ⟨_, yield', _, -, -, hyield', -⟩ := hothers.replace
  rw [hafter.unique (hrest.later _), ← htext] at hyields
  have hreplaced := hreplace _ _ _ _ hyield' (hrest.later _)
  rw [← hother] at hreplaced
  exact ⟨first, yield, yield', rest, hyields, hreplaced, hlength⟩

/-- A text falls into its blocks, the maximal runs of lines that are not blank. Each of them comes to one
thing, and reading gathers these in order; every fault names a line of its block. With another block in
place of one, the others come to the same, further down or up. -/
theorem records_stand_apart (text : String) :
    (∀ block, block ∈ blocks (numberedLines text) ↔
      ∃ before lines after, Text.lines text = before ++ lines ++ after ∧ IsBlock before lines after ∧
        block = number (before.length + 1) lines) ∧
    (blocks (numberedLines text)).flatten = (numberedLines text).filter (!isBlankLine ·) ∧
    (∃ yields, YieldAll (blocks (numberedLines text)) yields ∧
      (∀ other, YieldAll (blocks (numberedLines text)) other → other = yields) ∧
      readRecords text = gathered yields) ∧
    (readRecords text).samples.length + (readRecords text).skipped.length +
      (if (readRecords text).truncated then 1 else 0) = (blocks (numberedLines text)).length ∧
    (∀ fault ∈ (readRecords text).skipped, ∃ block ∈ blocks (numberedLines text), ∃ l ∈ block,
      fault = malformed l ∧ 1 ≤ l.number ∧ (Text.lines text)[l.number - 1]? = some l.text) ∧
    ∀ other before block replaced after, BlockReplaced text other before block replaced after →
      YieldAlike text other before block replaced := by
  obtain ⟨yields, hyields⟩ := exists_yieldAll_blocks 1 (Text.lines text)
  have hread : readRecords text = gathered yields := readBlocks_eq hyields
  refine ⟨fun block => ?_, flatten_blocks _, ⟨yields, hyields, fun _ h => h.unique hyields, hread⟩, ?_, ?_,
    fun _ _ _ _ _ h => h.yieldAlike⟩
  · simp only [numberedLines, mem_blocks_number_iff, Nat.add_comm 1]
  · rw [hread]
    exact hyields.count_eq
  · intro fault hfault
    rw [hread, mem_skipped_gathered] at hfault
    obtain ⟨block, hblock, last, hyield⟩ := hyields.exists_of_mem hfault
    obtain ⟨l, hl, hline⟩ := hyield.mem_of_skipped
    have hmem : l ∈ (numberedLines text).filter (!isBlankLine ·) := by
      rw [← flatten_blocks]
      exact List.mem_flatten.2 ⟨block, hblock, hl⟩
    exact ⟨block, hblock, l, hl, hline, Text.mem_numberedLines_iff.1 (List.mem_filter.1 hmem).1⟩

/-- Between a record and a last block that is cut short, one line of noise. -/
def strayText : String :=
  "Total 2 MB/s\nTotal 1 MB/s\nsum: 3\n\nnoise\n\nmore\n\nTotal 4 MB/s\n"

/-- A record in place of the noise. -/
def mendedText : String :=
  "Total 2 MB/s\nTotal 1 MB/s\nsum: 3\n\nTotal 5 MB/s\nTotal 2 MB/s\nsum: 7\n\nmore\n\nTotal 4 MB/s\n"

/-- The block behind the noise comes to the same fault if a record stands there, two lines further down. -/
theorem records_stand_apart_mended :
    BlockReplaced strayText mendedText ["Total 2 MB/s", "Total 1 MB/s", "sum: 3", ""] ["noise"]
        ["Total 5 MB/s", "Total 2 MB/s", "sum: 7"] ["", "more", "", "Total 4 MB/s"] ∧
      YieldAlike strayText mendedText ["Total 2 MB/s", "Total 1 MB/s", "sum: 3", ""] ["noise"]
        ["Total 5 MB/s", "Total 2 MB/s", "sum: 7"] := by
  have hreplaced : BlockReplaced strayText mendedText ["Total 2 MB/s", "Total 1 MB/s", "sum: 3", ""]
      ["noise"] ["Total 5 MB/s", "Total 2 MB/s", "sum: 7"] ["", "more", "", "Total 4 MB/s"] :=
    ⟨by decide, ⟨by decide, by decide, by decide, by decide⟩, by decide,
      ⟨by decide, by decide, by decide, by decide⟩⟩
  exact ⟨hreplaced, (records_stand_apart strayText).2.2.2.2.2 _ _ _ _ _ hreplaced⟩

example :
    (readRecords strayText).skipped = [.malformedRecord 5 "noise", .malformedRecord 7 "more"] := by decide

example : (readRecords mendedText).skipped = [.malformedRecord 9 "more"] := by decide

end Interleave.Telemetry
