import Interleave.Proofs.Json.Tokens

/-!
# Printed values are read

Both printers write the same characters and differ in the blanks between them: one line has none, and
the indented form breaks and indents its lines (`Spacing`). The reader skips blanks wherever a printer may
put them, so whichever they are, it finds the same syntax, whatever follows the text. The syntax is
`spelled`: it has a numeral where the value has a number.

Results:
* `compactChars_eq`, `prettyChars_eq`: the two printers as one.
* `readSyntax_spacedChars`: a printed value is read up to its last character.
* `syntax?_compact`, `syntax?_pretty`: the line of a value, and its indented text, have the syntax of the
  value.
-/
namespace Interleave.Json

/-! ## Syntax -/

/-- The syntax of a number; `null` stands for one that is not finite. -/
def Number.spelled : Number → Syntax
  | .integer n => .number (Number.integer n).numeral
  | .real x => if x.isFinite then .number (realNumeral x) else .null

mutual

/-- The syntax of a value. -/
def spelled : Json → Syntax
  | null => .null
  | bool b => .bool b
  | number n => n.spelled
  | string s => .string (pieces s)
  | array xs => .array (spelledItems xs)
  | object ms => .object (spelledMembers ms)

def spelledItems : List Json → List Syntax
  | [] => []
  | x :: xs => spelled x :: spelledItems xs

def spelledMembers : List (String × Json) → List (List Piece × Syntax)
  | [] => []
  | (k, v) :: ms => (pieces k, spelled v) :: spelledMembers ms

end

/-! ## Printers -/

/-- Where a printer puts blanks. -/
structure Spacing where
  /-- Before an item, a member or a closing bracket at a nesting depth. -/
  line : Nat → List Char
  /-- Behind a colon. -/
  colon : List Char
  isGap_line : ∀ depth, ∀ c ∈ line depth, isGap c = true
  isGap_colon : ∀ c ∈ colon, isGap c = true

namespace Spacing

def none : Spacing := ⟨fun _ => [], [], fun _ => List.forall_mem_nil _, List.forall_mem_nil _⟩

def indented : Spacing where
  line := newLine
  colon := [' ']
  isGap_line depth c hc := by
    rcases List.mem_cons.1 hc with rfl | hc
    · decide
    · rw [(List.mem_replicate.1 hc).2]
      decide
  isGap_colon := List.forall_mem_singleton.2 rfl

end Spacing

mutual

/-- The value with blanks. -/
def spacedChars (g : Spacing) (depth : Nat) : Json → List Char
  | null => ['n', 'u', 'l', 'l']
  | bool true => ['t', 'r', 'u', 'e']
  | bool false => ['f', 'a', 'l', 's', 'e']
  | number n => numberChars n
  | string s => stringChars s
  | array [] => ['[', ']']
  | array (x :: xs) =>
    '[' :: (g.line (depth + 1) ++ (spacedChars g (depth + 1) x ++ spacedItems g depth xs))
  | object [] => ['\x7b', '\x7d']
  | object ((k, v) :: ms) =>
    '\x7b' :: (g.line (depth + 1) ++ (stringChars k ++ ':' ::
      (g.colon ++ (spacedChars g (depth + 1) v ++ spacedMembers g depth ms))))

def spacedItems (g : Spacing) (depth : Nat) : List Json → List Char
  | [] => g.line depth ++ [']']
  | x :: xs => ',' :: (g.line (depth + 1) ++ (spacedChars g (depth + 1) x ++ spacedItems g depth xs))

def spacedMembers (g : Spacing) (depth : Nat) : List (String × Json) → List Char
  | [] => g.line depth ++ ['\x7d']
  | (k, v) :: ms =>
    ',' :: (g.line (depth + 1) ++ (stringChars k ++ ':' ::
      (g.colon ++ (spacedChars g (depth + 1) v ++ spacedMembers g depth ms))))

end

mutual

/-- One line is the printer without blanks. -/
theorem compactChars_eq : ∀ (depth : Nat) (j : Json), compactChars j = spacedChars .none depth j
  | _, null => rfl
  | _, bool true => rfl
  | _, bool false => rfl
  | _, number _ => rfl
  | _, string _ => rfl
  | _, array [] => rfl
  | depth, array (x :: xs) => by
    rw [compactChars, spacedChars, compactChars_eq (depth + 1) x, compactItems_eq depth xs]
    rfl
  | _, object [] => rfl
  | depth, object ((k, v) :: ms) => by
    rw [compactChars, spacedChars, compactChars_eq (depth + 1) v, compactMembers_eq depth ms]
    simp [Spacing.none]

theorem compactItems_eq : ∀ (depth : Nat) (xs : List Json), compactItems xs = spacedItems .none depth xs
  | _, [] => rfl
  | depth, x :: xs => by
    rw [compactItems, spacedItems, compactChars_eq (depth + 1) x, compactItems_eq depth xs]
    rfl

theorem compactMembers_eq : ∀ (depth : Nat) (ms : List (String × Json)),
    compactMembers ms = spacedMembers .none depth ms
  | _, [] => rfl
  | depth, (k, v) :: ms => by
    rw [compactMembers, spacedMembers, compactChars_eq (depth + 1) v, compactMembers_eq depth ms]
    simp [Spacing.none]

end

mutual

/-- The indented form breaks a line wherever there may be one. -/
theorem prettyChars_eq : ∀ (depth : Nat) (j : Json), prettyChars depth j = spacedChars .indented depth j
  | _, null => rfl
  | _, bool true => rfl
  | _, bool false => rfl
  | _, number _ => rfl
  | _, string _ => rfl
  | _, array [] => rfl
  | depth, array (x :: xs) => by
    rw [prettyChars, spacedChars, prettyChars_eq (depth + 1) x, prettyItems_eq depth xs]
    simp [Spacing.indented]
  | _, object [] => rfl
  | depth, object ((k, v) :: ms) => by
    rw [prettyChars, spacedChars, prettyChars_eq (depth + 1) v, prettyMembers_eq depth ms]
    simp [Spacing.indented]

theorem prettyItems_eq : ∀ (depth : Nat) (xs : List Json),
    prettyItems depth xs = spacedItems .indented depth xs
  | _, [] => rfl
  | depth, x :: xs => by
    rw [prettyItems, spacedItems, prettyChars_eq (depth + 1) x, prettyItems_eq depth xs]
    simp [Spacing.indented]

theorem prettyMembers_eq : ∀ (depth : Nat) (ms : List (String × Json)),
    prettyMembers depth ms = spacedMembers .indented depth ms
  | _, [] => rfl
  | depth, (k, v) :: ms => by
    rw [prettyMembers, spacedMembers, prettyChars_eq (depth + 1) v, prettyMembers_eq depth ms]
    simp [Spacing.indented]

end

/-! ## Blanks -/

theorem skipGap_cons {c : Char} (h : isGap c = false) (cs : List Char) : skipGap (c :: cs) = c :: cs :=
  List.dropWhile_cons_of_neg (by simp [h])

theorem skipGap_append {gap : List Char} (h : ∀ c ∈ gap, isGap c = true) (cs : List Char) :
    skipGap (gap ++ cs) = skipGap cs :=
  List.dropWhile_append_of_pos h

/-- Blanks before a value are skipped. -/
theorem readSyntax_gap {gap : List Char} (h : ∀ c ∈ gap, isGap c = true) (depth : Nat)
    (cs : List Char) : readSyntax depth (gap ++ cs) = readSyntax depth cs := by
  cases depth with
  | zero => rfl
  | succ depth =>
    unfold readSyntax
    rw [skipGap_append h]

theorem ends_cons {c : Char} (h : c.isDigit = false ∧ c ≠ '.' ∧ c ≠ 'e' ∧ c ≠ 'E') (cs : List Char) :
    Ends (c :: cs) := by
  rintro d ⟨⟩
  exact h

/-- Blanks end a number. -/
theorem ends_gap {gap cs : List Char} (h : ∀ c ∈ gap, isGap c = true) (hcs : Ends cs) :
    Ends (gap ++ cs) := by
  cases gap with
  | nil => exact hcs
  | cons c gap =>
    have hc : isGap c = true := h c List.mem_cons_self
    simp only [isGap, Bool.or_eq_true, decide_eq_true_eq] at hc
    rcases hc with ((rfl | rfl) | rfl) | rfl <;> exact ends_cons (by decide) _

/-- The first character of a number is not a blank. -/
theorem isGap_of_digit {c : Char} (h : c = '-' ∨ c.isDigit) : isGap c = false := by
  rcases h with rfl | h
  · decide
  · simp only [isGap, Bool.or_eq_false_iff, decide_eq_false_iff_not]
    refine ⟨⟨⟨?_, ?_⟩, ?_⟩, ?_⟩ <;> (rintro rfl; revert h; decide)

/-! ## Reading -/

/-- A value begins with a character that is neither a blank nor a closing bracket. -/
theorem head_spacedChars (g : Spacing) (depth : Nat) (j : Json) :
    ∃ c cs, spacedChars g depth j = c :: cs ∧ isGap c = false ∧ c ≠ ']' := by
  have hnumber {c : Char} (h : c = '-' ∨ c.isDigit) : isGap c = false ∧ c ≠ ']' := by
    refine ⟨isGap_of_digit h, ?_⟩
    rintro rfl
    revert h
    decide
  match j with
  | null => exact ⟨_, _, rfl, by decide, by decide⟩
  | bool true => exact ⟨_, _, rfl, by decide, by decide⟩
  | bool false => exact ⟨_, _, rfl, by decide, by decide⟩
  | number (.integer n) =>
    obtain ⟨c, cs, hcs, hc⟩ := head_numberChars (n := .integer n) trivial
    exact ⟨c, cs, hcs, hnumber hc⟩
  | number (.real x) =>
    by_cases hx : x.isFinite = true
    · obtain ⟨c, cs, hcs, hc⟩ := head_numberChars (n := .real x) hx
      exact ⟨c, cs, hcs, hnumber hc⟩
    · exact ⟨'n', ['u', 'l', 'l'], by rw [spacedChars, numberChars, if_neg hx], by decide, by decide⟩
  | string s => exact ⟨_, _, rfl, by decide, by decide⟩
  | array [] => exact ⟨_, _, rfl, by decide, by decide⟩
  | array (x :: xs) => exact ⟨_, _, rfl, by decide, by decide⟩
  | object [] => exact ⟨_, _, rfl, by decide, by decide⟩
  | object ((k, v) :: ms) => exact ⟨_, _, rfl, by decide, by decide⟩

/-- What follows an item begins with a blank, a comma or a bracket. -/
theorem ends_spacedItems (g : Spacing) (depth : Nat) (xs : List Json) (rest : List Char) :
    Ends (spacedItems g depth xs ++ rest) := by
  cases xs with
  | nil =>
    rw [spacedItems, List.append_assoc]
    exact ends_gap (g.isGap_line depth) (ends_cons (by decide) _)
  | cons x xs => exact ends_cons (by decide) _

theorem ends_spacedMembers (g : Spacing) (depth : Nat) (ms : List (String × Json)) (rest : List Char) :
    Ends (spacedMembers g depth ms ++ rest) := by
  match ms with
  | [] =>
    rw [spacedMembers, List.append_assoc]
    exact ends_gap (g.isGap_line depth) (ends_cons (by decide) _)
  | (k, v) :: ms => exact ends_cons (by decide) _

theorem readSyntax_digit {c : Char} (hc : c = '-' ∨ c.isDigit) (depth : Nat) (cs : List Char) :
    readSyntax (depth + 1) (c :: cs) = (readNumeral (c :: cs)).map fun p => (.number p.1, p.2) := by
  unfold readSyntax
  rw [skipGap_cons (isGap_of_digit hc)]
  split
  case h_7 => rfl
  all_goals
    rename_i heq
    cases heq
    exact absurd hc (by decide)

theorem readSyntax_number (n : Number) (depth : Nat) {rest : List Char} (hrest : Ends rest) :
    readSyntax (depth + 1) (numberChars n ++ rest) = some (n.spelled, rest) := by
  have hfinite (n : Number) (h : n.Finite) :
      readSyntax (depth + 1) (numberChars n ++ rest) = some (.number n.numeral, rest) := by
    obtain ⟨c, cs, hcs, hc⟩ := head_numberChars h
    have hread := readNumeral_numberChars h hrest
    rw [hcs, List.cons_append] at hread ⊢
    rw [readSyntax_digit hc, hread]
    rfl
  cases n with
  | integer n => exact hfinite (.integer n) trivial
  | real x =>
    by_cases hx : x.isFinite = true
    · rw [hfinite (.real x) hx, Number.spelled, if_pos hx]
      rfl
    · rw [numberChars, if_neg hx, Number.spelled, if_neg hx]
      rfl

/-- An array with items, behind blanks. -/
theorem readSyntax_bracket {c : Char} {cs rest : List Char} (hskip : skipGap rest = c :: cs)
    (hc : c ≠ ']') (depth : Nat) : readSyntax (depth + 1) ('[' :: rest) =
      (readItems (readSyntax depth) (c :: cs).length (c :: cs)).map fun p => (.array p.1, p.2) := by
  unfold readSyntax
  rw [skipGap_cons (by decide)]
  simp only [hskip]
  split
  · rename_i heq
    cases heq
    exact absurd rfl hc
  · rfl

/-- An object with members, behind blanks. -/
theorem readSyntax_brace {cs rest : List Char} (hskip : skipGap rest = '"' :: cs) (depth : Nat) :
    readSyntax (depth + 1) ('\x7b' :: rest) =
      (readMembers (readSyntax depth) ('"' :: cs).length ('"' :: cs)).map
        fun p => (.object p.1, p.2) := by
  unfold readSyntax
  rw [skipGap_cons (by decide)]
  simp only [hskip]
  rfl

theorem readPieces_stringChars (s : String) (rest : List Char) :
    stringChars s ++ rest = '"' :: (s.toList.flatMap escapeChar ++ '"' :: rest) := by
  simp [stringChars]

section
variable {item : List Char → Option (Syntax × List Char)} {gap text rest cs : List Char} {s : Syntax}

/-- The last member of an object. -/
theorem readMembers_last (n : Nat) (k : String) (hgap : ∀ c ∈ gap, isGap c = true)
    (hitem : item text = some (s, rest)) (hrest : skipGap rest = '\x7d' :: cs) :
    readMembers item (n + 1) (gap ++ (stringChars k ++ ':' :: text)) = some ([(pieces k, s)], cs) := by
  rw [readPieces_stringChars, readMembers, skipGap_append hgap, skipGap_cons (by decide)]
  simp only [readPieces_escaped, Option.bind_eq_bind, Option.bind_some]
  rw [skipGap_cons (by decide)]
  simp only [hitem, Option.bind_some, hrest]
  rfl

/-- A member with others behind it. -/
theorem readMembers_comma {n : Nat} {later : List (List Piece × Syntax) × List Char} (k : String)
    (hgap : ∀ c ∈ gap, isGap c = true) (hitem : item text = some (s, rest))
    (hrest : skipGap rest = ',' :: cs) (hlater : readMembers item n cs = some later) :
    readMembers item (n + 1) (gap ++ (stringChars k ++ ':' :: text)) =
      some ((pieces k, s) :: later.1, later.2) := by
  rw [readPieces_stringChars, readMembers, skipGap_append hgap, skipGap_cons (by decide)]
  simp only [readPieces_escaped, Option.bind_eq_bind, Option.bind_some]
  rw [skipGap_cons (by decide)]
  simp only [hitem, Option.bind_some, hrest, hlater]
  rfl

end

mutual

/-- The text of a value is read up to its last character, at any depth that its length allows. -/
theorem readSyntax_spacedChars (g : Spacing) : ∀ (j : Json) (d depth : Nat) (rest : List Char),
    (spacedChars g d j).length ≤ depth → Ends rest →
      readSyntax depth (spacedChars g d j ++ rest) = some (spelled j, rest)
  | j, d, 0, _, hlen, _ => by
    obtain ⟨c, cs, hcs, -⟩ := head_spacedChars g d j
    rw [hcs] at hlen
    cases hlen
  | null, _, depth + 1, rest, _, _ => rfl
  | bool true, _, depth + 1, rest, _, _ => rfl
  | bool false, _, depth + 1, rest, _, _ => rfl
  | number n, _, depth + 1, rest, _, hrest => readSyntax_number n depth hrest
  | string s, _, depth + 1, rest, _, _ => by
    rw [spacedChars, readPieces_stringChars]
    unfold readSyntax
    rw [skipGap_cons (by decide)]
    simp only [readPieces_escaped, Option.map_some, spelled]
  | array [], _, depth + 1, rest, _, _ => rfl
  | array (x :: xs), d, depth + 1, rest, hlen, _ => by
    obtain ⟨c, cs, hcs, hgap, hbracket⟩ := head_spacedChars g (d + 1) x
    rw [spacedChars, List.length_cons, List.length_append, List.length_append] at hlen
    have hx := readSyntax_spacedChars g x (d + 1) depth (spacedItems g d xs ++ rest) (by omega)
      (ends_spacedItems g d xs rest)
    have hitems := readItems_spacedItems g xs d depth
      (spacedChars g (d + 1) x ++ (spacedItems g d xs ++ rest)).length hx (by omega)
      (by simp only [List.length_append]; omega)
    have hskip : skipGap (g.line (d + 1) ++ (spacedChars g (d + 1) x ++ (spacedItems g d xs ++ rest))) =
        c :: (cs ++ (spacedItems g d xs ++ rest)) := by
      rw [skipGap_append (g.isGap_line _), hcs, List.cons_append, skipGap_cons hgap]
    rw [hcs, List.cons_append] at hitems
    simp only [spacedChars, List.cons_append, List.append_assoc]
    rw [readSyntax_bracket hskip hbracket, hitems]
    rfl
  | object [], _, depth + 1, rest, _, _ => rfl
  | object ((k, v) :: ms), d, depth + 1, rest, hlen, _ => by
    simp only [spacedChars, List.length_append, List.length_cons] at hlen
    have hv := readSyntax_spacedChars g v (d + 1) depth (spacedMembers g d ms ++ rest) (by omega)
      (ends_spacedMembers g d ms rest)
    have hmembers := readMembers_spacedMembers g ms d depth
      (stringChars k ++ ':' :: (g.colon ++ (spacedChars g (d + 1) v ++
        (spacedMembers g d ms ++ rest)))).length k (List.forall_mem_nil _) hv (by omega)
      (by simp only [List.length_append, List.length_cons]; omega)
    have hskip : skipGap (g.line (d + 1) ++ (stringChars k ++ ':' :: (g.colon ++
        (spacedChars g (d + 1) v ++ (spacedMembers g d ms ++ rest))))) = stringChars k ++ ':' ::
          (g.colon ++ (spacedChars g (d + 1) v ++ (spacedMembers g d ms ++ rest))) := by
      rw [skipGap_append (g.isGap_line _), readPieces_stringChars, skipGap_cons (by decide)]
    rw [List.nil_append] at hmembers
    rw [readPieces_stringChars] at hskip hmembers
    simp only [spacedChars, List.cons_append, List.append_assoc]
    rw [readPieces_stringChars, readSyntax_brace hskip, hmembers]
    rfl

/-- The items of an array, of which the first is read. -/
theorem readItems_spacedItems (g : Spacing) : ∀ (xs : List Json) (d depth n : Nat)
    {text rest : List Char} {s : Syntax},
    readSyntax depth text = some (s, spacedItems g d xs ++ rest) →
      (spacedItems g d xs).length ≤ depth → (spacedItems g d xs).length ≤ n →
      readItems (readSyntax depth) n text = some (s :: spelledItems xs, rest)
  | xs, d, depth, 0, text, rest, s, _, _, hn => by
    cases xs <;> simp [spacedItems] at hn
  | [], d, depth, n + 1, text, rest, s, hs, _, _ => by
    rw [readItems, hs]
    simp only [Option.bind_eq_bind, Option.bind_some, spacedItems, List.append_assoc]
    rw [skipGap_append (g.isGap_line d), List.singleton_append, skipGap_cons (by decide)]
    rfl
  | y :: ys, d, depth, n + 1, text, rest, s, hs, hdepth, hn => by
    rw [spacedItems, List.length_cons, List.length_append, List.length_append] at hdepth hn
    have hy := readSyntax_spacedChars g y (d + 1) depth (spacedItems g d ys ++ rest) (by omega)
      (ends_spacedItems g d ys rest)
    rw [← readSyntax_gap (g.isGap_line (d + 1))] at hy
    have hys := readItems_spacedItems g ys d depth n hy (by omega) (by omega)
    rw [readItems, hs]
    simp only [Option.bind_eq_bind, Option.bind_some, spacedItems, List.cons_append, List.append_assoc]
    rw [skipGap_cons (by decide)]
    simp only [hys, Option.bind_some, spelledItems]
    rfl

/-- The members of an object, of which the value of the first is read. -/
theorem readMembers_spacedMembers (g : Spacing) : ∀ (ms : List (String × Json)) (d depth n : Nat)
    {gap text rest : List Char} {s : Syntax} (k : String), (∀ c ∈ gap, isGap c = true) →
    readSyntax depth text = some (s, spacedMembers g d ms ++ rest) →
      (spacedMembers g d ms).length ≤ depth → (spacedMembers g d ms).length ≤ n →
      readMembers (readSyntax depth) n (gap ++ (stringChars k ++ ':' :: (g.colon ++ text))) =
        some ((pieces k, s) :: spelledMembers ms, rest)
  | ms, d, depth, 0, gap, text, rest, s, k, _, _, _, hn => by
    cases ms <;> simp [spacedMembers] at hn
  | [], d, depth, n + 1, gap, text, rest, s, k, hgap, hs, _, _ => by
    rw [← readSyntax_gap g.isGap_colon] at hs
    apply readMembers_last n k hgap hs
    rw [spacedMembers, List.append_assoc, skipGap_append (g.isGap_line d)]
    exact skipGap_cons (by decide) rest
  | (l, w) :: ms, d, depth, n + 1, gap, text, rest, s, k, hgap, hs, hdepth, hn => by
    simp only [spacedMembers, List.length_append, List.length_cons] at hdepth hn
    have hw := readSyntax_spacedChars g w (d + 1) depth (spacedMembers g d ms ++ rest) (by omega)
      (ends_spacedMembers g d ms rest)
    have hms := readMembers_spacedMembers g ms d depth n l (g.isGap_line (d + 1)) hw (by omega)
      (by omega)
    rw [← readSyntax_gap g.isGap_colon] at hs
    apply readMembers_comma k hgap hs ?_ hms
    simp only [spacedMembers, List.cons_append, List.append_assoc]
    exact skipGap_cons (by decide) _

end

/-- A printed value has the syntax of the value. -/
theorem syntax?_spaced (g : Spacing) (depth : Nat) (j : Json) :
    syntax? (String.ofList (spacedChars g depth j)) = some j.spelled := by
  have hread := readSyntax_spacedChars g j depth ((spacedChars g depth j).length + 1) []
    (Nat.le_succ _) nofun
  rw [List.append_nil] at hread
  rw [syntax?, String.length_ofList, String.toList_ofList, hread]
  rfl

/-- The line of a value has the syntax of the value. -/
theorem syntax?_compact (j : Json) : syntax? j.compact = some j.spelled := by
  rw [compact, compactChars_eq 0, syntax?_spaced]

/-- So does its indented text. -/
theorem syntax?_pretty (j : Json) : syntax? j.pretty = some j.spelled := by
  rw [pretty, prettyChars_eq, syntax?_spaced]

end Interleave.Json
