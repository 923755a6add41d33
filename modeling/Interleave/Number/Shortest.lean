import Interleave.Number.Decimal
/-!
# The shortest decimal that reads back

`Shortest.decimal` gives the decimal with the fewest digits among those that round to a given positive
binary64 number, and of these the nearest one. Where two are equally near, the tie rule of the caller
decides.

All is exact natural-number arithmetic. With `v = m · 2^q`, the numbers that round to `v` form the
interval from `(4m - 2) · 2^(q-2)` (or `(4m - 1) · 2^(q-2)` when `v` starts a new power of two) to
`(4m + 2) · 2^(q-2)`, ends included iff `m` is even. On the grid of multiples of `10^k` only the two
neighbours of `v` can be the answer: if any grid point lies in the interval, one of these does.
-/
namespace Interleave

/-- Which of two equally near decimals is taken. -/
inductive Tie where
  /-- The one whose last digit is even. -/
  | even
  /-- The larger one. -/
  | up
  deriving DecidableEq, Repr

namespace Shortest

/-- The numbers that round to one binary64 number, as multiples of `2^exponent`. -/
structure Cell where
  low : Nat
  value : Nat
  high : Nat
  exponent : Int
  /-- Both ends belong to the cell. -/
  closed : Bool
  deriving DecidableEq, Repr

/-- The cell of `m · 2^q`, where the smallest exponent of the format is -1074. -/
def Cell.of (m : Nat) (q : Int) : Cell :=
  let narrow := m = 0x10000000000000 ∧ -1074 < q
  { low := 4 * m - (if narrow then 1 else 2)
    value := 4 * m
    high := 4 * m + 2
    exponent := q - 2
    closed := m % 2 = 0 }

/-- A cell measured against the grid of multiples of `10^k`: in units of one common denominator the
number is `cell.value * up` and one grid step is `down`. -/
structure Scale where
  up : Nat
  down : Nat
  deriving DecidableEq, Repr

/-- The common units of `2^exponent` and `10^k`. -/
def Scale.of (exponent k : Int) : Scale :=
  { up := Nat.pow 2 exponent.toNat * Nat.pow 10 (-k).toNat
    down := Nat.pow 2 (-exponent).toNat * Nat.pow 10 k.toNat }

/-- The grid point `c` lies in the cell. -/
def Cell.contains (cell : Cell) (s : Scale) (c : Nat) : Bool :=
  let x := c * s.down
  if cell.closed then cell.low * s.up ≤ x && x ≤ cell.high * s.up
  else cell.low * s.up < x && x < cell.high * s.up

/-- The nearest grid point of the two neighbours that lie in the cell, if any does. -/
def Cell.onGrid (cell : Cell) (tie : Tie) (s : Scale) : Option Nat :=
  let below := cell.value * s.up / s.down
  let rest := cell.value * s.up % s.down
  let above := below + 1
  match cell.contains s below, cell.contains s above with
  | false, false => none
  | true, false => some below
  | false, true => some above
  | true, true =>
    if 2 * rest < s.down then some below
    else if s.down < 2 * rest then some above
    else match tie with
      | .up => some above
      | .even => if below % 2 = 0 then some below else some above

/-- The power of ten of the leading digit of `num / den`. -/
def leadingPower (num den : Nat) : Int :=
  if den ≤ num then ((Decimal.digits (num / den)).length : Int) - 1
  else
    let places := (Decimal.digits (den / num)).length
    if den ≤ num * Nat.pow 10 (places - 1) then 1 - (places : Int) else -(places : Int)

/-- Tries the grids from `n` digits downwards in coarseness, `fuel` of them. -/
def search (cell : Cell) (tie : Tie) (leading : Int) : (fuel n : Nat) → Option Decimal
  | 0, _ => none
  | fuel + 1, n =>
    let k := leading - n
    match cell.onGrid tie (Scale.of cell.exponent k) with
    | some c => some ⟨c, k⟩
    | none => search cell tie leading fuel (n + 1)

/-- Moves the trailing zeros of a coefficient of at most `fuel` digits into the exponent. -/
def trim : (fuel : Nat) → Decimal → Decimal
  | 0, d => d
  | fuel + 1, d =>
    if d.coefficient ≠ 0 ∧ d.coefficient % 10 = 0 then
      trim fuel ⟨d.coefficient / 10, d.exponent + 1⟩
    else d

/-- The shortest decimal that rounds to `m · 2^q`. Seventeen digits always suffice. -/
def decimal (tie : Tie) (m : Nat) (q : Int) : Decimal :=
  if m = 0 then ⟨0, 0⟩ else
    let cell := Cell.of m q
    let unit := Scale.of q 0
    let leading := leadingPower (m * unit.up) unit.down
    trim 17 ((search cell tie leading 17 0).getD ⟨0, 0⟩)

end Shortest

end Interleave
