import Interleave.Number.Shortest
/-!
# Number text

A `Layout` fixes how the shortest digits of a number are written: which powers of ten are written
positionally, whether a whole number keeps `.0`, the sign of an exponent, and how ties are broken.
`Layout.plain` is the layout of messages and tables: never an exponent and no `.0`.
-/
namespace Interleave

open Float.Model.UnpackedFloat (Sign)

/-- How the digits of a number are laid out. -/
structure Layout where
  /-- Powers of the leading digit that are written without an exponent. -/
  positional : Int → Bool
  /-- A whole number written positionally ends in `.0`. -/
  wholeSuffix : Bool
  /-- A positive exponent has a plus sign. -/
  plusSign : Bool
  tie : Tie

namespace Layout

/-- Digits with the point inside, before or after them. -/
def placePoint (suffix : Bool) (digits : List Char) (exponent : Int) : List Char :=
  if 0 ≤ exponent then
    digits ++ List.replicate exponent.toNat '0' ++ (if suffix then ['.', '0'] else [])
  else
    let places := (-exponent).toNat
    if places < digits.length then
      digits.take (digits.length - places) ++ '.' :: digits.drop (digits.length - places)
    else '0' :: '.' :: List.replicate (places - digits.length) '0' ++ digits

/-- One digit, a point before further ones, and the power of ten of the first. -/
def scientific (plusSign : Bool) (digits : List Char) (power : Int) : List Char :=
  let mantissa := match digits with
    | d :: (e :: es) => d :: '.' :: e :: es
    | ds => ds
  let sign := if power < 0 then ['-'] else if plusSign then ['+'] else []
  mantissa ++ 'e' :: sign ++ Decimal.digits power.natAbs

def unsigned (layout : Layout) (d : Decimal) : List Char :=
  let digits := Decimal.digits d.coefficient
  let power := d.exponent + digits.length - 1
  if layout.positional power then placePoint layout.wholeSuffix digits d.exponent
  else scientific layout.plusSign digits power

/-- The text of `±mantissa · 2^exponent`. -/
def finite (layout : Layout) (sign : Sign) (mantissa : Nat) (exponent : Int) : List Char :=
  let body := layout.unsigned (Shortest.decimal layout.tie mantissa exponent)
  match sign with
  | .negative => '-' :: body
  | .positive => body

def format (layout : Layout) (x : Float) : String :=
  match x.toModel.unpack with
  | .notANumber => "NaN"
  | .infinity .positive => "inf"
  | .infinity .negative => "-inf"
  | .zero s => String.ofList (layout.finite s 0 0)
  | .finite s m e _ => String.ofList (layout.finite s m e)

/-- Numbers in messages and tables: every digit is written out, and a whole number has no point. -/
def plain : Layout where
  positional _ := true
  wholeSuffix := false
  plusSign := false
  tie := .up

end Layout

/-- A number as messages and tables write it. -/
def plainText (x : Float) : String := Layout.plain.format x

end Interleave
