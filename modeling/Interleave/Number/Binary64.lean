/-!
# Stored binary64 numbers

A telemetry sample is compared as it is stored: two numbers that `==` calls equal (`0.0` and `-0.0`)
are told apart, and so are a NaN with and without a sign bit. `Binary64` is that stored form; `key` is
its place in the total order -NaN < -∞ < … < -0 < +0 < … < +∞ < NaN.

Results:
* `key_injective`: distinct stored forms have distinct places.
-/
namespace Interleave

/-- A binary64 number as the 64 bits that store it. -/
structure Binary64 where
  bits : UInt64
  deriving DecidableEq, Repr

namespace Binary64

/-- The stored form of a number. -/
def ofFloat (x : Float) : Binary64 := ⟨x.toBits⟩

/-- The number that is stored. All NaNs read as the one NaN of `Float`. -/
def toFloat (x : Binary64) : Float := Float.ofBits x.bits

/-- The other sign, also for zeros, infinities and NaNs. -/
def neg (x : Binary64) : Binary64 := ⟨x.bits ^^^ 0x8000000000000000⟩

/-- The NaN that arithmetic produces, with a clear sign bit. -/
def nan : Binary64 := ⟨0x7ff8000000000000⟩

def infinity : Binary64 := ⟨0x7ff0000000000000⟩

/-- Place in the total order: the stored word itself when the sign bit is clear, and the
complement of its magnitude when it is set. -/
def key (x : Binary64) : Int :=
  if x.bits.toNat < 0x8000000000000000 then x.bits.toNat
  else 0x7FFFFFFFFFFFFFFF - (x.bits.toNat : Int)

theorem key_injective {x y : Binary64} (h : x.key = y.key) : x = y := by
  have hx := x.bits.toNat_lt
  have hy := y.bits.toNat_lt
  unfold key at h
  have : x.bits.toNat = y.bits.toNat := by split at h <;> split at h <;> omega
  cases x; cases y; simp_all [UInt64.toNat_inj]

end Binary64

end Interleave
