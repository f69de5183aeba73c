/-!
Double-precision binary floating point, kept as exact integers.  Every operation
computes the exact rational result and rounds it once, so all that is known of
the type is the rounding rule.
-/

namespace Groundplan

/-- A double-precision number.  `finite negative m e` has the magnitude `m * 2 ^ e`;
rounding yields `2 ^ 52 ≤ m < 2 ^ 53`, or the least exponent for smaller numbers. -/
inductive Binary64
  | nan
  | infinite (negative : Bool)
  | finite (negative : Bool) (significand : Nat) (exponent : Int)
  deriving DecidableEq, Inhabited

namespace Binary64

def minExponent : Int := -1074

def maxExponent : Int := 971

/-- Multiplies a ratio by a power of two, which may be negative. -/
def scaleRatio (num den : Nat) (e : Int) : Nat × Nat :=
  if 0 ≤ e then (num * Nat.pow 2 e.toNat, den) else (num, den * Nat.pow 2 (-e).toNat)

/-- Rounds a quotient to the nearest integer, a half to the even neighbour. -/
def roundDiv (num den : Nat) : Nat :=
  let q := num / den
  let r := 2 * (num % den)
  if r < den then q
  else if den < r then q + 1
  else if q % 2 = 0 then q else q + 1

/-- The exponent at which the quotient has 53 binary digits, or the least one. -/
def exponentFor (num den : Nat) : Int :=
  let guess : Int := (num.log2 : Int) - den.log2 - 53
  let (n, d) := scaleRatio num den (-guess)
  let e := if n < Nat.pow 2 53 * d then guess else guess + 1
  max e minExponent

/-- The number nearest to a ratio; of two equally near ones the one with the even
significand. -/
def round (negative : Bool) (num den : Nat) : Binary64 :=
  if num = 0 then .finite negative 0 minExponent
  else
    let e := exponentFor num den
    let (n, d) := scaleRatio num den (-e)
    let m := roundDiv n d
    let (m, e) := if m = Nat.pow 2 53 then (Nat.pow 2 52, e + 1) else (m, e)
    if maxExponent < e then .infinite negative else .finite negative m e

def zero : Binary64 := .finite false 0 minExponent

/-- The magnitude as a ratio. -/
def ratio (m : Nat) (e : Int) : Nat × Nat := scaleRatio m 1 e

/-- The nearest number to an integer. -/
def ofInt (n : Int) : Binary64 := round (decide (n < 0)) n.natAbs 1

def neg : Binary64 → Binary64
  | .nan => .nan
  | .infinite s => .infinite !s
  | .finite s m e => .finite (!s) m e

def signed (negative : Bool) (n : Nat) : Int := if negative then -(n : Int) else n

/-- Exact sum, rounded once.  A zero sum is negative only if both terms are. -/
def add : Binary64 → Binary64 → Binary64
  | .nan, _ | _, .nan => .nan
  | .infinite s, .infinite t => if s = t then .infinite s else .nan
  | .infinite s, _ => .infinite s
  | _, .infinite t => .infinite t
  | .finite s m e, .finite t n f =>
    let low := min e f
    let sum := signed s (m * Nat.pow 2 (e - low).toNat) + signed t (n * Nat.pow 2 (f - low).toNat)
    if sum = 0 then .finite (s && t) 0 minExponent
    else
      let (num, den) := ratio sum.natAbs low
      round (decide (sum < 0)) num den

/-- Exact product, rounded once. -/
def mul : Binary64 → Binary64 → Binary64
  | .nan, _ | _, .nan => .nan
  | .infinite s, .infinite t => .infinite (s != t)
  | .infinite s, .finite t n _ => if n = 0 then .nan else .infinite (s != t)
  | .finite s m _, .infinite t => if m = 0 then .nan else .infinite (s != t)
  | .finite s m e, .finite t n f =>
    let (num, den) := ratio (m * n) (e + f)
    round (s != t) num den

/-- Numeric order; nothing compares with a NaN. -/
def le : Binary64 → Binary64 → Bool
  | .nan, _ | _, .nan => false
  | .infinite s, y => s || y == .infinite false
  | _, .infinite t => !t
  | .finite s m e, .finite t n f =>
    let low := min e f
    signed s (m * Nat.pow 2 (e - low).toNat) ≤ signed t (n * Nat.pow 2 (f - low).toNat)

/-- Numeric equality: the two zeros are equal and a NaN equals nothing. -/
def equal (x y : Binary64) : Bool := le x y && le y x

/-- The value as a fraction in integers, for finite numbers. -/
def toFraction? : Binary64 → Option (Int × Nat)
  | .finite s m e => let (num, den) := ratio m e; some (signed s num, den)
  | _ => none

/-- The integer that the number is, if it is one. -/
def toInt? (x : Binary64) : Option Int :=
  x.toFraction?.bind fun (num, den) => if num % den = 0 then some (num / den) else none

/-- Drops the fraction of a finite number. -/
def truncate? (x : Binary64) : Option Int :=
  x.toFraction?.map fun (num, den) => num.tdiv den

/-- The nearest integer to a finite number, a half to the even neighbour, without
its sign. -/
def roundedMagnitude? : Binary64 → Option Nat
  | .finite _ m e => let (num, den) := ratio m e; some (roundDiv num den)
  | _ => none

end Binary64
end Groundplan
