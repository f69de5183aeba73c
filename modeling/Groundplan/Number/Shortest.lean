import Groundplan.Number.Binary64

/-!
The shortest decimal text that reads back as the same number.  Of the decimals
that round to a number, those with the fewest digits are taken, and of these the
nearest.
-/

namespace Groundplan
namespace Binary64

/-- A positive decimal number `digits * 10 ^ exponent`. -/
structure Decimal where
  digits : Nat
  exponent : Int
  deriving DecidableEq, Inhabited

/-- Whether `x / y` and `z / w` are in order. -/
def ratioLe (x y z w : Nat) : Bool := x * w ≤ z * y

/-- The interval of reals that round to `m * 2 ^ e`, in units of `2 ^ (e - 2)`.  Below
a power of two the spacing halves. -/
def roundingInterval (m : Nat) (e : Int) : Nat × Nat :=
  (if m = Nat.pow 2 52 ∧ minExponent < e then 4 * m - 1 else 4 * m - 2, 4 * m + 2)

/-- Whether the decimal `n / d` rounds to the number; the ends of the interval do
when the significand is even. -/
def roundsTo (m : Nat) (e : Int) (n d : Nat) : Bool :=
  let (low, high) := roundingInterval m e
  let (ln, ld) := ratio low (e - 2)
  let (hn, hd) := ratio high (e - 2)
  if m % 2 = 0 then ratioLe ln ld n d && ratioLe n d hn hd
  else !ratioLe n d ln ld && !ratioLe hn hd n d

def powerOfTenRatio (n : Nat) (e : Int) : Nat × Nat :=
  if 0 ≤ e then (n * Nat.pow 10 e.toNat, 1) else (n, Nat.pow 10 (-e).toNat)

/-- The exponent of the leading decimal digit of a ratio. -/
def leadingExponent (num den : Nat) : Int :=
  if den ≤ num then ((Nat.toDigits 10 (num / den)).length : Int) - 1
  else
    match (List.range 400).find? fun p => den ≤ num * Nat.pow 10 (p + 1) with
    | some p => -((p : Int) + 1)
    | none => -400

/-- The nearest decimal with `k` digits if it rounds to the number.  Its two
neighbours on the grid of such decimals are tried; of two equally near ones the
even one is taken. -/
def withDigits? (m : Nat) (e : Int) (k : Nat) : Option Decimal :=
  let (num, den) := ratio m e
  let unit := leadingExponent num den + 1 - (k : Int)
  let (un, ud) := powerOfTenRatio 1 unit
  let below := num * ud / (den * un)
  let hits (n : Nat) : Bool :=
    let (a, b) := powerOfTenRatio n unit
    0 < n && roundsTo m e a b
  match hits below, hits (below + 1) with
  | true, true =>
    let r := 2 * (num * ud % (den * un))
    let nearest :=
      if r < den * un then below
      else if den * un < r then below + 1
      else if below % 2 = 0 then below else below + 1
    some ⟨nearest, unit⟩
  | true, false => some ⟨below, unit⟩
  | false, true => some ⟨below + 1, unit⟩
  | false, false => none

/-- The shortest decimal that rounds to the number; seventeen digits always do. -/
def shortest (m : Nat) (e : Int) : Decimal :=
  ((List.range 17).findSome? fun k => withDigits? m e (k + 1)).getD ⟨0, 0⟩

/-- How a number is laid out: the range of leading exponents that are written
positionally, the least number of exponent digits, and the words for the values
that have no digits. -/
structure Layout where
  lowestPositional : Int := -4
  highestPositional : Int := 15
  exponentDigits : Nat := 2
  infinity : String := "inf"
  notANumber : String := "nan"

def zeros (n : Nat) : List Char := List.replicate n '0'

def padLeft (width : Nat) (s : List Char) : List Char :=
  zeros (width - s.length) ++ s

/-- Digits with the point after the digit of exponent zero; a whole number keeps
one place. -/
def positional (digits : List Char) (lead : Int) : List Char :=
  if lead < 0 then '0' :: '.' :: (zeros ((-lead).toNat - 1) ++ digits)
  else
    let whole := lead.toNat + 1
    if digits.length ≤ whole then digits ++ zeros (whole - digits.length) ++ ['.', '0']
    else digits.take whole ++ '.' :: digits.drop whole

/-- Digits with the point after the first of them and the exponent behind. -/
def scientific (layout : Layout) (digits : List Char) (lead : Int) : List Char :=
  let mantissa := match digits with
    | [] => []
    | [d] => [d]
    | d :: ds => d :: '.' :: ds
  mantissa ++ 'e' :: (if lead < 0 then '-' else '+') ::
    padLeft layout.exponentDigits (Nat.toDigits 10 lead.natAbs)

/-- Removes zeros at the end of a digit string. -/
def dropTrailingZeros (digits : List Char) : List Char :=
  match (digits.reverse.dropWhile (· == '0')).reverse with
  | [] => ['0']
  | ds => ds

/-- The text of a number in a layout. -/
def format (layout : Layout) (x : Binary64) : String :=
  match x with
  | .nan => layout.notANumber
  | .infinite s => (if s then "-" else "") ++ layout.infinity
  | .finite s m e =>
    let body :=
      if m = 0 then positional ['0'] 0
      else
        let d := shortest m e
        let written := Nat.toDigits 10 d.digits
        let lead := (written.length : Int) - 1 + d.exponent
        let digits := dropTrailingZeros written
        if layout.lowestPositional ≤ lead ∧ lead ≤ layout.highestPositional then
          positional digits lead
        else scientific layout digits lead
    (if s then "-" else "") ++ String.ofList body

/-- The number as documents and generated files show it. -/
def toText (x : Binary64) : String := format {} x

/-- The number rounded to a whole one, as messages about durations show it. -/
def toWholeText (x : Binary64) : String :=
  match x with
  | .nan => "nan"
  | .infinite s => if s then "-inf" else "inf"
  | .finite s _ _ =>
    (if s then "-" else "") ++ toString (x.roundedMagnitude?.getD 0)

end Binary64
end Groundplan
