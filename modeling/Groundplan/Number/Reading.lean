import Groundplan.Number.Binary64
import Groundplan.Text.Blank
import Groundplan.Text.Digit
import Groundplan.Text.Quoted

/-!
Numbers read from text.  A decimal has an optional sign, digits with at most one
point, and an optional exponent; the words for infinity and NaN are read in any
case.
-/

namespace Groundplan
namespace Number

/-- Splits off an optional sign; the first part says whether it is a minus. -/
def readSign : List Char → Bool × List Char
  | '-' :: rest => (true, rest)
  | '+' :: rest => (false, rest)
  | rest => (false, rest)

/-- The value of a string of ASCII digits. -/
def digitsValue (cs : List Char) : Nat :=
  cs.foldl (fun n c => 10 * n + (c.toNat - 48)) 0

def isDigit (c : Char) : Bool := '0' ≤ c && c ≤ '9'

/-- The double nearest to `n * 10 ^ e`.  Exponents far outside the range are decided
by their sign, so no huge power is computed. -/
def ofDecimal (negative : Bool) (n : Nat) (e : Int) : Binary64 :=
  if n = 0 then .finite negative 0 Binary64.minExponent
  else
    let lead := (Nat.toDigits 10 n).length + e
    if 400 < lead then .infinite negative
    else if lead < -400 then .finite negative 0 Binary64.minExponent
    else if 0 ≤ e then Binary64.round negative (n * Nat.pow 10 e.toNat) 1
    else Binary64.round negative n (Nat.pow 10 (-e).toNat)

/-- The exponent part, which is absent or complete. -/
def readExponent? : List Char → Option Int
  | [] => some 0
  | c :: rest =>
    if c = 'e' ∨ c = 'E' then
      let (negative, digits) := readSign rest
      if !digits.isEmpty && digits.all isDigit then
        some (Binary64.signed negative (digitsValue digits))
      else none
    else none

/-- A decimal number without sign. -/
def readDecimal? (negative : Bool) (cs : List Char) : Option Binary64 :=
  let whole := cs.takeWhile isDigit
  let afterWhole := cs.dropWhile isDigit
  let (places, rest) := match afterWhole with
    | '.' :: r => (r.takeWhile isDigit, r.dropWhile isDigit)
    | r => ([], r)
  if whole.isEmpty && places.isEmpty then none
  else
    (readExponent? rest).map fun e =>
      ofDecimal negative (digitsValue (whole ++ places)) (e - (places.length : Int))

def lowerAscii (cs : List Char) : String :=
  String.ofList (cs.map Char.toLower)

/-- A decimal number, or a word for infinity or NaN, with an optional sign. -/
def readFloat? (cs : List Char) : Option Binary64 :=
  let (negative, body) := readSign cs
  let word := lowerAscii body
  if word = "inf" ∨ word = "infinity" then some (.infinite negative)
  else if word = "nan" then some .nan
  else readDecimal? negative body

/-- Underscores stand between two digits only. -/
def underscoresBetweenDigits (isDigit : Char → Bool) : List Char → Bool
  | [] => true
  | ['_'] => false
  | '_' :: _ => false
  | [_] => true
  | c :: '_' :: d :: rest => isDigit c && isDigit d && underscoresBetweenDigits isDigit (d :: rest)
  | _ :: '_' :: [] => false
  | _ :: c :: rest => underscoresBetweenDigits isDigit (c :: rest)

def dropUnderscores (cs : List Char) : List Char := cs.filter (· ≠ '_')

/-- A floating-point number in free text: blank characters around it, digits of any
script and single underscores between digits are allowed. -/
def parseFloat? (s : String) : Option Binary64 :=
  let cs := (Text.trimBy Text.isBlank s.toList).map Text.toAsciiDigit
  if underscoresBetweenDigits isDigit cs then readFloat? (dropUnderscores cs) else none

/-- Digits of a base with single underscores between them. -/
def readDigits? (base : Nat) (cs : List Char) : Option Nat :=
  let value? (c : Char) := (Text.letterDigitValue? c).filter (· < base)
  let isDigit (c : Char) := (value? c).isSome
  let digits := dropUnderscores cs
  if digits.isEmpty || !underscoresBetweenDigits isDigit cs then none
  else digits.foldl (fun acc c => acc.bind fun n => (value? c).map (base * n + ·)) (some 0)

/-- The letter that may follow a zero in front of the digits of a base. -/
def baseLetter? : Nat → Option Char
  | 2 => some 'b'
  | 8 => some 'o'
  | 16 => some 'x'
  | _ => none

/-- Drops the mark of the base; one underscore may stand behind it. -/
def dropBaseMark (base : Nat) : List Char → List Char
  | '0' :: c :: rest =>
    if baseLetter? base = some c.toLower then
      match rest with
      | '_' :: digits => digits
      | digits => digits
    else '0' :: c :: rest
  | cs => cs

/-- The most digits that an integer may have in decimal notation.  Notations in a power of
two have no such bound. -/
def maxDigits : Nat := 4300

/-- The number of decimal digits at the front of free text if it is above the bound,
whatever stands behind them. -/
def excessDigits? (s : String) : Option Nat :=
  let cs := (Text.trimBy Text.isBlank s.toList).map Text.toAsciiDigit
  let run := (readSign cs).2.takeWhile fun c => isDigit c || c == '_'
  let count := (dropUnderscores run).length
  if maxDigits < count && underscoresBetweenDigits isDigit run then some count else none

/-- What is said of a text that spells no integer.  Of a long one only the start is shown. -/
def literalMessage (base : Nat) (text : String) : String :=
  s!"invalid literal for int() with base {base}: " ++
    String.ofList ((Text.quoted text).toList.take 200)

/-- What is said of an integer that has too many digits to be read. -/
def excessMessage (count : Nat) : String :=
  s!"Exceeds the limit ({maxDigits} digits) for integer string conversion: value has {count} " ++
    "digits; use sys.set_int_max_str_digits() to increase the limit"

/-- Whether an integer can be written in decimal notation. -/
def isWritable (n : Int) : Bool := (Nat.toDigits 10 n.natAbs).length ≤ maxDigits

def unwritableMessage : String :=
  s!"Exceeds the limit ({maxDigits} digits) for integer string conversion; " ++
    "use sys.set_int_max_str_digits() to increase the limit"

/-- An integer in free text, in the given base: blank characters around it, a sign, the
mark of the base, digits of any script and single underscores are allowed. -/
def parseInt? (base : Nat) (s : String) : Option Int :=
  let cs := (Text.trimBy Text.isBlank s.toList).map Text.toAsciiDigit
  let (negative, body) := readSign cs
  (readDigits? base (dropBaseMark base body)).map (Binary64.signed negative)

end Number
end Groundplan
