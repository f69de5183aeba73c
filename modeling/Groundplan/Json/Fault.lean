import Groundplan.Number.Reading

/-!
Faults in JSON text, with the place where reading stopped.  An integer that is too long is
no fault of form and has no place.
-/

namespace Groundplan
namespace Json

inductive Cause
  | expectingValue
  | expectingComma
  | expectingColon
  | expectingName
  | extraData
  | unterminatedString
  | controlCharacter
  | invalidEscape
  | invalidUnicodeEscape
  | byteOrderMark
  deriving DecidableEq

/-- A cause and the number of characters in front of it. -/
structure Fault where
  cause : Cause
  offset : Nat
  line : Nat
  column : Nat
  deriving DecidableEq

namespace Cause

def message : Cause → String
  | .expectingValue => "Expecting value"
  | .expectingComma => "Expecting ',' delimiter"
  | .expectingColon => "Expecting ':' delimiter"
  | .expectingName => "Expecting property name enclosed in double quotes"
  | .extraData => "Extra data"
  | .unterminatedString => "Unterminated string starting at"
  | .controlCharacter => "Invalid control character at"
  | .invalidEscape => "Invalid \\escape"
  | .invalidUnicodeEscape => "Invalid \\uXXXX escape"
  | .byteOrderMark => "Unexpected UTF-8 BOM (decode using utf-8-sig)"

end Cause

namespace Fault

/-- Lines and columns are counted from one; only a newline ends a line here. -/
def atOffset (cause : Cause) (text : List Char) (offset : Nat) : Fault :=
  let before := text.take offset
  { cause, offset
    line := before.count '\n' + 1
    column := (before.reverse.takeWhile (· ≠ '\n')).length + 1 }

def message (f : Fault) : String :=
  s!"{f.cause.message}: line {f.line} column {f.column} (char {f.offset})"

end Fault

/-- Why a text has no value. -/
inductive Failure
  | malformed (fault : Fault)
  /-- An integer has more digits than are converted. -/
  | digits (count : Nat)
  deriving DecidableEq

def Failure.message : Failure → String
  | .malformed fault => fault.message
  | .digits count => Number.excessMessage count

end Json
end Groundplan
