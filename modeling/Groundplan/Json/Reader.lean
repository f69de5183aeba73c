import Groundplan.Datum
import Groundplan.Json.Fault
import Groundplan.Number.Reading

/-!
Reading JSON text.  Readers take the text that is left and give back what they leave.
A fault carries the length of the text at its place, which the caller turns into a
position.
-/

namespace Groundplan
namespace Json

/-- What ends the reading. -/
inductive Stop
  /-- A cause and the length of the text from its place on. -/
  | malformed (cause : Cause) (left : Nat)
  /-- The number of digits of an integer that is too long. -/
  | digits (count : Nat)

abbrev Reader (α : Type) := List Char → Except Stop (α × List Char)

def isBlank (c : Char) : Bool := c == ' ' || c == '\t' || c == '\n' || c == '\r'

def skipBlank (cs : List Char) : List Char := cs.dropWhile isBlank

def escapedChar? : Char → Option Char
  | '"' => some '"'
  | '\\' => some '\\'
  | '/' => some '/'
  | 'b' => some '\x08'
  | 'f' => some '\x0c'
  | 'n' => some '\n'
  | 'r' => some '\r'
  | 't' => some '\t'
  | _ => none

def isHighSurrogate (n : Nat) : Bool := 0xd800 ≤ n && n ≤ 0xdbff

def isLowSurrogate (n : Nat) : Bool := 0xdc00 ≤ n && n ≤ 0xdfff

/-- The character of a code point.  Half of a surrogate pair is no character and takes
the replacement character. -/
def charOfCode (n : Nat) : Char :=
  if isHighSurrogate n || isLowSurrogate n then '\ufffd' else Char.ofNat n

def joinSurrogates (high low : Nat) : Nat :=
  0x10000 + (high - 0xd800) * 0x400 + (low - 0xdc00)

/-- The digits of an escape by number at the front of the text, which must not be the
end of it, and the text behind them. -/
def secondEscape? : List Char → Option (List Char × List Char)
  | '\\' :: 'u' :: e :: f :: g :: h :: last :: rest => some ([e, f, g, h], last :: rest)
  | _ => none

theorem length_of_secondEscape? {cs digits rest : List Char}
    (h : secondEscape? cs = some (digits, rest)) : rest.length < cs.length := by
  unfold secondEscape? at h
  split at h
  · cases h
    simp only [List.length_cons]
    omega
  · cases h

/-- The characters of a string up to its closing quote; `start` is the length of the
text from the opening quote on.  An escape by number needs its four digits and a
character after them, and two of them may form a pair. -/
def readString (start : Nat) : Reader (List Char)
  | [] => .error (.malformed .unterminatedString start)
  | '"' :: rest => .ok ([], rest)
  | ['\\'] => .error (.malformed .unterminatedString start)
  | '\\' :: 'u' :: a :: b :: c :: d :: next :: tail =>
    match Text.hexNumber? [a, b, c, d] with
    | none => .error (.malformed .invalidUnicodeEscape (tail.length + 6))
    | some high =>
      match h : (secondEscape? (next :: tail)).filter fun _ => isHighSurrogate high with
      | some (digits, more) =>
        have := length_of_secondEscape? (Option.filter_eq_some_iff.mp h).1
        match Text.hexNumber? digits with
        | none => .error (.malformed .invalidUnicodeEscape (more.length + 5))
        | some low =>
          if isLowSurrogate low then do
            let (cs, left) ← readString start more
            return (charOfCode (joinSurrogates high low) :: cs, left)
          else do
            let (cs, left) ← readString start (next :: tail)
            return (charOfCode high :: cs, left)
      | none => do
        let (cs, left) ← readString start (next :: tail)
        return (charOfCode high :: cs, left)
  | '\\' :: 'u' :: rest => .error (.malformed .invalidUnicodeEscape (rest.length + 1))
  | '\\' :: c :: rest =>
    match escapedChar? c with
    | none => .error (.malformed .invalidEscape (rest.length + 2))
    | some d => do
      let (cs, left) ← readString start rest
      return (d :: cs, left)
  | c :: rest =>
    if c.toNat ≤ 0x1f then .error (.malformed .controlCharacter (rest.length + 1))
    else do
      let (cs, left) ← readString start rest
      return (c :: cs, left)
termination_by cs => cs.length
decreasing_by all_goals (simp only [List.length_cons] at *; omega)

/-- The part of a number behind its whole digits: places and an exponent, each read
only if it is complete. -/
def splitFraction (cs : List Char) : List Char × List Char :=
  match cs with
  | '.' :: d :: rest =>
    if Number.isDigit d then
      ('.' :: d :: rest.takeWhile Number.isDigit, rest.dropWhile Number.isDigit)
    else ([], cs)
  | _ => ([], cs)

def splitExponent (cs : List Char) : List Char × List Char :=
  match cs with
  | e :: rest =>
    if e = 'e' ∨ e = 'E' then
      let (sign, digits) := match rest with
        | '+' :: r => (['+'], r)
        | '-' :: r => (['-'], r)
        | r => ([], r)
      if (digits.takeWhile Number.isDigit).isEmpty then ([], cs)
      else (e :: (sign ++ digits.takeWhile Number.isDigit), digits.dropWhile Number.isDigit)
    else ([], cs)
  | [] => ([], [])

/-- The whole digits of a number: a single zero, or digits of which the first is not
zero. -/
def splitWhole (cs : List Char) : Option (List Char × List Char) :=
  match cs with
  | '0' :: rest => some (['0'], rest)
  | d :: _ =>
    if Number.isDigit d then some (cs.takeWhile Number.isDigit, cs.dropWhile Number.isDigit)
    else none
  | [] => none

def readNumber : Reader Datum := fun cs =>
  let (negative, body) := match cs with
    | '-' :: rest => (true, rest)
    | rest => (false, rest)
  match splitWhole body with
  | none => .error (.malformed .expectingValue cs.length)
  | some (whole, rest) =>
    let (fraction, rest) := splitFraction rest
    let (exponent, rest) := splitExponent rest
    if fraction.isEmpty && exponent.isEmpty then
      if Number.maxDigits < whole.length then .error (.digits whole.length)
      else .ok (.int (Binary64.signed negative (Number.digitsValue whole)), rest)
    else
      match Number.readDecimal? negative (whole ++ fraction ++ exponent) with
      | some x => .ok (.float x, rest)
      | none => .error (.malformed .expectingValue cs.length)

/-- Words that stand for a value. -/
def words : List (List Char × Datum) :=
  [("null".toList, .null), ("true".toList, .bool true), ("false".toList, .bool false),
   ("NaN".toList, .float .nan), ("Infinity".toList, .float (.infinite false)),
   ("-Infinity".toList, .float (.infinite true))]

def readWord? (cs : List Char) : Option (Datum × List Char) :=
  words.findSome? fun (word, value) =>
    if word.isPrefixOf cs then some (value, cs.drop word.length) else none

mutual
/-- One value.  Each nested reading takes one unit of `fuel`, and of two that follow each
other at least one takes a character, so twice the length of the text is enough. -/
def readValue : Nat → Reader Datum
  | 0, cs => .error (.malformed .expectingValue cs.length)
  | fuel + 1, cs =>
    match cs with
    | '"' :: rest => do
      let (s, left) ← readString cs.length rest
      return (.text (String.ofList s), left)
    | '\x7b' :: rest =>
      match skipBlank rest with
      | '\x7d' :: left => .ok (.mapping [], left)
      | left => do
        let (pairs, left) ← readMembers fuel left
        return (.ofPairs pairs, left)
    | '[' :: rest =>
      match skipBlank rest with
      | ']' :: left => .ok (.list [], left)
      | left => do
        let (items, left) ← readItems fuel left
        return (.list items, left)
    | _ =>
      match readWord? cs with
      | some found => .ok found
      | none => readNumber cs

/-- The members of an object up to its closing brace. -/
def readMembers : Nat → Reader (List (Datum × Datum))
  | 0, cs => .error (.malformed .expectingName cs.length)
  | fuel + 1, cs =>
    match cs with
    | '"' :: rest => do
      let (name, left) ← readString cs.length rest
      match skipBlank left with
      | ':' :: left => do
        let (value, left) ← readValue fuel (skipBlank left)
        let member := (Datum.text (String.ofList name), value)
        match skipBlank left with
        | '\x7d' :: left => return ([member], left)
        | ',' :: left => do
          let (members, left) ← readMembers fuel (skipBlank left)
          return (member :: members, left)
        | left => throw (.malformed .expectingComma left.length)
      | left => throw (.malformed .expectingColon left.length)
    | _ => throw (.malformed .expectingName cs.length)

/-- The items of an array up to its closing bracket. -/
def readItems : Nat → Reader (List Datum)
  | 0, cs => .error (.malformed .expectingValue cs.length)
  | fuel + 1, cs => do
    let (item, left) ← readValue fuel cs
    match skipBlank left with
    | ']' :: left => return ([item], left)
    | ',' :: left => do
      let (items, left) ← readItems fuel (skipBlank left)
      return (item :: items, left)
    | left => throw (.malformed .expectingComma left.length)
end

def readDocument (text : List Char) : Except Stop Datum := do
  if text.head? = some '\ufeff' then throw (.malformed .byteOrderMark text.length)
  let (value, left) ← readValue (2 * text.length + 2) (skipBlank text)
  match skipBlank left with
  | [] => return value
  | left => throw (.malformed .extraData left.length)

/-- The value that a JSON text denotes. -/
def parse (text : String) : Except Failure Datum :=
  (readDocument text.toList).mapError fun
    | .malformed cause left =>
      .malformed (.atOffset cause text.toList (text.toList.length - left))
    | .digits count => .digits count

end Json
end Groundplan
