import Groundplan.Number.Reading

/-!
Types of scalars.  A plain scalar takes its type from its text: each type has a pattern,
and a text that fits none is a string.
-/

namespace Groundplan
namespace Yaml
namespace Tag

/-- A tag of the standard types. -/
def standard (name : String) : String := "tag:yaml.org,2002:" ++ name

def null : String := standard "null"
def bool : String := standard "bool"
def int : String := standard "int"
def float : String := standard "float"
def binary : String := standard "binary"
def timestamp : String := standard "timestamp"
def omap : String := standard "omap"
def pairs : String := standard "pairs"
def set : String := standard "set"
def str : String := standard "str"
def seq : String := standard "seq"
def map : String := standard "map"
def merge : String := standard "merge"
def value : String := standard "value"
def indicator : String := standard "yaml"

/-- The words for null; an empty scalar is null too. -/
def nullWords : List String := ["~", "null", "Null", "NULL", ""]

def truthWords : List String :=
  ["yes", "Yes", "YES", "no", "No", "NO", "true", "True", "TRUE", "false", "False", "FALSE",
    "on", "On", "ON", "off", "Off", "OFF"]

def specialFloats : List String :=
  [".inf", ".Inf", ".INF", "-.inf", "-.Inf", "-.INF", "+.inf", "+.Inf", "+.INF",
    ".nan", ".NaN", ".NAN"]

def isDigit (c : Char) : Bool := '0' ≤ c && c ≤ '9'
def isDigitOrGap (c : Char) : Bool := isDigit c || c == '_'

/-- Whether there are characters and all belong to the class. -/
def some1 (p : Char → Bool) (cs : List Char) : Bool := !cs.isEmpty && cs.all p

/-- A digit, then digits and underscores. -/
def startsWithDigit (cs : List Char) : Bool :=
  match cs with
  | c :: rest => isDigit c && rest.all isDigitOrGap
  | [] => false

/-- Colons, each followed by one number below sixty. -/
def sixties : List Char → Bool
  | [] => true
  | ':' :: rest => digitsBelowSixty rest
  | _ => false
where
  digitsBelowSixty : List Char → Bool
    | a :: ':' :: rest => isDigit a && sixties (':' :: rest)
    | [a] => isDigit a
    | a :: b :: rest => ('0' ≤ a && a ≤ '5') && isDigit b && sixties rest
    | [] => false

def isSexagesimal (whole tail : List Char) : Bool :=
  startsWithDigit whole && !tail.isEmpty && sixties tail

/-- Integers: binary, octal, decimal, hexadecimal, or in base sixty. -/
def isInt (s : List Char) : Bool :=
  let cs := (Number.readSign s).2
  match cs with
  | '0' :: rest =>
    rest.isEmpty ||
      (match rest with
       | 'b' :: ds => some1 (fun c => c == '0' || c == '1' || c == '_') ds
       | 'x' :: ds => some1 (fun c => (Text.hexValue? c).isSome || c == '_') ds
       | ds => some1 (fun c => ('0' ≤ c && c ≤ '7') || c == '_') ds)
  | _ =>
    startsWithDigit cs ||
      isSexagesimal (cs.takeWhile isDigitOrGap) (cs.dropWhile isDigitOrGap)

/-- An exponent, whose sign is required. -/
def isExponent : List Char → Bool
  | [] => true
  | e :: sign :: ds => (e == 'e' || e == 'E') && (sign == '-' || sign == '+') && some1 isDigit ds
  | _ => false

/-- Floats: a decimal with a point, a number in base sixty with a point, or a word for a
value without digits. -/
def isFloat (s : List Char) : Bool :=
  let cs := (Number.readSign s).2
  let whole := cs.takeWhile isDigitOrGap
  let rest := cs.dropWhile isDigitOrGap
  specialFloats.contains (String.ofList s) ||
    (match rest with
     | '.' :: places =>
       (startsWithDigit whole && isExponent (places.dropWhile isDigitOrGap)) ||
         (whole.isEmpty && s.head? == some '.' && startsWithDigit (places.takeWhile isDigitOrGap) &&
           isExponent (places.dropWhile isDigitOrGap))
     | ':' :: _ =>
       let sixty := rest.takeWhile (· ≠ '.')
       let places := rest.dropWhile (· ≠ '.')
       isSexagesimal whole sixty && places.head? == some '.' && places.tail.all isDigitOrGap
     | _ => false)

/-- Splits off between `low` and `high` digits, as many as there are. -/
def splitDigits? (low high : Nat) (cs : List Char) : Option (List Char × List Char) :=
  let ds := (cs.take high).takeWhile isDigit
  if low ≤ ds.length then some (ds, cs.drop ds.length) else none

/-- Splits off a given character. -/
def splitChar? (ch : Char) : List Char → Option (List Char)
  | c :: rest => if c = ch then some rest else none
  | [] => none

/-- The digits of a written time. -/
structure TimeOfDay where
  hour : List Char
  minute : List Char
  second : List Char
  fraction : List Char
  /-- Sign, hours and minutes of the offset; universal time has none. -/
  zone : Option (Option (Char × List Char × List Char))

/-- The digits of a written date, and of the time if there is one. -/
structure TimestampText where
  year : List Char
  month : List Char
  day : List Char
  time : Option TimeOfDay

/-- A zone at the end of a time: nothing, the letter for universal time, or an offset. -/
def zone? (cs : List Char) : Option (Option (Option (Char × List Char × List Char))) :=
  if cs.isEmpty then some none
  else
    match cs.dropWhile fun c => c == ' ' || c == '\t' with
    | ['Z'] => some (some none)
    | sign :: rest =>
      if sign = '-' ∨ sign = '+' then do
        let (hours, rest) ← splitDigits? 1 2 rest
        if rest.isEmpty then return some (some (sign, hours, []))
        let rest ← splitChar? ':' rest
        let (minutes, rest) ← splitDigits? 2 2 rest
        if rest.isEmpty then return some (some (sign, hours, minutes)) else none
      else none
    | [] => none

def timeOfDay? (cs : List Char) : Option TimeOfDay := do
  let (hour, rest) ← splitDigits? 1 2 cs
  let rest ← splitChar? ':' rest
  let (minute, rest) ← splitDigits? 2 2 rest
  let rest ← splitChar? ':' rest
  let (second, rest) ← splitDigits? 2 2 rest
  let (fraction, rest) := match rest with
    | '.' :: r => (r.takeWhile isDigit, r.dropWhile isDigit)
    | r => ([], r)
  let zone ← zone? rest
  return ⟨hour, minute, second, fraction, zone⟩

/-- The separator between date and time: a letter, or blanks. -/
def afterSeparator? : List Char → Option (List Char)
  | 'T' :: rest => some rest
  | 't' :: rest => some rest
  | c :: rest =>
    if c = ' ' ∨ c = '\t' then some (rest.dropWhile fun c => c == ' ' || c == '\t') else none
  | [] => none

/-- Reads a date with or without a time. -/
def timestampText? (cs : List Char) : Option TimestampText := do
  let (year, rest) ← splitDigits? 4 4 cs
  let rest ← splitChar? '-' rest
  let (month, rest) ← splitDigits? 1 2 rest
  let rest ← splitChar? '-' rest
  let (day, rest) ← splitDigits? 1 2 rest
  if rest.isEmpty then return ⟨year, month, day, none⟩
  let rest ← afterSeparator? rest
  return ⟨year, month, day, some (← timeOfDay? rest)⟩

/-- Plain dates without a time must have two digits for month and day. -/
def isTimestamp (cs : List Char) : Bool :=
  match timestampText? cs with
  | some t => t.time.isSome || (t.month.length == 2 && t.day.length == 2)
  | none => false

/-- One newline at the end does not take part in the patterns. -/
def withoutFinalNewline (cs : List Char) : List Char :=
  if 1 < cs.length && cs.getLast? == some '\n' then cs.dropLast else cs

/-- The tag of a plain scalar with the given text. -/
def ofPlain (text : String) : String :=
  let cs := withoutFinalNewline text.toList
  let s := String.ofList cs
  if truthWords.contains s then bool
  else if isFloat cs then float
  else if isInt cs then int
  else if s = "<<" then merge
  else if nullWords.contains s then null
  else if isTimestamp cs then timestamp
  else if s = "=" then value
  else if s = "!" || s = "&" || s = "*" then indicator
  else str

end Tag
end Yaml
end Groundplan
