import Groundplan.Number.Reading
import Groundplan.Spec.Basic
import Groundplan.Spec.Violation
import Groundplan.Text.Utf8

/-!
Reading a document value as a field of a given type.  Values of a neighbouring type are
taken if nothing is lost: numbers as texts, texts that spell a number as that number,
and a few words as truth values.
-/

namespace Groundplan
namespace Coercion

/-- The characters of a text or of bytes that are one; `none` for other values. -/
def textOf : Datum → Option (Option String)
  | .text s => some (some s)
  | .bytes bs => some (Text.Utf8.decode bs).toOption
  | _ => none

def text : Datum → Checked String
  | .text s => .ok s
  | .int n => if Number.isWritable n then .ok (toString n) else .refuse .unwritable
  | .float x => .ok x.toText
  | .bytes bs =>
    match Text.Utf8.decode bs with
    | .ok s => .ok s
    | .error _ => .refuse .textBytes
  | _ => .refuse .text

/-- Drops the zeros in front of an integer.  Underscores among them go too, except that
the last character is kept. -/
def dropLeadingZeros (cs : List Char) : Option (List Char) :=
  match cs with
  | '0' :: rest =>
    match rest.dropWhile fun c => c == '0' || c == '_' with
    | [] => some (cs.drop (cs.length - 1))
    | '.' :: tail =>
      let zeros := cs.take (cs.length - tail.length - 1)
      some (zeros.drop (zeros.length - 1) ++ '.' :: tail)
    | c :: tail => if Number.isDigit c then some (c :: tail) else none
  | c :: _ => if Number.isDigit c then some cs else none
  | [] => none

/-- Drops a point that only zeros follow; there must be at least one. -/
def dropZeroPlaces (cs : List Char) : Option (List Char) :=
  match cs.dropWhile (· ≠ '.') with
  | [] => some cs
  | _ :: places =>
    if !places.isEmpty && places.all (· == '0') then some (cs.takeWhile (· ≠ '.')) else none

def hasDoubleUnderscore : List Char → Bool
  | '_' :: '_' :: _ => true
  | _ :: rest => hasDoubleUnderscore rest
  | [] => false

/-- Drops underscores that stand alone inside a text. -/
def dropInnerUnderscores (cs : List Char) : Option (List Char) :=
  if cs.head? = some '_' || cs.getLast? = some '_' || hasDoubleUnderscore cs then none
  else some (Number.dropUnderscores cs)

/-- The integer that a text spells. -/
def integerOfText (s : String) : Option Int := do
  let cs := Text.trimBy Text.isWhiteSpace s.toList
  let (negative, cs) := Number.readSign cs
  let cs ← dropLeadingZeros cs
  let cs ← dropZeroPlaces cs
  let cs ← dropInnerUnderscores cs
  if !cs.isEmpty && cs.all Number.isDigit then
    return Binary64.signed negative (Number.digitsValue cs)
  else none

/-- Longer texts are not read as integers. -/
def maxIntegerLength : Nat := 4300

def integerFromText (s : String) : Checked Int :=
  if maxIntegerLength < (Text.trimBy Text.isWhiteSpace s.toList).length then .refuse .integerSize
  else match integerOfText s with
    | some n => .ok n
    | none => .refuse .integerText

/-- Integers below this magnitude fit into a word of 64 bits. -/
def wordLimit : Int := 0x8000000000000000

/-- A float counts as an integer if it has no fraction and lies within 64 bits. -/
def integerFromFloat (x : Binary64) : Checked Int :=
  match x with
  | .finite _ _ _ =>
    match x.toInt? with
    | some n => if -wordLimit < n ∧ n < wordLimit then .ok n else .refuse .integerSize
    | none => .refuse .integerFraction
  | _ => .refuse .finite

def integer (d : Datum) : Checked Int :=
  match d with
  | .int n => .ok n
  | .bool b => .ok (if b then 1 else 0)
  | .float x => integerFromFloat x
  | _ =>
    match textOf d with
    | some (some s) => integerFromText s
    | some none => .refuse .integerText
    | none => .refuse .integer

/-- The number that a text spells, with single underscores inside it left out. -/
def realOfText (s : String) : Option Binary64 :=
  let read (cs : List Char) := Number.readFloat? (Text.trimBy Text.isWhiteSpace cs)
  match read s.toList with
  | some x => some x
  | none => (dropInnerUnderscores s.toList).bind read

def realFromText (s : Option String) : Checked Binary64 :=
  match s.bind realOfText with
  | some x => .ok x
  | none => .refuse .numberText

def real (d : Datum) : Checked Binary64 :=
  match d with
  | .int n => .ok (Binary64.ofInt n)
  | .bool b => .ok (Binary64.ofInt (if b then 1 else 0))
  | .float x => .ok x
  | _ =>
    match textOf d with
    | some s => realFromText s
    | none => .refuse .number

/-- Numbers stay what they are.  A text is an integer if it can be, else a real number;
if it is neither, both readings are refused. -/
def quantity (d : Datum) : Checked Quantity :=
  match d with
  | .int n => .ok (.whole n)
  | .float x => .ok (.real x)
  | _ =>
    match integer d with
    | .ok n => .ok (.whole n)
    | .bad whole =>
      match real d with
      | .ok x => .ok (.real x)
      | .bad real =>
        .bad ((Checked.within (α := Unit) "int" (.bad whole)).violations ++
          (Checked.within (α := Unit) "float" (.bad real)).violations)

def trueWords : List String := ["1", "true", "t", "yes", "y", "on"]

def falseWords : List String := ["0", "false", "f", "no", "n", "off"]

def truthFromText (s : String) : Checked Bool :=
  let word := String.ofList (s.toList.map Char.toLower)
  if trueWords.contains word then .ok true
  else if falseWords.contains word then .ok false
  else .refuse .truthText

def truthFromInteger (n : Int) : Checked Bool :=
  if n = 1 then .ok true
  else if n = 0 then .ok false
  else if -wordLimit ≤ n ∧ n < wordLimit then .refuse .truthText
  else .refuse .truth

def truth (d : Datum) : Checked Bool :=
  match d with
  | .bool b => .ok b
  | .int n => truthFromInteger n
  | .float x =>
    match integerFromFloat x with
    | .ok n => truthFromInteger n
    | .bad _ => .refuse .truth
  | _ =>
    match textOf d with
    | some (some s) => truthFromText s
    | some none => .refuse .truthText
    | none => .refuse .truth

/-- Named values of one type; of names that are equal as texts the last value counts. -/
def entriesOf {α : Type} (value : Datum → Checked α) :
    List (Datum × Datum) → Checked (List (String × α))
  | entries =>
    Entries.ofPairs <$> go entries
where
  go : List (Datum × Datum) → Checked (List (String × α))
    | [] => .ok []
    | (k, v) :: rest =>
      let place := Violation.keyPlace k
      (fun name x more => (name, x) :: more)
        <$> ((text k).within "[key]").within place
        <*> (value v).within place
        <*> go rest

def dictionary {α : Type} (value : Datum → Checked α) : Datum → Checked (List (String × α))
  | .mapping entries => entriesOf value entries
  | _ => .refuse .dictionary

/-- Named values of any type. -/
def entries : Datum → Checked Entries := dictionary .ok

def itemsOf {α : Type} (item : Datum → Checked α) (index : Nat) : List Datum → Checked (List α)
  | [] => .ok []
  | x :: xs => List.cons <$> (item x).within (toString index) <*> itemsOf item (index + 1) xs

def list {α : Type} (item : Datum → Checked α) : Datum → Checked (List α)
  | .list xs | .tuple xs | .set xs => itemsOf item 0 xs
  | _ => .refuse .list

/-- One of several words. -/
def choice (allowed : List String) : Datum → Checked String
  | .text s => if allowed.contains s then .ok s else .refuse (.choice allowed)
  | _ => .refuse (.choice allowed)

end Coercion
end Groundplan
