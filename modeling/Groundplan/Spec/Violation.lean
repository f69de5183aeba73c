import Groundplan.Datum.Display

/-!
What a document violates.  Decoding does not stop at the first violation: all of them
are collected, each with the path of keys and indices that leads to it.
-/

namespace Groundplan

/-- What is wrong with one value. -/
inductive Complaint
  | text
  | textBytes
  | integer
  | integerText
  | integerFraction
  | integerSize
  | finite
  | number
  | numberText
  | truth
  | truthText
  | dictionary
  | model (name : String)
  | list
  | keyText
  | choice (allowed : List String)
  | refused (reason : String)
  /-- An integer has too many digits to be written as a text.  This ends the decoding. -/
  | unwritable
  deriving DecidableEq

namespace Complaint

/-- The allowed words, the last one after an "or". -/
def choiceText (allowed : List String) : String :=
  match (allowed.map Text.quoted).reverse with
  | [] => ""
  | [only] => only
  | last :: others => ", ".intercalate others.reverse ++ " or " ++ last

def message : Complaint → String
  | .text => "Input should be a valid string"
  | .textBytes => "Input should be a valid string, unable to parse raw data as a unicode string"
  | .integer => "Input should be a valid integer"
  | .integerText => "Input should be a valid integer, unable to parse string as an integer"
  | .integerFraction => "Input should be a valid integer, got a number with a fractional part"
  | .integerSize => "Unable to parse input string as an integer, exceeded maximum size"
  | .finite => "Input should be a finite number"
  | .number => "Input should be a valid number"
  | .numberText => "Input should be a valid number, unable to parse string as a number"
  | .truth => "Input should be a valid boolean"
  | .truthText => "Input should be a valid boolean, unable to interpret input"
  | .dictionary => "Input should be a valid dictionary"
  | .model name => "Input should be a valid dictionary or instance of " ++ name
  | .list => "Input should be a valid list"
  | .keyText => "Keys should be strings"
  | .choice allowed => "Input should be " ++ choiceText allowed
  | .refused reason => "Value error, " ++ reason
  | .unwritable => Number.unwritableMessage

end Complaint

structure Violation where
  location : List String
  complaint : Complaint
  deriving DecidableEq

namespace Violation

def message (v : Violation) : String :=
  let place := ".".intercalate v.location
  if place.isEmpty then v.complaint.message else place ++ ": " ++ v.complaint.message

def messages (vs : List Violation) : String := "; ".intercalate (vs.map message)

/-- How a key appears in a location: a text as it is, truth values as numbers, and what
cannot be shown by its type. -/
def keyPlace : Datum → String
  | .text s => s
  | .bool b => if b then "1" else "0"
  | k => if k.isWritable then k.quotedText else "<unprintable " ++ k.typeName ++ " object>"

end Violation

/-- A decoded value, or everything that stands against it. -/
inductive Checked (α : Type) where
  | ok (value : α)
  | bad (violations : List Violation)

namespace Checked

def violations {α : Type} : Checked α → List Violation
  | .ok _ => []
  | .bad vs => vs

instance : Functor Checked where
  map f
    | .ok a => .ok (f a)
    | .bad vs => .bad vs

/-- Independent parts are all checked; their violations stand in order. -/
instance : Applicative Checked where
  pure := .ok
  seq f x :=
    match f, x () with
    | .ok f, .ok a => .ok (f a)
    | f, x => .bad (f.violations ++ x.violations)

def refuse {α : Type} (c : Complaint) : Checked α := .bad [⟨[], c⟩]

/-- Puts a key or index in front of every location. -/
def within {α : Type} (place : String) : Checked α → Checked α
  | .ok a => .ok a
  | .bad vs => .bad (vs.map fun v => { v with location := place :: v.location })

/-- A further check of a value that is right so far. -/
def andThen {α β : Type} (x : Checked α) (f : α → Checked β) : Checked β :=
  match x with
  | .ok a => f a
  | .bad vs => .bad vs

end Checked
end Groundplan
