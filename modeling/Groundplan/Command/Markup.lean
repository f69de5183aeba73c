import Groundplan.Text.Lines

/-!
Text for a console that reads markup.  Tags in brackets style what they enclose.  Text of
other origin is protected before it is shown, and what is shown of it is described here;
where it is not protected, a closing tag without its partner is a fault.
-/

namespace Groundplan
namespace Command
namespace Markup

/-- Whether a character may start a tag. -/
def startsTag (c : Char) : Bool :=
  ('a' ≤ c && c ≤ 'z') || c == '#' || c == '/' || c == '@'

/-- The inside of a tag whose opening bracket has just been read, and what follows it. -/
def readTag? : List Char → Option (List Char × List Char)
  | [] => none
  | c :: rest =>
    let inside := rest.takeWhile fun c => c ≠ ']' && c ≠ '['
    match rest.dropWhile fun c => c ≠ ']' && c ≠ '[' with
    | ']' :: after => if startsTag c then some (c :: inside, after) else none
    | _ => none

/-- What is left of backslashes and brackets that are no tags: a backslash in front of a
bracket is taken for its protection. -/
def dropProtection : List Char → List Char
  | [] => []
  | ['\\'] => ['\\']
  | '\\' :: '[' :: rest =>
    if (readTag? rest).isSome then '\\' :: dropProtection ('[' :: rest) else dropProtection ('[' :: rest)
  | c :: rest => c :: dropProtection rest

/-- Protection doubles a single backslash at the very end, where it would protect what
comes next. -/
def doubleLast (s : List Char) : List Char :=
  match s.reverse with
  | ['\\'] => s ++ ['\\']
  | '\\' :: c :: _ => if c = '\\' then s else s ++ ['\\']
  | _ => s

/-- What the console shows of a protected text. -/
def shown (s : String) : String := String.ofList (doubleLast (dropProtection s.toList))

/-! ## Text that is not protected -/

/-- A tag with the number of characters in front of it. -/
structure Tag where
  position : Nat
  inside : List Char

/-- The tags of a text.  An odd number of backslashes in front of a bracket makes it no
tag.  `position` counts the characters that have been read and `backslashes` the ones
among them that are right in front. -/
def tags (position backslashes : Nat) : List Char → List Tag
  | [] => []
  | c :: rest =>
    if c = '\\' then tags (position + 1) (backslashes + 1) rest
    else if c = '[' ∧ backslashes % 2 = 0 then
      match readTag? rest with
      | some (inside, _) => ⟨position, inside⟩ :: tags (position + 1) 0 rest
      | none => tags (position + 1) 0 rest
    else tags (position + 1) 0 rest

def lowerAscii (c : Char) : Char := if 'A' ≤ c ∧ c ≤ 'Z' then Char.ofNat (c.toNat + 32) else c

/-- The name of a style as it is compared. -/
def styleName (cs : List Char) : List Char :=
  let isSpace := fun c => c == ' ' || ('\t' ≤ c && c ≤ '\r')
  (((cs.dropWhile isSpace).reverse.dropWhile isSpace).reverse).map lowerAscii

inductive Fault
  | nothingToClose (position : Nat)
  | noPartner (inside : List Char) (position : Nat)
  deriving DecidableEq

def Fault.message : Fault → String
  | .nothingToClose position =>
    s!"closing tag '[/]' at position {position} has nothing to close"
  | .noPartner inside position =>
    "closing tag '[" ++ String.ofList inside ++ s!"]' at position {position} doesn't match any open tag"

/-- The first closing tag without a partner.  `opened` holds the styles that are open, the
last one first. -/
def firstFault? (opened : List (List Char)) : List Tag → Option Fault
  | [] => none
  | t :: rest =>
    match t.inside with
    | '/' :: inside =>
      let name := styleName inside
      if name.isEmpty then
        match opened with
        | [] => some (.nothingToClose t.position)
        | _ :: opened => firstFault? opened rest
      else if opened.contains name then firstFault? (opened.erase name) rest
      else some (.noPartner t.inside t.position)
    | inside => firstFault? (styleName (inside.takeWhile (· ≠ '=')) :: opened) rest

def fault? (s : String) : Option Fault := firstFault? [] (tags 0 0 s.toList)

end Markup
end Command
end Groundplan
