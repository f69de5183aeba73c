import Groundplan.Text.Digit

/-!
Writing JSON.  Only ASCII characters are written, so the text survives every terminal.
-/

namespace Groundplan
namespace Json

/-- A result of the command line: texts, lists and objects whose members keep their
order. -/
inductive Tree
  | text (s : String)
  | list (items : List Tree)
  | object (members : List (String × Tree))
  deriving Inhabited

/-- One escape for a code unit of sixteen bits. -/
def unitEscape (n : Nat) : List Char := '\\' :: 'u' :: Text.hexDigits 4 n

/-- A character inside quotes.  One beyond sixteen bits is written as two units. -/
def writeChar (c : Char) : List Char :=
  let n := c.toNat
  if c = '"' ∨ c = '\\' then ['\\', c]
  else if c = '\n' then ['\\', 'n']
  else if c = '\r' then ['\\', 'r']
  else if c = '\t' then ['\\', 't']
  else if n = 8 then ['\\', 'b']
  else if n = 12 then ['\\', 'f']
  else if 32 ≤ n ∧ n < 127 then [c]
  else if n < 0x10000 then unitEscape n
  else unitEscape (0xd800 + (n - 0x10000) / 0x400) ++ unitEscape (0xdc00 + (n - 0x10000) % 0x400)

def writeText (s : String) : String :=
  "\"" ++ String.ofList (s.toList.flatMap writeChar) ++ "\""

def indent (level : Nat) : String := String.ofList (List.replicate (2 * level) ' ')

/-- Lines between brackets, one item on each. -/
def enclose (opening closing : String) (level : Nat) (items : List String) : String :=
  if items.isEmpty then opening ++ closing
  else
    opening ++ "\n" ++ ",\n".intercalate (items.map (indent (level + 1) ++ ·)) ++ "\n" ++
      indent level ++ closing

namespace Tree

mutual
/-- A tree on several lines, indented by two spaces a level. -/
def write (level : Nat) : Tree → String
  | .text s => writeText s
  | .list items => enclose "[" "]" level (writeAll (level + 1) items)
  | .object members => enclose "\x7b" "\x7d" level (writeMembers (level + 1) members)

def writeAll (level : Nat) : List Tree → List String
  | [] => []
  | t :: rest => write level t :: writeAll level rest

def writeMembers (level : Nat) : List (String × Tree) → List String
  | [] => []
  | (name, t) :: rest => (writeText name ++ ": " ++ write level t) :: writeMembers level rest
end

def toText (t : Tree) : String := write 0 t

end Tree

/-- An object with one text, on one line. -/
def oneMember (name value : String) : String :=
  "\x7b" ++ writeText name ++ ": " ++ writeText value ++ "\x7d"

end Json
end Groundplan
