import Groundplan.Yaml.Fault

/-!
Places in a YAML text.  A cursor is the text that is left together with the line and
column of its first character, which the layout rules need.
-/

namespace Groundplan
namespace Yaml

/-- The characters that may stand in a YAML text. -/
def isAllowed (c : Char) : Bool :=
  let n := c.toNat
  n == 9 || n == 10 || n == 13 || (0x20 ≤ n && n ≤ 0x7e) || n == 0x85 ||
    (0xa0 ≤ n && n ≤ 0xd7ff) || (0xe000 ≤ n && n ≤ 0xfffd) || 0x10000 ≤ n

def isBreak (c : Char) : Bool :=
  c == '\n' || c == '\r' || c == '\x85' || c == '\u2028' || c == '\u2029'

/-- Whether a line ends here; the end of the text ends a line. -/
def endsLine (c : Option Char) : Bool := c.all isBreak

/-- Whether a line ends here or a space follows. -/
def endsWord (c : Option Char) : Bool := c.all fun c => c == ' ' || isBreak c

/-- Whether a line ends here or a space or tab follows. -/
def endsToken (c : Option Char) : Bool := c.all fun c => c == ' ' || c == '\t' || isBreak c

/-- The characters of anchors and of the names of directives. -/
def isNameChar (c : Char) : Bool :=
  ('0' ≤ c && c ≤ '9') || ('A' ≤ c && c ≤ 'Z') || ('a' ≤ c && c ≤ 'z') || c == '-' || c == '_'

structure Cursor where
  rest : List Char
  index : Nat := 0
  line : Nat := 0
  column : Nat := 0
  deriving Inhabited

namespace Cursor

def peek (c : Cursor) : Option Char := c.rest.head?

def peekAt (c : Cursor) (n : Nat) : Option Char := c.rest[n]?

/-- Past the first character.  A carriage return ends the line unless a newline
follows, and a byte order mark has no width. -/
def next (c : Cursor) : Cursor :=
  match c.rest with
  | [] => c
  | ch :: rest =>
    if isBreak ch && !(ch == '\r' && rest.head? == some '\n') then
      { rest, index := c.index + 1, line := c.line + 1, column := 0 }
    else
      { rest, index := c.index + 1, line := c.line
        column := if ch == '\ufeff' then c.column else c.column + 1 }

def advance : Nat → Cursor → Cursor
  | 0, c => c
  | n + 1, c => advance n c.next

/-- The longest run of characters of a class, and the cursor behind it. -/
def span (p : Char → Bool) (c : Cursor) : List Char × Cursor :=
  let run := c.rest.takeWhile p
  (run, c.advance run.length)

def skip (p : Char → Bool) (c : Cursor) : Cursor := (c.span p).2

def skipSpaces (c : Cursor) : Cursor := c.skip (· == ' ')

/-- The longest run of characters of a class, up to the given number. -/
def skipUpTo (p : Char → Bool) (n : Nat) (c : Cursor) : Cursor :=
  c.advance (min n (c.rest.takeWhile p).length)

/-- Reads a line break if one is there.  All breaks read as a newline, except the two
separators, which are kept. -/
def lineBreak (c : Cursor) : List Char × Cursor :=
  match c.rest with
  | '\r' :: '\n' :: _ => (['\n'], c.advance 2)
  | ch :: _ =>
    if ch == '\u2028' || ch == '\u2029' then ([ch], c.next)
    else if isBreak ch then (['\n'], c.next)
    else ([], c)
  | [] => ([], c)

/-- Whether three hyphens or three dots stand here as a word. -/
def isDocumentMark (mark : Char) (c : Cursor) : Bool :=
  match c.rest with
  | a :: b :: d :: rest => a == mark && b == mark && d == mark && endsToken rest.head?
  | _ => false

def isDocumentSeparator (c : Cursor) : Bool :=
  c.isDocumentMark '-' || c.isDocumentMark '.'

/-- A problem at this place; lines and columns are shown counted from one. -/
def fail {α : Type} (c : Cursor) (problem : Problem) : Except Fault α :=
  .error (.malformed problem (c.line + 1) (c.column + 1))

def ensure (c : Cursor) (ok : Bool) (problem : Problem) : Except Fault Unit :=
  if ok then .ok () else c.fail problem

/-- Past spaces and a comment to the next line; anything else is a problem. -/
def finishLine (c : Cursor) (problem : Problem) : Except Fault Cursor := do
  let c := c.skipSpaces
  let c := if c.peek == some '#' then c.skip (!isBreak ·) else c
  c.ensure (endsLine c.peek) problem
  return c.lineBreak.2

end Cursor
end Yaml
end Groundplan
