import Groundplan.Text.Digit
import Groundplan.Yaml.Cursor

/-!
Quoted scalars.  In single quotes only the quote itself is written specially; in double
quotes a backslash starts an escape.  Line breaks fold as in plain scalars.
-/

namespace Groundplan
namespace Yaml
namespace Quoted

/-- What a single character after a backslash denotes. -/
def escapedChar? : Char → Option Char
  | '0' => some '\x00'
  | 'a' => some '\x07'
  | 'b' => some '\x08'
  | 't' => some '\t'
  | '\t' => some '\t'
  | 'n' => some '\n'
  | 'v' => some '\x0b'
  | 'f' => some '\x0c'
  | 'r' => some '\r'
  | 'e' => some '\x1b'
  | ' ' => some ' '
  | '"' => some '"'
  | '\\' => some '\\'
  | '/' => some '/'
  | 'N' => some '\x85'
  | '_' => some '\xa0'
  | 'L' => some '\u2028'
  | 'P' => some '\u2029'
  | _ => none

/-- The number of hexadecimal digits that an escape letter takes. -/
def escapeWidth? : Char → Option Nat
  | 'x' => some 2
  | 'u' => some 4
  | 'U' => some 8
  | _ => none

/-- The character of a code point; half of a surrogate pair takes the replacement
character. -/
def charOfCode (n : Nat) : Except Fault Char :=
  if 0x10ffff < n then .error (.codePoint n)
  else if 0xd800 ≤ n ∧ n ≤ 0xdfff then .ok '\ufffd'
  else .ok (Char.ofNat n)

/-- The breaks at the start of further lines, with the white space around them dropped. -/
def breaks : Nat → Cursor → Except Fault (List Char × Cursor)
  | 0, c => .ok ([], c)
  | fuel + 1, c => do
    c.ensure (!c.isDocumentSeparator) .documentSeparator
    let c := c.skip fun ch => ch == ' ' || ch == '\t'
    if c.peek.any isBreak then
      let (br, c) := c.lineBreak
      let (more, c) ← breaks fuel c
      return (br ++ more, c)
    else return ([], c)

/-- White space inside a quoted scalar. -/
def gap (c : Cursor) : Except Fault (List Char × Cursor) := do
  let (spaces, c) := c.span fun ch => ch == ' ' || ch == '\t'
  match c.peek with
  | none => c.fail .unterminatedScalar
  | some ch =>
    if isBreak ch then
      let (br, c) := c.lineBreak
      let (more, c) ← breaks (c.rest.length + 1) c
      let folded := if br != ['\n'] then br ++ more else if more.isEmpty then [' '] else more
      return (folded, c)
    else return (spaces, c)

/-- An escape behind its backslash. -/
def escapeSequence (c : Cursor) : Except Fault (List Char × Cursor) :=
  match c.peek with
  | none => c.fail .escape
  | some ch =>
    match escapedChar? ch with
    | some d => .ok ([d], c.next)
    | none =>
      match escapeWidth? ch with
      | some width => do
        let c := c.next
        let digits := c.rest.take width
        match if digits.length = width then Text.hexNumber? digits else none with
        | some n => return ([← charOfCode n], c.advance width)
        | none => c.fail .escape
      | none =>
        if isBreak ch then do
          let c := c.lineBreak.2
          breaks (c.rest.length + 1) c
        else c.fail .escape

/-- The text up to the closing quote, and the cursor behind it. -/
def read (double : Bool) : Nat → Cursor → Except Fault (List Char × Cursor)
  | 0, c => c.fail .unterminatedScalar
  | fuel + 1, c => do
    match c.rest with
    | [] => c.fail .unterminatedScalar
    | ch :: rest =>
      if ch == (if double then '"' else '\'') then
        if !double && rest.head? == some '\'' then
          let (more, c) ← read double fuel (c.advance 2)
          return ('\'' :: more, c)
        else return ([], c.next)
      else if double && ch == '\\' then
        let (piece, c) ← escapeSequence c.next
        let (more, c) ← read double fuel c
        return (piece ++ more, c)
      else if ch == ' ' || ch == '\t' || isBreak ch then
        let (piece, c) ← gap c
        let (more, c) ← read double fuel c
        return (piece ++ more, c)
      else
        let (more, c) ← read double fuel c.next
        return (ch :: more, c)

end Quoted
end Yaml
end Groundplan
