import Groundplan.Yaml.Cursor

/-!
Plain scalars, which have no quotes.  They may run over several lines; line breaks
inside them fold into spaces.
-/

namespace Groundplan
namespace Yaml
namespace Plain

def flowIndicators : List Char := [',', '[', ']', '\x7b', '\x7d']

/-- The number of characters up to the next blank, the end of a key, or in a flow
collection the next indicator. -/
def wordLength (inFlow : Bool) : List Char → Nat
  | [] => 0
  | ch :: rest =>
    if endsToken (some ch) ||
        (ch == ':' &&
          (endsToken rest.head? || (inFlow && rest.head?.any flowIndicators.contains))) ||
        (inFlow && (ch == '?' || flowIndicators.contains ch)) then 0
    else wordLength inFlow rest + 1

/-- The breaks and spaces at the start of further lines.  The second part is absent if a
document separator follows, which ends the scalar. -/
def leadingBreaks : Nat → Cursor → Option (List Char) × Cursor
  | 0, c => (some [], c)
  | fuel + 1, c =>
    match c.peek with
    | some ' ' => leadingBreaks fuel c.next
    | some ch =>
      if isBreak ch then
        let (br, c) := c.lineBreak
        if c.isDocumentSeparator then (none, c)
        else
          let (more, c) := leadingBreaks fuel c
          (more.map (br ++ ·), c)
      else (some [], c)
    | none => (some [], c)

/-- The white space after a word as it counts in the scalar: spaces inside a line are
kept, a single break is a space, and of several breaks the first is dropped.  An
absent first part means that a document separator ended the scalar.  The last part says
whether a line was ended. -/
def gap (c : Cursor) : Option (List Char) × Cursor × Bool :=
  let (spaces, c) := c.span (· == ' ')
  if c.peek.any isBreak then
    let (br, c) := c.lineBreak
    if c.isDocumentSeparator then (none, c, true)
    else
      match leadingBreaks c.rest.length c with
      | (none, c) => (none, c, true)
      | (some breaks, c) =>
        let folded :=
          if br != ['\n'] then br ++ breaks else if breaks.isEmpty then [' '] else breaks
        (some folded, c, true)
  else (some spaces, c, false)

structure Result where
  text : List Char
  cursor : Cursor
  /-- Whether the white space behind the scalar ended a line. -/
  endedLine : Bool

/-- Reads words and the gaps between them.  `before` is the gap in front of the next
word, which counts only if there is one. -/
def read (inFlow : Bool) (indent : Int) : Nat → List Char → Cursor → Bool → Result
  | 0, _, c, ended => ⟨[], c, ended⟩
  | fuel + 1, before, c, ended =>
    let n := wordLength inFlow c.rest
    if c.peek == some '#' || n == 0 then ⟨[], c, ended⟩
    else
      let word := c.rest.take n
      let (spaces, c, brk) := gap (c.advance n)
      match spaces with
      | none => ⟨before ++ word, c, true⟩
      | some spaces =>
        if spaces.isEmpty || c.peek == some '#' || (!inFlow && (c.column : Int) < indent) then
          ⟨before ++ word, c, brk⟩
        else
          let r := read inFlow indent fuel spaces c brk
          { r with text := before ++ word ++ r.text }

end Plain
end Yaml
end Groundplan
