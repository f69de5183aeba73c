import Groundplan.Yaml.Cursor

/-!
Block scalars, whose lines are told apart from the rest by their indentation.  A literal
one keeps its lines, a folded one joins them; the header says what becomes of the line
breaks at the end.
-/

namespace Groundplan
namespace Yaml
namespace Block

/-- What becomes of the line breaks at the end of a block scalar. -/
inductive Chomping
  | strip
  | clip
  | keep
  deriving DecidableEq

structure Header where
  chomping : Chomping
  increment : Option Nat

def chomping? : Option Char → Option Chomping
  | some '+' => some .keep
  | some '-' => some .strip
  | _ => none

/-- An indentation indicator, which may not be zero. -/
def increment? (c : Cursor) : Except Fault (Option Nat) :=
  match c.peek with
  | some ch =>
    if '0' ≤ ch && ch ≤ '9' then
      if ch = '0' then c.fail .blockScalarHeader else .ok (some (ch.toNat - 48))
    else .ok none
  | none => .ok none

/-- The two indicators of a header in either order. -/
def header (c : Cursor) : Except Fault (Header × Cursor) := do
  match chomping? c.peek with
  | some chomping =>
    let c := c.next
    let increment ← increment? c
    let c := if increment.isSome then c.next else c
    c.ensure (endsWord c.peek) .blockScalarHeader
    return (⟨chomping, increment⟩, c)
  | none =>
    let increment ← increment? c
    let c := if increment.isSome then c.next else c
    let chomping := chomping? (if increment.isSome then c.peek else none)
    let c := if chomping.isSome then c.next else c
    c.ensure (endsWord c.peek) .blockScalarHeader
    return (⟨chomping.getD .clip, increment⟩, c)

/-- The empty lines in front of the first line, and the largest indentation among them
and that line. -/
def detectIndent : Nat → Cursor → List Char × Nat × Cursor
  | 0, c => ([], 0, c)
  | fuel + 1, c =>
    match c.peek with
    | some ' ' =>
      let c := c.next
      let (br, widest, rest) := detectIndent fuel c
      (br, max c.column widest, rest)
    | some ch =>
      if isBreak ch then
        let (br, c) := c.lineBreak
        let (more, widest, c) := detectIndent fuel c
        (br ++ more, widest, c)
      else ([], 0, c)
    | none => ([], 0, c)

/-- The empty lines in front of the next line, and the cursor behind its indentation. -/
def emptyLines (indent : Nat) : Nat → Cursor → List Char × Cursor
  | 0, c => ([], c)
  | fuel + 1, c =>
    let c := c.skipUpTo (· == ' ') (indent - c.column)
    if c.peek.any isBreak then
      let (br, c) := c.lineBreak
      let (more, c) := emptyLines indent fuel c
      (br ++ more, c)
    else ([], c)

def startsBlank (c : Cursor) : Bool := c.peek == some ' ' || c.peek == some '\t'

structure Result where
  text : List Char
  /-- The break of the last line. -/
  lastBreak : List Char
  /-- The empty lines behind the last line. -/
  trailing : List Char
  cursor : Cursor

/-- The lines of the scalar.  In a folded scalar a single break between two lines that
do not start with white space becomes a space, and of several breaks the first is
dropped. -/
def lines (folded : Bool) (indent : Nat) : Nat → List Char → List Char → Cursor → Result
  | 0, br, breaks, c => ⟨[], br, breaks, c⟩
  | fuel + 1, br, breaks, c =>
    if c.column == indent && c.peek.isSome then
      let blank := startsBlank c
      let (line, c) := c.span (!isBreak ·)
      let (br', c) := c.lineBreak
      let (breaks', c) := emptyLines indent (c.rest.length + 1) c
      let joint :=
        if c.column == indent && c.peek.isSome then
          if folded && br' == ['\n'] && !blank && !startsBlank c then
            if breaks'.isEmpty then [' '] else []
          else br'
        else []
      let r := lines folded indent fuel br' breaks' c
      { r with text := breaks ++ line ++ joint ++ r.text }
    else ⟨[], br, breaks, c⟩

/-- A block scalar behind its indicator, inside a block with the given indentation. -/
def read (folded : Bool) (outer : Int) (c : Cursor) : Except Fault (List Char × Cursor) := do
  let (header, c) ← header c
  let c ← c.finishLine .blockScalarHeader
  let least := (max (outer + 1) 1).toNat
  let (indent, breaks, c) := match header.increment with
    | some n =>
      let indent := least + n - 1
      let (breaks, c) := emptyLines indent (c.rest.length + 1) c
      (indent, breaks, c)
    | none =>
      let (breaks, widest, c) := detectIndent (c.rest.length + 1) c
      (max least widest, breaks, c)
  let r := lines folded indent (c.rest.length + 1) [] breaks c
  let tail := match header.chomping with
    | .strip => []
    | .clip => r.lastBreak
    | .keep => r.lastBreak ++ r.trailing
  return (r.text ++ tail, r.cursor)

end Block
end Yaml
end Groundplan
