import Groundplan.Yaml.Scalar.Block
import Groundplan.Yaml.Scalar.Plain
import Groundplan.Yaml.Scalar.Quoted
import Groundplan.Yaml.Token.Property

/-!
Cutting a YAML text into tokens.  Outside flow collections the column of a token decides
which blocks are open.  A key is known as one only when its colon is met, so a place
where a key may have started is remembered and the tokens that open it are put in
afterwards.
-/

namespace Groundplan
namespace Yaml

/-- A place where a key without indicator may have started. -/
structure KeyCandidate where
  /-- The number of tokens in front of it. -/
  position : Nat
  /-- It starts a line at the indentation of its block, so it must be a key. -/
  required : Bool
  start : Cursor
  deriving Inhabited

structure Lexer where
  cursor : Cursor
  tokens : Array Token := #[]
  flowDepth : Nat := 0
  indent : Int := -1
  /-- The indentations of the enclosing blocks, the innermost first. -/
  outer : List Int := []
  /-- Whether a key may start here. -/
  keyAllowed : Bool := true
  /-- At most one candidate for each depth of flow collections. -/
  candidates : List (Nat × KeyCandidate) := []

namespace Lexer

/-- A key without indicator is on one line and has at most this many characters. -/
def maxKeyLength : Nat := 1024

def push (l : Lexer) (t : Token) : Lexer := { l with tokens := l.tokens.push t }

/-- Puts a token in front of the token with the given number. -/
def insertAt (l : Lexer) (position : Nat) (t : Token) : Lexer :=
  { l with tokens := l.tokens.insertIdxIfInBounds position t }

def candidate? (l : Lexer) : Option KeyCandidate := l.candidates.lookup l.flowDepth

def withoutCandidate (l : Lexer) : Lexer :=
  { l with candidates := l.candidates.filter (·.1 != l.flowDepth) }

/-- Forgets the candidate of this depth, which must not have been required. -/
def dropCandidate (l : Lexer) : Except Fault Lexer :=
  match l.candidate? with
  | none => .ok l
  | some k => if k.required then k.start.fail .missingColon else .ok l.withoutCandidate

/-- Whether a candidate can no longer become a key. -/
def isStale (l : Lexer) (k : KeyCandidate) : Bool :=
  k.start.line != l.cursor.line || maxKeyLength < l.cursor.index - k.start.index

def dropStaleCandidates (l : Lexer) : Except Fault Lexer :=
  match l.candidates.find? fun (_, k) => l.isStale k && k.required with
  | some (_, k) => k.start.fail .missingColon
  | none => .ok { l with candidates := l.candidates.filter fun (_, k) => !l.isStale k }

/-- Remembers that a key may start here. -/
def saveCandidate (l : Lexer) : Except Fault Lexer :=
  if l.keyAllowed then do
    let required := l.flowDepth == 0 && l.indent == (l.cursor.column : Int)
    let l ← l.dropCandidate
    return { l with candidates := (l.flowDepth, ⟨l.tokens.size, required, l.cursor⟩) :: l.candidates }
  else .ok l

/-- Closes the blocks that are indented more than the column. -/
def unwindFrom (column : Int) : Lexer → List Int → Lexer
  | l, [] => { l with outer := [] }
  | l, i :: rest =>
    if column < l.indent then unwindFrom column { l.push .blockEnd with indent := i } rest
    else { l with outer := i :: rest }

def unwind (l : Lexer) (column : Int) : Lexer :=
  if l.flowDepth == 0 then unwindFrom column l l.outer else l

/-- Opens a block at a column if it is indented more than the current one. -/
def openBlock (l : Lexer) (column : Nat) (position : Nat) (t : Token) : Lexer :=
  if l.indent < (column : Int) then
    { l.insertAt position t with indent := column, outer := l.indent :: l.outer }
  else l

def openBlockHere (l : Lexer) (t : Token) : Lexer :=
  l.openBlock l.cursor.column l.tokens.size t

def allowKey (l : Lexer) (allowed : Bool) : Lexer := { l with keyAllowed := allowed }

/-- Takes `n` characters as a token. -/
def take (l : Lexer) (n : Nat) (t : Token) : Lexer :=
  { l.push t with cursor := l.cursor.advance n }

def ensure (l : Lexer) (ok : Bool) (problem : Problem) : Except Fault Unit :=
  l.cursor.ensure ok problem

/-- Past spaces, comments and line breaks.  Outside flow collections a key may start on
each line. -/
def skipToToken : Nat → Lexer → Lexer
  | 0, l => l
  | fuel + 1, l =>
    let c := l.cursor.skipSpaces
    let c := if c.peek == some '#' then c.skip (!isBreak ·) else c
    if c.peek.any isBreak then
      skipToToken fuel
        { l with cursor := c.lineBreak.2, keyAllowed := l.keyAllowed || l.flowDepth == 0 }
    else { l with cursor := c }

def documentMark (l : Lexer) (t : Token) : Except Fault Lexer := do
  let l ← (l.unwind (-1)).dropCandidate
  return (l.allowKey false).take 3 t

def flowStart (l : Lexer) (t : Token) : Except Fault Lexer := do
  let l ← l.saveCandidate
  return { (l.allowKey true).take 1 t with flowDepth := l.flowDepth + 1 }

def flowEnd (l : Lexer) (t : Token) : Except Fault Lexer := do
  let l ← l.dropCandidate
  l.ensure (l.flowDepth != 0) .missingContent
  return { (l.allowKey false).take 1 t with flowDepth := l.flowDepth - 1 }

def flowEntry (l : Lexer) : Except Fault Lexer := do
  let l ← (l.allowKey true).dropCandidate
  return l.take 1 .flowEntry

def blockEntry (l : Lexer) : Except Fault Lexer := do
  let l ← if l.flowDepth == 0 then do
      l.ensure l.keyAllowed .misplacedEntry
      pure (l.openBlockHere .blockSequenceStart)
    else pure l
  let l ← (l.allowKey true).dropCandidate
  return l.take 1 .blockEntry

def explicitKey (l : Lexer) : Except Fault Lexer := do
  let l ← if l.flowDepth == 0 then do
      l.ensure l.keyAllowed .misplacedKey
      pure (l.openBlockHere .blockMappingStart)
    else pure l
  let l ← (l.allowKey (l.flowDepth == 0)).dropCandidate
  return l.take 1 .key

/-- A colon makes the candidate of its depth a key; without one it belongs to a key with
indicator, or to an empty key. -/
def valueMark (l : Lexer) : Except Fault Lexer :=
  match l.candidate? with
  | some k =>
    let l := l.withoutCandidate.insertAt k.position .key
    let l := if l.flowDepth == 0 then l.openBlock k.start.column k.position .blockMappingStart else l
    .ok ((l.allowKey false).take 1 .value)
  | none => do
    let l ← if l.flowDepth == 0 then do
        l.ensure l.keyAllowed .misplacedValue
        pure (l.openBlockHere .blockMappingStart)
      else pure l
    let l ← (l.allowKey (l.flowDepth == 0)).dropCandidate
    return l.take 1 .value

/-- A token that a key may start with and after which no key can start. -/
def keyStart (l : Lexer) (read : Cursor → Except Fault (Token × Cursor)) : Except Fault Lexer := do
  let l ← l.saveCandidate
  let (t, c) ← read l.cursor
  return { (l.allowKey false).push t with cursor := c }

def anchorToken (make : String → Token) (c : Cursor) : Except Fault (Token × Cursor) := do
  let (name, c) ← Property.anchorName c
  return (make name, c)

def quotedToken (double : Bool) (c : Cursor) : Except Fault (Token × Cursor) := do
  let (text, c) ← Quoted.read double (c.rest.length + 1) c.next
  return (.scalar ⟨String.ofList text, false⟩, c)

def blockScalar (l : Lexer) (folded : Bool) : Except Fault Lexer := do
  let l ← (l.allowKey true).dropCandidate
  let (text, c) ← Block.read folded l.indent l.cursor.next
  return { l.push (.scalar ⟨String.ofList text, false⟩) with cursor := c }

def plainScalar (l : Lexer) : Except Fault Lexer := do
  let l ← l.saveCandidate
  let r := Plain.read (l.flowDepth != 0) (l.indent + 1) l.cursor.rest.length [] l.cursor false
  return { (l.allowKey r.endedLine).push (.scalar ⟨String.ofList r.text, true⟩) with
    cursor := r.cursor }

def directive (l : Lexer) : Except Fault Lexer := do
  let l ← (l.unwind (-1)).dropCandidate
  let (t, c) ← Property.directive l.cursor
  return { (l.allowKey false).push t with cursor := c }

def indicators : List Char :=
  ['-', '?', ':', ',', '[', ']', '\x7b', '\x7d', '#', '&', '*', '!', '|', '>', '\'', '"', '%', '@',
    '`']

/-- Whether a plain scalar can start here: at no indicator, except at a hyphen or outside
flow collections at a question mark or colon that no blank follows. -/
def startsPlain (l : Lexer) (ch : Char) : Bool :=
  (!endsToken (some ch) && !indicators.contains ch) ||
    (!endsToken (l.cursor.peekAt 1) &&
      (ch == '-' || (l.flowDepth == 0 && (ch == '?' || ch == ':'))))

/-- Reads the token that starts with `ch`. -/
def token (l : Lexer) (ch : Char) : Except Fault Lexer :=
  let c := l.cursor
  let blankFollows := endsToken (c.peekAt 1)
  if ch = '%' ∧ c.column = 0 then l.directive
  else if c.column = 0 ∧ c.isDocumentMark '-' then l.documentMark .documentStart
  else if c.column = 0 ∧ c.isDocumentMark '.' then l.documentMark .documentEnd
  else if ch = '[' then l.flowStart .flowSequenceStart
  else if ch = '\x7b' then l.flowStart .flowMappingStart
  else if ch = ']' then l.flowEnd .flowSequenceEnd
  else if ch = '\x7d' then l.flowEnd .flowMappingEnd
  else if ch = ',' then l.flowEntry
  else if ch = '-' ∧ blankFollows then l.blockEntry
  else if ch = '?' ∧ (l.flowDepth != 0 || blankFollows) then l.explicitKey
  else if ch = ':' ∧ (l.flowDepth != 0 || blankFollows) then l.valueMark
  else if ch = '*' then l.keyStart (anchorToken .alias)
  else if ch = '&' then l.keyStart (anchorToken .anchor)
  else if ch = '!' then l.keyStart Property.tag
  else if ch = '|' ∧ l.flowDepth = 0 then l.blockScalar false
  else if ch = '>' ∧ l.flowDepth = 0 then l.blockScalar true
  else if ch = '\'' then l.keyStart (quotedToken false)
  else if ch = '"' then l.keyStart (quotedToken true)
  else if l.startsPlain ch then l.plainScalar
  else c.fail .unexpectedCharacter

def finish (l : Lexer) : Except Fault Lexer := (l.unwind (-1)).dropCandidate

/-- Reads tokens to the end of the text.  Each takes at least one character, so the
length of the text is enough fuel. -/
def run : Nat → Lexer → Except Fault Lexer
  | 0, l => l.finish
  | fuel + 1, l => do
    let l ← (skipToToken (l.cursor.rest.length + 1) l).dropStaleCandidates
    let l := l.unwind l.cursor.column
    match l.cursor.peek with
    | none => l.finish
    | some ch => run fuel (← l.token ch)

end Lexer

/-- The tokens of a text.  A byte order mark at its start is skipped. -/
def tokens (text : List Char) : Except Fault (List Token) :=
  match text.findIdx? (!isAllowed ·) with
  | some i => Cursor.fail (Cursor.advance i { rest := text }) .forbiddenCharacter
  | none => do
    let start : Cursor := { rest := text }
    let start := if text.head? = some '\ufeff' then start.next else start
    let l ← Lexer.run (text.length + 1) { cursor := start }
    return l.tokens.toList

end Yaml
end Groundplan
