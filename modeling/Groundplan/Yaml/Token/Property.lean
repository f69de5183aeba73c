import Groundplan.Text.Digit
import Groundplan.Yaml.Cursor
import Groundplan.Yaml.Token

/-!
Directives, tags, anchors and aliases: the tokens that say something about a node or
about the whole document.
-/

namespace Groundplan
namespace Yaml

/-- Bytes as text, if they are valid UTF-8. -/
def utf8Text? (bytes : List UInt8) : Option String :=
  String.fromUTF8? ⟨bytes.toArray⟩

namespace Property

/-- The name behind the indicator of an anchor or alias. -/
def anchorName (c : Cursor) : Except Fault (String × Cursor) := do
  let (name, c) := c.next.span isNameChar
  c.ensure (!name.isEmpty) .anchor
  let follows := c.peek.all fun ch =>
    endsToken (some ch) || ['?', ':', ',', ']', '\x7d', '%', '@', '`'].contains ch
  c.ensure follows .anchor
  return (String.ofList name, c)

def isUriChar (c : Char) : Bool :=
  isNameChar c || ";/?:@&=+$,.!~*'()[]".toList.contains c

/-- The bytes of consecutive percent escapes. -/
def escapedBytes (c : Cursor) : Nat → List Char → Except Fault (List UInt8 × List Char)
  | fuel + 1, '%' :: a :: b :: rest =>
    match Text.hexNumber? [a, b] with
    | some n => do
      let (bytes, left) ← escapedBytes c fuel rest
      return (UInt8.ofNat n :: bytes, left)
    | none => c.fail .tag
  | _, '%' :: _ => c.fail .tag
  | _, rest => .ok ([], rest)

/-- The text of an address in a tag, with its percent escapes decoded. -/
def uri : Nat → Cursor → Except Fault (List Char × Cursor)
  | 0, c => .ok ([], c)
  | fuel + 1, c => do
    let (run, c) := c.span isUriChar
    if c.peek == some '%' then
      let (bytes, left) ← escapedBytes c c.rest.length c.rest
      match utf8Text? bytes with
      | none => c.fail .tag
      | some decoded =>
        let (more, c) ← uri fuel (c.advance (c.rest.length - left.length))
        return (run ++ decoded.toList ++ more, c)
    else return (run, c)

/-- An address in a tag, which is not empty. -/
def tagUri (c : Cursor) : Except Fault (String × Cursor) := do
  let (text, d) ← uri (c.rest.length + 1) c
  c.ensure (d.index != c.index) .tag
  return (String.ofList text, d)

/-- A tag handle: an exclamation mark, alone or with a name and a second one. -/
def tagHandle (c : Cursor) : Except Fault (String × Cursor) := do
  c.ensure (c.peek == some '!') .tag
  if c.peekAt 1 == some ' ' then return ("!", c.next)
  let (name, d) := c.next.span isNameChar
  d.ensure (d.peek == some '!') .tag
  return ("!" ++ String.ofList name ++ "!", d.next)

/-- Whether an exclamation mark stands in front of the next space or line end. -/
def hasHandle (c : Cursor) : Bool :=
  (c.next.rest.takeWhile fun ch => !(ch == ' ' || isBreak ch)).contains '!'

/-- A tag: verbatim between angle brackets, the mark alone, or a handle and a suffix. -/
def tag (c : Cursor) : Except Fault (Token × Cursor) := do
  let (token, d) ←
    if c.peekAt 1 == some '<' then do
      let (suffix, d) ← tagUri (c.advance 2)
      d.ensure (d.peek == some '>') .tag
      pure (Token.tag none suffix, d.next)
    else if endsToken (c.peekAt 1) then pure (Token.tag none "!", c.next)
    else if hasHandle c then do
      let (handle, d) ← tagHandle c
      let (suffix, d) ← tagUri d
      pure (Token.tag (some handle) suffix, d)
    else do
      let (suffix, d) ← tagUri c.next
      pure (Token.tag (some "!") suffix, d)
  d.ensure (endsWord d.peek) .tag
  return (token, d)

def number (c : Cursor) : Except Fault (Nat × Cursor) := do
  let (digits, d) := c.span fun ch => '0' ≤ ch && ch ≤ '9'
  c.ensure (!digits.isEmpty) .directive
  if Number.maxDigits < digits.length then throw (.digits digits.length)
  return (digits.foldl (fun n ch => 10 * n + (ch.toNat - 48)) 0, d)

def versionDirective (c : Cursor) : Except Fault (Directive × Cursor) := do
  let (major, c) ← number c.skipSpaces
  c.ensure (c.peek == some '.') .directive
  let (minor, c) ← number c.next
  c.ensure (endsWord c.peek) .directive
  return (.version major minor, c)

def tagDirective (c : Cursor) : Except Fault (Directive × Cursor) := do
  let (handle, c) ← tagHandle c.skipSpaces
  c.ensure (c.peek == some ' ') .directive
  let (stem, c) ← tagUri c.skipSpaces
  c.ensure (endsWord c.peek) .directive
  return (.tagHandle handle stem, c)

/-- A directive and the rest of its line. -/
def directive (c : Cursor) : Except Fault (Token × Cursor) := do
  let (name, c) := c.next.span isNameChar
  c.ensure (!name.isEmpty) .directive
  c.ensure (endsWord c.peek) .directive
  let (d, c) ←
    if name = "YAML".toList then versionDirective c
    else if name = "TAG".toList then tagDirective c
    else pure (Directive.other, c.skip (!isBreak ·))
  return (.directive d, ← c.finishLine .directive)

end Property
end Yaml
end Groundplan
