import Groundplan.Text.Digit
import Groundplan.Text.Printable

/-!
Quoted text in messages.  The result occupies one line whatever the text holds:
line breaks, controls and everything else that cannot be shown are written as
escapes.
-/

namespace Groundplan
namespace Text
namespace Quoted

/-- An escape with the shortest of the three widths that holds the code point. -/
def codePoint (c : Char) : List Char :=
  if c.toNat ≤ 0xff then '\\' :: 'x' :: hexDigits 2 c.toNat
  else if c.toNat ≤ 0xffff then '\\' :: 'u' :: hexDigits 4 c.toNat
  else '\\' :: 'U' :: hexDigits 8 c.toNat

/-- One character between the given quotes. -/
def escapeChar (mark : Char) (c : Char) : List Char :=
  if c = mark ∨ c = '\\' then ['\\', c]
  else if c = '\n' then ['\\', 'n']
  else if c = '\r' then ['\\', 'r']
  else if c = '\t' then ['\\', 't']
  else if isPrintable c then [c]
  else codePoint c

/-- Single quotes, unless the text has some and has no double quote. -/
def mark (s : List Char) : Char :=
  if s.contains '\'' && !s.contains '"' then '"' else '\''

def encode (s : List Char) : List Char :=
  mark s :: (s.flatMap (escapeChar (mark s)) ++ [mark s])

end Quoted

/-- The text in quotes, as messages show it. -/
def quoted (s : String) : String :=
  String.ofList (Quoted.encode s.toList)

end Text
end Groundplan
