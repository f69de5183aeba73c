import Groundplan.Text.Identifier

/-!
Quoted literals of the configuration language.  A literal is escaped so that its body
holds no quote, no line break and no open interpolation; `decode` reads such a body
back.
-/

namespace Groundplan
namespace Hcl
namespace Literal

/-- The characters that have an escape of their own. -/
def escapeChar (c : Char) : List Char :=
  if c = '\\' then ['\\', '\\']
  else if c = '"' then ['\\', '"']
  else if c = '\n' then ['\\', 'n']
  else if c = '\r' then ['\\', 'r']
  else if c = '\t' then ['\\', 't']
  else [c]

/-- The body of a literal whose interpolations stay live. -/
def escapeKeepingMarkers (s : List Char) : List Char :=
  s.flatMap escapeChar

/-- The body of a literal that denotes exactly `s`: the marker that opens an
interpolation or a directive is doubled. -/
def escape : List Char → List Char
  | [] => []
  | '$' :: '\x7b' :: rest => '$' :: '$' :: '\x7b' :: escape rest
  | '%' :: '\x7b' :: rest => '%' :: '%' :: '\x7b' :: escape rest
  | c :: rest => escapeChar c ++ escape rest

/-- What a backslash and the character after it denote. -/
def unescapeChar? : Char → Option Char
  | '\\' => some '\\'
  | '"' => some '"'
  | 'n' => some '\n'
  | 'r' => some '\r'
  | 't' => some '\t'
  | _ => none

/-- Reads the body of a literal from the left.  A bare quote, a raw line break or tab,
an interpolation that is not doubled and any other backslash are refused. -/
def decode : List Char → Option (List Char)
  | [] => some []
  | '\\' :: c :: rest =>
    match unescapeChar? c with
    | some d => (decode rest).map (d :: ·)
    | none => none
  | '$' :: '$' :: '\x7b' :: rest => (decode rest).map ('$' :: '\x7b' :: ·)
  | '%' :: '%' :: '\x7b' :: rest => (decode rest).map ('%' :: '\x7b' :: ·)
  | '$' :: '\x7b' :: _ => none
  | '%' :: '\x7b' :: _ => none
  | c :: rest =>
    if c = '"' ∨ c = '\\' ∨ c = '\n' ∨ c = '\r' ∨ c = '\t' then none
    else (decode rest).map (c :: ·)

end Literal

/-- A text as a quoted literal. -/
def quote (s : String) : String :=
  "\"" ++ String.ofList (Literal.escape s.toList) ++ "\""

/-- A text as a quoted literal in which interpolations stay live. -/
def quoteTemplate (s : String) : String :=
  "\"" ++ String.ofList (Literal.escapeKeepingMarkers s.toList) ++ "\""

/-- Words that cannot stand bare as an object key. -/
def reservedKeys : List String :=
  ["true", "false", "null", "for", "in", "if", "endfor", "endif"]

/-- An object key: bare where the language allows it, otherwise a quoted literal. -/
def key (k : String) : String :=
  if Text.isIdentifier k && !reservedKeys.contains k then k else quote k

end Hcl
end Groundplan
