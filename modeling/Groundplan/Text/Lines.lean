/-!
Line structure of a text.  Two rules occur: every line boundary that text knows
splits a comment into lines, and a file read as text has its line ends unified
to a single newline.
-/

namespace Groundplan
namespace Text

/-- A line ends at any control character or separator that Unicode gives that
role, and not only at a newline. -/
def isLineBoundary (c : Char) : Bool :=
  ['\n', '\r', '\x0b', '\x0c', '\x1c', '\x1d', '\x1e', '\x85', '\u2028', '\u2029'].contains c

/-- The lines of a text without their boundaries.  A carriage return and the
newline after it are one boundary, and a boundary at the very end opens no
further line. -/
def splitLines : List Char → List (List Char)
  | [] => []
  | '\r' :: '\n' :: rest => [] :: splitLines rest
  | c :: rest =>
    if isLineBoundary c then [] :: splitLines rest
    else match splitLines rest with
      | [] => [[c]]
      | line :: lines => (c :: line) :: lines

/-- The lines of `s`. -/
def lines (s : String) : List String :=
  (splitLines s.toList).map String.ofList

/-- Reading a file as text turns each of the three line ends into a newline. -/
def unifyNewlines : List Char → List Char
  | [] => []
  | '\r' :: '\n' :: rest => '\n' :: unifyNewlines rest
  | '\r' :: rest => '\n' :: unifyNewlines rest
  | c :: rest => c :: unifyNewlines rest

/-- The pieces of a text, each with the newline that ends it. -/
def splitKeepingNewlines : List Char → List (List Char)
  | [] => []
  | '\n' :: rest => ['\n'] :: splitKeepingNewlines rest
  | c :: rest => match splitKeepingNewlines rest with
    | [] => [[c]]
    | line :: lines => (c :: line) :: lines

/-- The pieces between the occurrences of a separator; a text without one is a
single piece. -/
def splitOn (separator : Char) : List Char → List (List Char)
  | [] => [[]]
  | c :: rest =>
    if c = separator then [] :: splitOn separator rest
    else match splitOn separator rest with
      | [] => [[c]]
      | piece :: pieces => (c :: piece) :: pieces

end Text
end Groundplan
