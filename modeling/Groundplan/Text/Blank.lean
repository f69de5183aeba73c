/-!
Blank characters.  Two sets occur and differ only in the four information
separators: general text counts them as blank, the reader of typed fields does
not.
-/

namespace Groundplan
namespace Text

/-- White space by the Unicode property of that name. -/
def isWhiteSpace (c : Char) : Bool :=
  let n := c.toNat
  (9 ≤ n && n ≤ 13) || n == 0x20 || n == 0x85 || n == 0xa0 || n == 0x1680 ||
    (0x2000 ≤ n && n ≤ 0x200a) || n == 0x2028 || n == 0x2029 || n == 0x202f ||
    n == 0x205f || n == 0x3000

/-- White space and the information separators. -/
def isBlank (c : Char) : Bool :=
  isWhiteSpace c || (0x1c ≤ c.toNat && c.toNat ≤ 0x1f)

/-- Removes the characters of a class from the end. -/
def trimEndBy (p : Char → Bool) : List Char → List Char
  | [] => []
  | c :: rest => match trimEndBy p rest with
    | [] => if p c then [] else [c]
    | d :: ds => c :: d :: ds

/-- Removes the characters of a class from both ends. -/
def trimBy (p : Char → Bool) (s : List Char) : List Char :=
  trimEndBy p (s.dropWhile p)

/-- Removes blank characters from both ends. -/
def strip (s : String) : String :=
  String.ofList (trimBy isBlank s.toList)

/-- Removes blank characters from the end. -/
def stripEnd (s : String) : String :=
  String.ofList (trimEndBy isBlank s.toList)

end Text
end Groundplan
