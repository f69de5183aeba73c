import Groundplan.Text.Digit

/-!
Halves of surrogate pairs.  An escape in a document can name half of a pair by itself.
That is no character, and a text has the replacement character in its place; what remains
of the half is that such a text cannot be encoded.
-/

namespace Groundplan
namespace Text

/-- Half of a surrogate pair: its place in a text, and its code point. -/
structure Half where
  place : Nat
  code : Nat
  deriving DecidableEq, Inhabited

/-- The halves on which encoding a text ends: one, and those that follow it at once. -/
structure Unencodable where
  first : Half
  following : Nat
  deriving DecidableEq, Inhabited

/-- How many of the halves stand at the places right behind one. -/
def following (place : Nat) : List Half → Nat
  | [] => 0
  | h :: rest => if h.place = place + 1 then following h.place rest + 1 else 0

/-- Why a text with these halves, in order, cannot be encoded. -/
def unencodable? : List Half → Option Unencodable
  | [] => none
  | h :: rest => some ⟨h, following h.place rest⟩

def Unencodable.message (u : Unencodable) : String :=
  let place := match u.following with
    | 0 => "character '\\u" ++ String.ofList (hexDigits 4 u.first.code) ++
        s!"' in position {u.first.place}"
    | n => s!"characters in position {u.first.place}-{u.first.place + n}"
  s!"'utf-8' codec can't encode {place}: surrogates not allowed"

end Text
end Groundplan
