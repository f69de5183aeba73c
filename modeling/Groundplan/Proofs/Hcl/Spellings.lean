/-
The texts of a document in the order in which they are written.

Texts, keys and labels become quoted literals.  A literal opens what its text opens, so a
document whose texts all close what they open has a text in which nothing stays open, and
where something does it matters which texts come first.
-/
import Groundplan.Hcl.Render
import Groundplan.Proofs.Hcl.Marks

namespace Groundplan
namespace Hcl

/-- A text with the form in which it is written. -/
inductive Spelling
  | literal (text : String)
  | template (text : String)
  | key (text : String)
  /-- In quotes as messages have them. -/
  | quoted (text : String)
  deriving DecidableEq

namespace Spelling

def text : Spelling → String
  | .literal s | .template s | .key s | .quoted s => s

def written : Spelling → List Char
  | .literal s => (quote s).toList
  | .template s => (quoteTemplate s).toList
  | .key s => (Hcl.key s).toList
  | .quoted s => (Text.quoted s).toList

theorem sealed_written : ∀ {p : Spelling}, Closes p.text → Sealed p.written
  | .literal _, h => sealed_quote h
  | .template _, h => sealed_quoteTemplate h
  | .key _, h => sealed_key h
  | .quoted _, h => sealed_quoted h

end Spelling

/-! ## Spellings of a document -/

mutual
/-- The texts of a value, those of keys among them. -/
def Value.spellings : Value → List Spelling
  | .text s => [.literal s]
  | .template s => [.template s]
  | .call _ args => Value.spellingsList args
  | .list items => Value.spellingsList items
  | .object entries => Value.spellingsEntries entries
  | _ => []

def Value.spellingsList : List Value → List Spelling
  | [] => []
  | v :: vs => v.spellings ++ Value.spellingsList vs

def Value.spellingsEntries : List (String × Value) → List Spelling
  | [] => []
  | (k, v) :: rest => .key k :: (v.spellings ++ Value.spellingsEntries rest)
end

mutual
/-- The texts of an item.  A comment is no literal and has none. -/
def Item.spellings : Item → List Spelling
  | .attribute _ value => value.spellings
  | .block _ labels body => labels.map .literal ++ Item.spellingsList body
  | .comment _ => []
  | .blank => []

def Item.spellingsList : List Item → List Spelling
  | [] => []
  | item :: rest => item.spellings ++ Item.spellingsList rest
end

mutual
/-- Whether all comments of an item have a property. -/
def Item.allRemarks (p : String → Bool) : Item → Bool
  | .block _ _ body => Item.allRemarksList p body
  | .comment text => p text
  | _ => true

def Item.allRemarksList (p : String → Bool) : List Item → Bool
  | [] => true
  | item :: rest => item.allRemarks p && Item.allRemarksList p rest
end

theorem mem_spellingsList {p : Spelling} {items : List Item} :
    p ∈ Item.spellingsList items ↔ ∃ item ∈ items, p ∈ item.spellings := by
  induction items with
  | nil => simp [Item.spellingsList]
  | cons item items ih =>
    rw [Item.spellingsList, List.mem_append, ih]
    simp

theorem mem_spellingsEntries {k : String} {v : Value} {entries : List (String × Value)}
    (h : (k, v) ∈ entries) {p : Spelling} (hp : p ∈ v.spellings) :
    p ∈ Value.spellingsEntries entries := by
  induction entries with
  | nil => cases h
  | cons e entries ih =>
    refine List.mem_cons_of_mem _ (List.mem_append.mpr ?_)
    rcases List.mem_cons.mp h with h | h
    · cases h
      exact .inl hp
    · exact .inr (ih h)

theorem allRemarksList_iff {p : String → Bool} {items : List Item} :
    Item.allRemarksList p items = true ↔ ∀ item ∈ items, item.allRemarks p = true := by
  induction items with
  | nil => simp [Item.allRemarksList]
  | cons item items ih =>
    rw [Item.allRemarksList, Bool.and_eq_true, ih, List.forall_mem_cons]

end Hcl
end Groundplan
