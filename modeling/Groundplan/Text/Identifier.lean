/-!
Names that other tools accept without quotes.  Each kind of name has a class of first
characters and a class of further ones.
-/

namespace Groundplan
namespace Text

def isLetter (c : Char) : Bool := ('a' ≤ c && c ≤ 'z') || ('A' ≤ c && c ≤ 'Z')

def isAsciiDigit (c : Char) : Bool := '0' ≤ c && c ≤ '9'

/-- Whether the characters belong to the class; one newline at the very end is
tolerated. -/
def allThenNewline (p : Char → Bool) : List Char → Bool
  | [] => true
  | ['\n'] => true
  | c :: rest => p c && allThenNewline p rest

/-- A name: one character of the first class, then any number of the second. -/
def isName (first further : Char → Bool) : List Char → Bool
  | [] => false
  | c :: rest => first c && allThenNewline further rest

/-- Names of variables and of object keys. -/
def isIdentifier (s : String) : Bool :=
  isName (fun c => isLetter c || c == '_') (fun c => isLetter c || isAsciiDigit c || c == '_')
    s.toList

/-- Names of workloads and of workload types, which may hold hyphens. -/
def isWorkloadName (s : String) : Bool :=
  isName (fun c => isLetter c || c == '_')
    (fun c => isLetter c || isAsciiDigit c || c == '_' || c == '-') s.toList

def isLowerLetter (c : Char) : Bool := 'a' ≤ c && c ≤ 'z'

/-- Names of infrastructure providers. -/
def isProviderName (s : String) : Bool :=
  isName isLowerLetter (fun c => isLowerLetter c || isAsciiDigit c || c == '-') s.toList

end Text
end Groundplan
