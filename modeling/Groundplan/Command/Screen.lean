import Groundplan.Command.Markup
import Groundplan.Rollout.Basic
import Groundplan.Text.Blank

/-!
What a command shows.  Lines, the rows of an overview and the headings of shown files are
kept apart, because their layout depends on the console.
-/

namespace Groundplan
namespace Command

inductive Shown
  /-- Text with the line ends that belong to it. -/
  | text (s : String)
  /-- A row of the overview of workloads. -/
  | row (cells : List String)
  /-- The heading of a shown file. -/
  | heading (title : String)
  /-- Details of a failure for whoever looks for its cause. -/
  | details (s : String)
  deriving DecidableEq, Inhabited

namespace Shown

/-! ## Console text -/

/-- Bell, backspace, vertical tab, form feed and carriage return would move the cursor. -/
def movesCursor (c : Char) : Bool :=
  let n := c.toNat
  n == 7 || n == 8 || n == 11 || n == 12 || n == 13

/-- Fills a tab with spaces up to the next column that is a multiple of eight. -/
def expandTabs (column : Nat) : List Char → List Char
  | [] => []
  | c :: rest =>
    if c = '\t' then
      let width := 8 - column % 8
      List.replicate width ' ' ++ expandTabs (column + width) rest
    else if c = '\n' then c :: expandTabs 0 rest
    else c :: expandTabs (column + 1) rest

def plain (s : String) : String :=
  String.ofList (expandTabs 0 (s.toList.filter fun c => !movesCursor c))

def line (s : String) : Shown := .text (plain s ++ "\n")

/-- A line that starts with a word of the program; what follows comes from elsewhere. -/
def labelled (label s : String) : Shown := line (label ++ Markup.shown s)

/-! ## Log records -/

def padEnd (width : Nat) (s : String) : String :=
  s ++ String.ofList (List.replicate (width - s.length) ' ')

def levelWidth : Nat := 8

/-- A record with its level in a column of its own. -/
def record (r : LogRecord) : Shown :=
  let lines := (Text.splitOn '\n' (plain r.message).toList).map String.ofList
  let margin := String.ofList (List.replicate (levelWidth + 1) ' ')
  .text (padEnd (levelWidth + 1) r.level.name ++ ("\n" ++ margin).intercalate lines ++ "\n")

def isImportant : Level → Bool
  | .warning => true
  | .error => true
  | _ => false

/-- The records that are shown: all of them, or those that need attention. -/
def records (verbose : Bool) (rs : List LogRecord) : List Shown :=
  (rs.filter fun r => verbose || isImportant r.level).map record

/-! ## Rollouts -/

def prompt (question : String) : String := question ++ " [y/N]: "

/-- A question with the lines that were given as answers.  Every line but the one that
decides is refused, and the question is put again. -/
def dialogue (question : String) (decided : Bool) : List String → String
  | [] => if decided then "" else prompt question
  | [last] =>
    prompt question ++ last ++ "\n" ++
      if decided then "" else "Error: invalid input\n" ++ prompt question
  | l :: rest =>
    prompt question ++ l ++ "\nError: invalid input\n" ++ dialogue question decided rest

def notice (message : String) : Rollout.Notice → Shown
  | .section => .text ("\n" ++ plain s!"=== {message} ===" ++ "\n")
  | .info => labelled "" message
  | .success => labelled "" message
  | .warning => labelled "Warning: " message
  | .error => labelled "Error: " message

/-- What is shown of an effect, apart from records. -/
def effect {T : Type} : Rollout.Effect T → List Shown
  | .echo line => [.text line]
  | .notice kind message => [notice message kind]
  | .ask question reply => [.text (dialogue question reply.decision.isSome reply.typed)]
  | _ => []

def effectRecord? {T : Type} : Rollout.Effect T → Option LogRecord
  | .record r => some r
  | _ => none

end Shown
end Command
end Groundplan
