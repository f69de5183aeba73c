import Groundplan.Command.Markup
import Groundplan.Rollout.Basic
import Groundplan.Text.Blank

/-!
Answers to questions, read from lines of input.
-/

namespace Groundplan
namespace Command

open Rollout

/-- What a line decides; an empty one declines. -/
def decision? (line : String) : Option Bool :=
  let word := Text.strip (String.ofList (line.toList.map Markup.lowerAscii))
  if word = "y" ∨ word = "yes" then some true
  else if word = "n" ∨ word = "no" ∨ word = "" then some false
  else none

/-- Reads lines up to the first that decides. -/
def readReply : List String → Reply × List String
  | [] => ({ decision := none }, [])
  | line :: rest =>
    match decision? line with
    | some b => ({ typed := [line], decision := some b }, rest)
    | none =>
      let (reply, rest) := readReply rest
      ({ reply with typed := line :: reply.typed }, rest)

/-- The lines of an input. -/
def inputLines (s : String) : List String :=
  (Text.splitKeepingNewlines (Text.unifyNewlines s.toList)).map fun cs =>
    String.ofList (cs.filter (· ≠ '\n'))

end Command
end Groundplan
