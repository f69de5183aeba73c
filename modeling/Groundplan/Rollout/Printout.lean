import Groundplan.Text.Blank
import Groundplan.Text.Lines

/-!
What is read off the printed output of the provisioning tool.
-/

namespace Groundplan
namespace Rollout

/-- Whether a text has another as a part. -/
def isPart (part : List Char) : List Char → Bool
  | [] => part.isEmpty
  | c :: rest => part.isPrefixOf (c :: rest) || isPart part rest

def contains (s part : String) : Bool := isPart part.toList s.toList

/-- Removes a mark from the front, if it is there. -/
def dropMark? (mark : List Char) (cs : List Char) : Option (List Char) :=
  if mark.isPrefixOf cs then some (cs.drop mark.length) else none

/-! ## Names of resources -/

/-- The value of a name attribute that a text starts with.  Blank characters, also line
ends, may stand around the name and the equals sign. -/
def leadingName? (cs : List Char) : Option (List Char) := do
  let cs ← dropMark? ['n', 'a', 'm', 'e'] (cs.dropWhile Text.isBlank)
  let cs ← dropMark? ['='] (cs.dropWhile Text.isBlank)
  let cs ← dropMark? ['"'] (cs.dropWhile Text.isBlank)
  if cs.contains '"' then some (cs.takeWhile (· ≠ '"')) else none

/-- What stands behind each newline, to the end of the text. -/
def behindNewlines : List Char → List (List Char)
  | [] => []
  | c :: cs => if c = '\n' then cs :: behindNewlines cs else behindNewlines cs

/-- The value of the first name attribute that starts a line. -/
def firstName? (cs : List Char) : Option (List Char) :=
  (cs :: behindNewlines cs).findSome? leadingName?

/-- The name of the resource that a text describes. -/
def resourceName (printout : String) : Option String :=
  (firstName? printout.toList).map String.ofList

/-! ## Comments of a plan -/

/-- What follows the first newline. -/
def nextLine (cs : List Char) : List Char := (cs.dropWhile (· ≠ '\n')).drop 1

theorem length_nextLine_lt {c : Char} {cs : List Char} :
    (nextLine (c :: cs)).length < (c :: cs).length := by
  have := (List.dropWhile_suffix (fun x => decide (x ≠ '\n')) : _ <:+ c :: cs).length_le
  simp only [nextLine, List.length_drop, List.length_cons] at this ⊢
  omega

/-- The comment that a text starts with; blank lines may stand in front of it. -/
def leadingComment? (cs : List Char) : Option (List Char) := do
  let cs ← dropMark? ['#', ' '] (cs.dropWhile Text.isBlank)
  let comment := cs.takeWhile (· ≠ '\n')
  if comment.isEmpty then none else some comment

/-- What follows the first line that is not blank. -/
def afterComment (cs : List Char) : List Char := nextLine (cs.dropWhile Text.isBlank)

/-- The comments that stand on lines of their own. -/
def comments : List Char → List (List Char)
  | [] => []
  | c :: cs =>
    match leadingComment? (c :: cs) with
    | some comment => comment :: comments (afterComment (c :: cs))
    | none => comments (nextLine (c :: cs))
termination_by cs => cs.length
decreasing_by
  · have h₁ := (List.dropWhile_suffix Text.isBlank : _ <:+ c :: cs).length_le
    cases h : (c :: cs).dropWhile Text.isBlank with
    | nil => simp [afterComment, h, nextLine]
    | cons d ds =>
      rw [h] at h₁
      rw [afterComment, h]
      exact Nat.lt_of_lt_of_le length_nextLine_lt h₁
  · exact length_nextLine_lt

/-- The resources that a plan says it will change. -/
def plannedChanges (printout : String) : List String :=
  (comments printout.toList).map String.ofList

/-! ## Hints -/

/-- What to do about a destruction that failed, by the errors that are known. -/
def hints (output : String) : List String :=
  if contains output "ClusterContainsServicesException" then
    ["ECS Cluster deletion failed due to active services. Try these steps:",
      "  1. Manually scale down all services in the ECS cluster to 0 tasks",
      "     aws ecs list-services --cluster <cluster-name>",
      "     aws ecs update-service --cluster <cluster-name> --service <service-name> --desired-count 0",
      "  2. Wait for tasks to terminate",
      "     aws ecs wait services-stable --cluster <cluster-name> --services <service-name>",
      "  3. Delete each service manually",
      "     aws ecs delete-service --cluster <cluster-name> --service <service-name> --force",
      "  4. Run destroy again",
      "     scoreform deploy --destroy"]
  else if contains output "DBInstanceNotFound" then
    ["RDS instance not found. The database may have been deleted outside of Terraform.",
      "  Try: terraform state rm <resource_address>"]
  else
    ["General troubleshooting tips:",
      "  - Check for resources that might be protected from deletion",
      "  - Verify IAM permissions for resource deletion",
      "  - Some resources might need manual cleanup in the AWS Console",
      "  - Try running with --auto-approve to skip confirmations"]

end Rollout
end Groundplan
