/-!
Reading arguments.  An option changes a record of what was asked for; arguments that
belong to no option are left in their order.
-/

namespace Groundplan
namespace Command

/-- Why arguments cannot be read. -/
inductive UsageFault
  | unknownOption (spelling : String)
  | needsValue (spelling : String)
  | takesNoValue (spelling : String)
  | extraArguments (arguments : List String)
  | unknownCommand (name : String)
  | noCommand
  deriving DecidableEq

def UsageFault.message : UsageFault → String
  | .unknownOption spelling => s!"No such option: {spelling}"
  | .needsValue spelling => s!"Option '{spelling}' requires an argument."
  | .takesNoValue spelling => s!"Option '{spelling}' does not take a value."
  | .extraArguments arguments =>
    "Got unexpected extra arguments: " ++ " ".intercalate arguments
  | .unknownCommand name => s!"No such command '{name}'."
  | .noCommand => "Missing command."

/-- What an option does to the record, with a value or without. -/
inductive Action (α : Type)
  | flag (set : α → α)
  | value (set : String → α → α)

/-- An option with its spellings.  Long ones start with two hyphens, short ones have one
hyphen and one letter. -/
structure Switch (α : Type) where
  spellings : List String
  action : Action α

variable {α : Type}

def actionOf? (switches : List (Switch α)) (spelling : String) : Option (Action α) :=
  (switches.find? fun s => s.spellings.contains spelling).map Switch.action

/-- An option that waits for the next argument. -/
structure Pending (α : Type) where
  spelling : String
  set : String → α → α

/-- A long option, which may carry its value behind an equals sign. -/
def readLong (switches : List (Switch α)) (argument : String) (a : α) :
    Except UsageFault (α × Option (Pending α)) :=
  let cs := argument.toList
  let spelling := String.ofList (cs.takeWhile (· ≠ '='))
  let rest := cs.dropWhile (· ≠ '=')
  match actionOf? switches spelling, rest with
  | none, _ => .error (.unknownOption spelling)
  | some (.flag set), [] => .ok (set a, none)
  | some (.flag _), _ => .error (.takesNoValue spelling)
  | some (.value set), [] => .ok (a, some ⟨spelling, set⟩)
  | some (.value set), _ :: value => .ok (set (String.ofList value) a, none)

/-- Short options behind one hyphen.  What follows one that takes a value is the value. -/
def readShort (switches : List (Switch α)) (a : α) :
    List Char → Except UsageFault (α × Option (Pending α))
  | [] => .ok (a, none)
  | c :: rest =>
    let spelling := String.ofList ['-', c]
    match actionOf? switches spelling with
    | none => .error (.unknownOption spelling)
    | some (.flag set) => readShort switches (set a) rest
    | some (.value set) =>
      if rest.isEmpty then .ok (a, some ⟨spelling, set⟩) else .ok (set (String.ofList rest) a, none)

def isOption (argument : String) : Bool :=
  match argument.toList with
  | '-' :: _ :: _ => true
  | _ => false

def readOption (switches : List (Switch α)) (argument : String) (a : α) :
    Except UsageFault (α × Option (Pending α)) :=
  match argument.toList with
  | '-' :: '-' :: _ => readLong switches argument a
  | _ :: letters => readShort switches a letters
  | [] => .ok (a, none)

/-- Reads options and gives the other arguments.  Two hyphens alone end the options;
`mixed` tells whether options may also follow an argument.  `pending` is the option whose
value comes next. -/
def readArguments (switches : List (Switch α)) (mixed : Bool) (a : α) (pending : Option (Pending α)) :
    List String → Except UsageFault (α × List String)
  | [] =>
    match pending with
    | some p => .error (.needsValue p.spelling)
    | none => .ok (a, [])
  | argument :: rest =>
    match pending with
    | some p => readArguments switches mixed (p.set argument a) none rest
    | none =>
      if argument = "--" then .ok (a, rest)
      else if isOption argument then
        match readOption switches argument a with
        | .error e => .error e
        | .ok (a, pending) => readArguments switches mixed a pending rest
      else if mixed then
        (readArguments switches mixed a none rest).map fun (a, more) => (a, argument :: more)
      else .ok (a, argument :: rest)

end Command
end Groundplan
