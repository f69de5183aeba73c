import Groundplan.Log
import Groundplan.Module.Container
import Groundplan.Module.Database
import Groundplan.Module.Function
import Groundplan.Module.Generic
import Groundplan.Datum.Display

/-!
The library of templates.  Four are built in.  Installed plugins bring more; they are
looked for once, at the first look-up.  A plugin that cannot be loaded, or that brings
something else, is reported and otherwise ignored; a template class without a usable type
ends the look-up and the search.
-/

namespace Groundplan
namespace Module

/-- Why a template class can be filed under no type. -/
inductive Nameless
  /-- The class has none. -/
  | untyped (className : String)
  /-- What it has is of a kind that cannot be a key. -/
  | unhashable (typeName : String)
  deriving DecidableEq

def Nameless.message : Nameless → String
  | .untyped className => "type object '" ++ className ++ "' has no attribute 'type_name'"
  | .unhashable typeName => "unhashable type: '" ++ typeName ++ "'"

/-- What an installed plugin brings when it is loaded. -/
inductive Loaded
  | template (t : Template)
  | nameless (fault : Nameless)
  | value (d : Datum)

structure Plugin where
  name : String
  /-- What the plugin brings, or what is said when it cannot be loaded. -/
  loaded : Except String Loaded

structure Library where
  /-- The templates by type, in order of first registration. -/
  templates : List (String × Template)
  plugins : List Plugin := []
  /-- The reason why plugins cannot be looked for, if there is one. -/
  scanFailure : Option String := none
  searched : Bool := false

/-- What looking for plugins comes to. -/
structure Search where
  library : Library
  records : List LogRecord
  /-- What ended the search, if it did not come to its end. -/
  stopped : Option Nameless := none

/-- Why a look-up gives no template. -/
inductive LookupFault
  | nameless (fault : Nameless)
  /-- The class of the template has no instances. -/
  | flawed (reason : String)
  deriving DecidableEq

def LookupFault.message : LookupFault → String
  | .nameless fault => fault.message
  | .flawed reason => reason

/-- An instance of a template. -/
def Template.made (t : Template) : Except LookupFault Template :=
  match t.flaw with
  | some reason => .error (.flawed reason)
  | none => .ok t

/-- The place where plugins are announced. -/
def pluginGroup : String := "scoreform.templates"

namespace Library

def builtIn : Library :=
  { templates := [container, database, function, generic].map fun t => (t.typeName, t) }

/-- Makes a template the one for its type. -/
def register (l : Library) (t : Template) : Library :=
  { l with templates := Entries.insert t.typeName t l.templates }

def loadRecord (p : Plugin) : LogRecord :=
  match p.loaded with
  | .error message => .warning s!"Failed to load template plugin {p.name}: {message}"
  | .ok _ => .debug s!"Loaded template plugin {p.name}"

/-- Loads every installed plugin.  Of plugins of one name the last that can be loaded
counts, in the place of the first. -/
def discover (l : Library) : List (String × Loaded) × List LogRecord :=
  match l.scanFailure with
  | some message =>
    ([], [.warning s!"Failed to scan entry point group {pluginGroup}: {message}"])
  | none =>
    (Entries.ofPairs (l.plugins.filterMap fun p => p.loaded.toOption.map fun x => (p.name, x)),
      l.plugins.map loadRecord)

/-- Registers what a plugin brings if it is a template. -/
def adopt (l : Library) (name : String) : Loaded → Except Nameless (Library × List LogRecord)
  | .template t =>
    .ok (l.register t,
      if (l.templates.lookup t.typeName).isSome then
        [.info ("Template plugin " ++ name ++ " replaces built-in " ++ Text.quoted t.typeName ++
          " template")]
      else [])
  | .nameless fault => .error fault
  | .value d =>
    .ok (l, [.warning
      ("Ignoring template plugin " ++ name ++ ": " ++ d.quotedText ++
        " is not a ModuleTemplate subclass")])

/-- What is registered before the search ends stays registered. -/
def adoptAll (l : Library) : List (String × Loaded) → Search
  | [] => { library := l, records := [] }
  | (name, x) :: rest =>
    match l.adopt name x with
    | .error fault => { library := l, records := [], stopped := some fault }
    | .ok (l, records) =>
      let later := adoptAll l rest
      { later with records := records ++ later.records }

/-- Looks for plugins unless that has been done, whatever came of it. -/
def search (l : Library) : Search :=
  if l.searched then { library := l, records := [] }
  else
    let (found, records) := l.discover
    let adopted := { l with searched := true }.adoptAll found
    { adopted with records := records ++ adopted.records }

/-- The template for a type, or the one for types without. -/
def template (l : Library) (type : String) : Template :=
  ((l.templates.lookup type).or (l.templates.lookup generic.typeName)).getD generic

/-- The types that have a template of their own. -/
def types (l : Library) : List String := l.templates.map Prod.fst

/-- The record that a look-up leaves. -/
def lookupRecords (l : Library) (type : String) : List LogRecord :=
  if (l.templates.lookup type).isSome then []
  else
    [.debug ("No template for workload type " ++ Text.quoted type ++ ", using " ++
      Text.quoted generic.typeName)]

/-- Looks a template up. -/
def find (l : Library) (type : String) : Library × List LogRecord × Except LookupFault Template :=
  let found := l.search
  match found.stopped with
  | some fault => (found.library, found.records, .error (.nameless fault))
  | none =>
    (found.library, found.records ++ found.library.lookupRecords type,
      (found.library.template type).made)

/-- Looks up which types there are. -/
def findTypes (l : Library) : Library × List LogRecord × Except LookupFault (List String) :=
  let found := l.search
  (found.library, found.records,
    match found.stopped with
    | some fault => .error (.nameless fault)
    | none => .ok found.library.types)

end Library
end Module
end Groundplan
