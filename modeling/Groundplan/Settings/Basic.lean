import Groundplan.Module.Basic
import Groundplan.Spec.Decode

/-!
Settings of a directory that holds specifications.  Each has a default, a name in the
file of settings and a variable of the environment that has precedence over the file.
-/

namespace Groundplan

structure Settings where
  specFile : String := "score.yaml"
  terraformDir : String := "terraform"
  credentials : Credentials := .managed
  /-- How long to wait for a service to come to rest, in seconds. -/
  drainTimeout : Quantity := .whole 600
  deriving DecidableEq, Inhabited

/-- The variables of the environment that are set. -/
abbrev Environment := List (String × String)

/-- The words for the sources of a master password. -/
def Credentials.words : List (String × Credentials) :=
  [("managed", .managed), ("placeholder", .placeholder)]

def Credentials.ofWord? (word : String) : Option Credentials := Credentials.words.lookup word

def Credentials.toWord : Credentials → String
  | .managed => "managed"
  | .placeholder => "placeholder"

namespace Settings

/-- A text, which a number is not taken for. -/
def text : Datum → Checked String
  | .int _ => .refuse .text
  | .float _ => .refuse .text
  | d => Coercion.text d

def credentialsOf (d : Datum) : Checked Credentials :=
  (Coercion.choice (Credentials.words.map Prod.fst) d).andThen fun word =>
    .ok ((Credentials.ofWord? word).getD .managed)

/-- Reads settings by name.  Other names are no concern of this program. -/
def decode (entries : List (Datum × Datum)) : Checked Settings :=
  (fun specFile terraformDir credentials drainTimeout =>
      { specFile, terraformDir, credentials, drainTimeout }) <$>
    fieldOr "score.yaml" ["spec_file"] text entries <*>
    fieldOr "terraform" ["terraform_dir"] text entries <*>
    fieldOr .managed ["db_credentials"] credentialsOf entries <*>
    fieldOr (.whole 600) ["drain_timeout"] (fun d => Quantity.real <$> Coercion.real d)
      entries

/-- The variable of the environment for each setting. -/
def environmentNames : List (String × String) :=
  [("SCOREFORM_SPEC_FILE", "spec_file"),
    ("SCOREFORM_TERRAFORM_DIR", "terraform_dir"),
    ("SCOREFORM_DB_CREDENTIALS", "db_credentials"),
    ("SCOREFORM_DRAIN_TIMEOUT", "drain_timeout")]

/-- Puts what the environment says in the place of what the file says.  An empty variable
says nothing. -/
def override (environment : Environment) (entries : List (Datum × Datum)) : List (Datum × Datum) :=
  environmentNames.foldl (fun entries (source, name) =>
    match environment.lookup source with
    | some value =>
      if value.isEmpty then entries else Datum.insertEntry (.text name) (.text value) entries
    | none => entries) entries

end Settings
end Groundplan
