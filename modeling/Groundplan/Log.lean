/-!
Log records, which tell about a run beside its result.
-/

namespace Groundplan

inductive Level
  | debug
  | info
  | warning
  | error
  deriving DecidableEq, Inhabited

def Level.name : Level → String
  | .debug => "DEBUG"
  | .info => "INFO"
  | .warning => "WARNING"
  | .error => "ERROR"

structure LogRecord where
  level : Level
  message : String
  deriving DecidableEq, Inhabited

namespace LogRecord

def debug (message : String) : LogRecord := ⟨.debug, message⟩
def info (message : String) : LogRecord := ⟨.info, message⟩
def warning (message : String) : LogRecord := ⟨.warning, message⟩
def error (message : String) : LogRecord := ⟨.error, message⟩

end LogRecord
end Groundplan
