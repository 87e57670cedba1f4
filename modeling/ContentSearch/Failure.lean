import ContentSearch.Text.Basic

/-!
Failures as they are reported to a user: a kind, which decides how the message begins, and a message.
-/

namespace ContentSearch

/-- Why an operation failed. -/
inductive Failure where
  /-- A configuration that the caller has to mend. -/
  | configuration (message : Text)
  /-- A history store that cannot be used. -/
  | storage (message : Text)
  /-- A file that could not be read or written. -/
  | inputOutput (message : Text)
  | other (message : Text)
  /-- A cause with the contexts in which it arose, the outermost first. -/
  | wrapped (contexts : List Text) (cause : Text)
  deriving Repr, DecidableEq

namespace Failure

def invalidArgument (message : Text) : Failure := .other ("Invalid argument: ".toList ++ message)

def inContext (context : Text) : Failure → Failure
  | .wrapped contexts cause => .wrapped (context :: contexts) cause
  | f => f

/-- Whether the caller has to mend a configuration. -/
def isConfiguration : Failure → Bool
  | .configuration _ => true
  | _ => false

/-- The message of a failure, contexts before causes. -/
def message : Failure → Text
  | .configuration m => "Configuration error: ".toList ++ m
  | .storage m => "Storage error: ".toList ++ m
  | .inputOutput m => "I/O error: ".toList ++ m
  | .other m => "Error: ".toList ++ m
  | .wrapped contexts cause => Text.joinWith ": ".toList (contexts ++ [cause])

end Failure
end ContentSearch
