import ContentSearch.Config.Basic
import ContentSearch.Failure
import ContentSearch.Number.Format

/-!
How an error in a configuration is reported.
-/

namespace ContentSearch

def ConfigError.toFailure (e : ConfigError Float32) : Failure :=
  .configuration (e.message singleText)

end ContentSearch
