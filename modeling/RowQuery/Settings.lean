import RowQuery.Settings.File

/-!
# Settings

The four settings, by name. The environment wins over the settings file, and the file wins over the
defaults. Names are case-sensitive, and other names are ignored.
-/

set_option autoImplicit false

namespace RowQuery

structure Settings where
  logLevel : Text
  logFormat : Text
  baseUrl : Text
  defaultTable : Text

namespace Settings

/-- The settings of an environment and the text of a settings file. A name that stands alone in the
file has its default. -/
def make (environment : Environment) (file : Text) : Settings :=
  let bindings := SettingsFile.bindings environment file
  let value (name other : Text) : Text :=
    ((environment.lookup name).or (bindings.lookup name).join).getD other
  { logLevel := value "FACTUAL_QUERY_LOG_LEVEL" "INFO"
    logFormat := value "LOG_FORMAT" "text"
    baseUrl := value "FACTUAL_API_BASE_URL" "https://api.v3.factual.com"
    defaultTable := value "FACTUAL_DEFAULT_TABLE" "places" }

end Settings

end RowQuery
