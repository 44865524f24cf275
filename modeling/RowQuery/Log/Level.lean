import RowQuery.Journal

/-!
# Names of levels
-/

set_option autoImplicit false

namespace RowQuery.Level

def names : List (Level × String) :=
  [(critical, "CRITICAL"), (error, "ERROR"), (warning, "WARNING"), (info, "INFO"), (debug, "DEBUG"),
    (0, "NOTSET")]

/-- The name of a level; the levels in between are numbered. -/
def name (level : Level) : Text :=
  match names.find? fun p => p.1 = level with
  | some p => Text.ofString p.2
  | none => Text.ofString "Level " ++ Text.ofInt level

end RowQuery.Level
