import RowQuery.Text.Basic

/-!
# Console markup

Console text marks styles by tags in square brackets. Text that is to be shown as it is has its tags
escaped.
-/

set_option autoImplicit false

namespace RowQuery.Markup

/-- Whether a tag follows an opening bracket: it starts with a lower case letter or one of `#/@`, and
it is closed before the next opening bracket. -/
def isTag : Text → Bool
  | [] => false
  | c :: t =>
    let opens := (0x61 ≤ c.toNat && c.toNat ≤ 0x7A) || [CodePoint.scalar '#', '/', '@'].contains c
    opens && (t.find? fun d => d = .scalar '[' || d = .scalar ']') = some (.scalar ']')

def backslashes (n : Nat) : Text := List.replicate n (.scalar '\\')

/-- Escapes the tags of a text that follows `n` backslashes. -/
def escapeTags : Nat → Text → Text
  | n, [] => backslashes n
  | n, .scalar '\\' :: t => escapeTags (n + 1) t
  | n, .scalar '[' :: t =>
    backslashes (if isTag t then 2 * n + 1 else n) ++ .scalar '[' :: escapeTags 0 t
  | n, c :: t => backslashes n ++ c :: escapeTags 0 t

/-- A backslash alone at the end would escape what follows the text, so it is doubled. -/
def closeEnd (t : Text) : Text :=
  match t.reverse with
  | .scalar '\\' :: .scalar '\\' :: _ => t
  | .scalar '\\' :: _ => t ++ [.scalar '\\']
  | _ => t

/-- The markup that shows a text as it is. -/
def escape (t : Text) : Text := closeEnd (escapeTags 0 t)

end RowQuery.Markup
