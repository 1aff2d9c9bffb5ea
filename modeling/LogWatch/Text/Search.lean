/-!
Finding and filling: whether a text stands inside another, and a text with every placeholder
replaced. Placeholders are found from left to right in the template alone, so a filling that
holds the placeholder itself is not looked at again.
-/

namespace LogWatch.Text

def occurs (p : List Char) : List Char → Bool
  | [] => p.isEmpty
  | c :: s => p.isPrefixOf (c :: s) || occurs p s

theorem occurs_iff {p s : List Char} : occurs p s = true ↔ p <:+: s := by
  induction s with
  | nil => simp [occurs]
  | cons c s ih => simp [occurs, ih, List.infix_cons_iff]

/-- The template with `text` for every placeholder; `skip` characters still belong to the
placeholder found last. -/
def fillFrom (hole text : List Char) : Nat → List Char → List Char
  | _, [] => []
  | skip + 1, _ :: s => fillFrom hole text skip s
  | 0, c :: s =>
    if hole.isPrefixOf (c :: s) then text ++ fillFrom hole text (hole.length - 1) s
    else c :: fillFrom hole text 0 s

def fill (hole text template : List Char) : List Char := fillFrom hole text 0 template

end LogWatch.Text
