/-!
# Dotted paths

A dotted path lists ids with a dot between neighbours. Reading splits at every dot, so an id
that itself holds a dot is read as several ids, and the empty text is one empty id.
-/

namespace Statechart.Dotted

/-- Splits at every dot; there is always at least one piece. -/
def pieces : List Char → List (List Char)
  | [] => [[]]
  | c :: rest =>
    if c = '.' then [] :: pieces rest
    else match pieces rest with
      | [] => [[c]]
      | piece :: more => (c :: piece) :: more

def ids (path : String) : List String :=
  (pieces path.toList).map String.ofList

def ofIds (ids : List String) : String :=
  ".".intercalate ids

theorem pieces_ne_nil (text : List Char) : pieces text ≠ [] := by
  cases text with
  | nil => simp [pieces]
  | cons c rest =>
    unfold pieces
    split
    · simp
    · split <;> simp

theorem ids_ne_nil (path : String) : ids path ≠ [] := by
  simp [ids, pieces_ne_nil]

end Statechart.Dotted
