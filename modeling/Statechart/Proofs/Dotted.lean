import Statechart.Dotted

/-!
# Reading dotted paths

Writing ids and reading them again undo each other where no id holds a dot. Whatever is read from a
text holds no dot and writes the same text again, so a text is read in one way only, and an id that
holds a dot is never among the ids read.
-/

namespace Statechart.Dotted

/-- An id that stands for itself in a dotted path. -/
def DotFree (id : String) : Prop :=
  '.' ∉ id.toList

instance (id : String) : Decidable (DotFree id) :=
  inferInstanceAs (Decidable ('.' ∉ id.toList))

theorem pieces_eq_splitOn (text : List Char) : pieces text = text.splitOn '.' := by
  induction text with
  | nil => rfl
  | cons c rest ih =>
    rw [pieces, List.splitOn_cons_eq_if_modifyHead, ← ih]
    by_cases hDot : c = '.'
    · simp [hDot]
    · cases hRest : pieces rest with
      | nil => exact absurd hRest (pieces_ne_nil rest)
      | cons piece more => simp [hDot]

theorem not_mem_of_mem_pieces {text piece : List Char} (hPiece : piece ∈ pieces text) :
    '.' ∉ piece := by
  induction text generalizing piece with
  | nil =>
    cases List.mem_singleton.mp hPiece
    exact List.not_mem_nil
  | cons c rest ih =>
    rw [pieces] at hPiece
    split at hPiece
    · rcases List.mem_cons.mp hPiece with rfl | hLater
      · exact List.not_mem_nil
      · exact ih hLater
    · rename_i hDot
      split at hPiece
      · rename_i hNil
        exact absurd hNil (pieces_ne_nil rest)
      · rename_i first more hRest
        rw [hRest] at ih
        rcases List.mem_cons.mp hPiece with rfl | hLater
        · rw [List.mem_cons, not_or]
          exact ⟨fun h => hDot h.symm, ih List.mem_cons_self⟩
        · exact ih (List.mem_cons_of_mem _ hLater)

theorem dotFree_of_mem_ids {path id : String} (hId : id ∈ ids path) : DotFree id := by
  obtain ⟨piece, hPiece, rfl⟩ := List.mem_map.mp hId
  rw [DotFree, String.toList_ofList]
  exact not_mem_of_mem_pieces hPiece

theorem toList_ofIds (names : List String) :
    (ofIds names).toList = ['.'].intercalate (names.map String.toList) :=
  String.toList_intercalate

theorem ofIds_ids (path : String) : ofIds (ids path) = path := by
  have hPieces : (ids path).map String.toList = pieces path.toList := by
    simp [ids, Function.comp_def]
  rw [← String.toList_inj, toList_ofIds, hPieces, pieces_eq_splitOn, List.intercalate_splitOn]

theorem ids_ofIds {names : List String} (hNames : names ≠ [])
    (hDotFree : ∀ id ∈ names, DotFree id) : ids (ofIds names) = names := by
  have hPieces : pieces (ofIds names).toList = names.map String.toList := by
    rw [pieces_eq_splitOn, toList_ofIds]
    refine List.splitOn_intercalate '.' ?_ (by simpa using hNames)
    intro piece hPiece
    obtain ⟨id, hId, rfl⟩ := List.mem_map.mp hPiece
    exact hDotFree id hId
  rw [ids, hPieces]
  simp [Function.comp_def]

/-- The ids read from a text are the only ids without dots that write it. -/
theorem ids_eq_iff {path : String} {names : List String} :
    ids path = names ↔ names ≠ [] ∧ (∀ id ∈ names, DotFree id) ∧ path = ofIds names := by
  constructor
  · rintro rfl
    exact ⟨ids_ne_nil path, fun _ => dotFree_of_mem_ids, (ofIds_ids path).symm⟩
  · rintro ⟨hNames, hDotFree, rfl⟩
    exact ids_ofIds hNames hDotFree

end Statechart.Dotted
