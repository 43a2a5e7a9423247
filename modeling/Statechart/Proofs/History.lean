import Mathlib.Data.List.Chain
import Mathlib.Data.List.Destutter
import Mathlib.Data.List.DropRight
import Statechart.History

/-!
# What a history holds

A history that was empty at first holds the last of the steps recorded in it, as many as its limit
allows. As long as each of them sets out from where the one before it ended, its path is the
sequence of configurations gone through, taking equal neighbours as one.
-/

namespace Statechart

/-- The second step sets out from the configuration that the first one led to. -/
def Step.Continues (step next : Step) : Prop :=
  step.after = next.before

namespace History

/-! ## The last steps -/

theorem tail_rtake_succ {steps : List Step} {count : Nat}
    (hFull : (steps.rtake (count + 1)).length = count + 1) :
    (steps.rtake (count + 1)).tail = steps.rtake count := by
  rw [List.rtake, List.length_drop] at hFull
  rw [List.rtake, List.rtake, List.tail_drop]
  congr 1
  omega

theorem rtake_succ_of_length_ne {steps : List Step} {count : Nat}
    (hOpen : (steps.rtake (count + 1)).length ≠ count + 1) :
    steps.rtake (count + 1) = steps.rtake count := by
  rw [List.rtake, List.length_drop] at hOpen
  rw [List.rtake, List.rtake]
  congr 1
  omega

theorem record_rtake (steps : List Step) (limit : Nat) (step : Step) :
    record ⟨steps.rtake limit, limit⟩ step = ⟨(steps ++ [step]).rtake limit, limit⟩ := by
  cases limit with
  | zero => simp [record]
  | succ count =>
    rw [record, if_neg (Nat.succ_ne_zero count), List.rtake_concat_succ]
    simp only
    split
    · next hFull => rw [tail_rtake_succ hFull]
    · next hOpen => rw [rtake_succ_of_length_ne hOpen]

theorem foldl_record_rtake (steps more : List Step) (limit : Nat) :
    more.foldl record ⟨steps.rtake limit, limit⟩ = ⟨(steps ++ more).rtake limit, limit⟩ := by
  induction more generalizing steps with
  | nil => rw [List.append_nil, List.foldl_nil]
  | cons step rest ih =>
    rw [List.foldl_cons, record_rtake, ih, List.append_assoc, List.singleton_append]

/-- A history that was empty at first holds the last steps, up to its limit. -/
theorem foldl_record_withLimit (steps : List Step) (limit : Nat) :
    steps.foldl record (withLimit limit) = ⟨steps.rtake limit, limit⟩ := by
  have hEmpty : withLimit limit = ⟨([] : List Step).rtake limit, limit⟩ := by
    rw [withLimit, List.rtake_nil]
  rw [hEmpty, foldl_record_rtake, List.nil_append]

theorem length_rtake (steps : List Step) (limit : Nat) :
    (steps.rtake limit).length = min steps.length limit := by
  rw [List.rtake, List.length_drop]
  omega

/-! ## The path -/

/-- Steps that change nothing are the ones left out when equal neighbours are taken as one. -/
theorem cons_map_after_changed {steps : List Step} {start : Configuration}
    (hStart : ∀ first ∈ steps.head?, first.before = start) (hSteps : steps.IsChain Step.Continues) :
    start :: (steps.filter (·.changed)).map (·.after) =
      (steps.map (·.after)).destutter' (· ≠ ·) start := by
  induction steps generalizing start with
  | nil => rfl
  | cons step rest ih =>
    obtain rfl : step.before = start := hStart step rfl
    rw [List.isChain_cons] at hSteps
    obtain ⟨hNext, hRest⟩ := hSteps
    have hNext' : ∀ next ∈ rest.head?, next.before = step.after :=
      fun next hHead => (hNext next hHead).symm
    rw [List.map_cons]
    by_cases hChanged : step.before = step.after
    · rw [List.destutter'_cons_neg _ (not_not.mpr hChanged),
        List.filter_cons_of_neg (by simpa [Step.changed] using hChanged)]
      rw [hChanged]
      exact ih hNext' hRest
    · rw [List.destutter'_cons_pos _ hChanged,
        List.filter_cons_of_pos (by simpa [Step.changed] using hChanged), List.map_cons,
        ih hNext' hRest]

theorem path_of_steps_eq_nil {history : History} (hSteps : history.steps = []) :
    history.path = [] := by
  rw [path, hSteps]
  rfl

theorem path_of_steps_eq_cons {history : History} {oldest : Step} {rest : List Step}
    (hSteps : history.steps = oldest :: rest)
    (hChain : history.steps.IsChain Step.Continues) :
    history.path =
      (oldest.before :: history.steps.map (·.after)).destutter (· ≠ ·) := by
  rw [List.destutter_cons', ← cons_map_after_changed _ hChain, path, hSteps]
  · rfl
  · rw [hSteps]
    rintro _ ⟨⟩
    rfl

theorem isChain_path {history : History} (hChain : history.steps.IsChain Step.Continues) :
    history.path.IsChain (· ≠ ·) := by
  cases hSteps : history.steps with
  | nil =>
    rw [path_of_steps_eq_nil hSteps]
    exact .nil
  | cons oldest rest =>
    rw [path_of_steps_eq_cons hSteps hChain]
    exact List.isChain_destutter _ _

end History

end Statechart
