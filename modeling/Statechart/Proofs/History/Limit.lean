import Statechart.Proofs.History

/-!
# Histories of different limits

What a history of a smaller limit lacks is a prefix of what one of a greater limit holds after the
same steps. Its path lacks a prefix too, as long as the steps follow one another: the step that is
the oldest one left then sets out from a configuration that the longer path goes through, although
the steps that led there may have changed nothing.
-/

namespace Statechart.History

/-- A history that was empty at first, after some steps. -/
def ofRecorded (limit : Nat) (recorded : List Step) : History :=
  recorded.foldl record (withLimit limit)

theorem ofRecorded_eq (limit : Nat) (recorded : List Step) :
    ofRecorded limit recorded = ⟨recorded.rtake limit, limit⟩ :=
  foldl_record_withLimit recorded limit

theorem rtake_suffix_rtake {limit greater : Nat} (hLimit : limit ≤ greater)
    (recorded : List Step) : recorded.rtake limit <:+ recorded.rtake greater :=
  List.drop_suffix_drop_left recorded (Nat.sub_le_sub_left hLimit recorded.length)

/-- The induction is on the steps that are dropped. One that changed something takes the path on, and
one that did not leaves it where it was. -/
theorem cons_map_after_changed_suffix {earlier later : List Step} {oldest : Step}
    {start : Configuration}
    (hStart : ∀ first ∈ (earlier ++ oldest :: later).head?, first.before = start)
    (hSteps : (earlier ++ oldest :: later).IsChain Step.Continues) :
    oldest.before :: ((oldest :: later).filter (·.changed)).map (·.after) <:+
      start :: ((earlier ++ oldest :: later).filter (·.changed)).map (·.after) := by
  induction earlier generalizing start with
  | nil =>
    obtain rfl : oldest.before = start := hStart oldest rfl
    exact List.suffix_refl _
  | cons step rest ih =>
    obtain rfl : step.before = start := hStart step rfl
    rw [List.cons_append, List.isChain_cons] at hSteps
    obtain ⟨hNext, hRest⟩ := hSteps
    have hLonger := ih (fun next hHead => (hNext next hHead).symm) hRest
    rw [List.cons_append]
    by_cases hChanged : step.before = step.after
    · have hIdle : ¬ step.changed = true := by simpa [Step.changed] using hChanged
      rw [List.filter_cons_of_neg (a := step) hIdle, hChanged]
      exact hLonger
    · have hMoved : step.changed = true := by simpa [Step.changed] using hChanged
      rw [List.filter_cons_of_pos (a := step) hMoved, List.map_cons]
      exact hLonger.trans (List.suffix_cons _ _)

theorem path_suffix_path {shorter longer : History} (hSuffix : shorter.steps <:+ longer.steps)
    (hChain : longer.steps.IsChain Step.Continues) : shorter.path <:+ longer.path := by
  cases hShorter : shorter.steps with
  | nil =>
    rw [path_of_steps_eq_nil hShorter]
    exact List.nil_suffix
  | cons oldest later =>
    obtain ⟨earlier, hLonger⟩ := hSuffix
    rw [hShorter] at hLonger
    rw [← hLonger] at hChain
    obtain ⟨first, rest, hFirst⟩ : ∃ first rest, earlier ++ oldest :: later = first :: rest := by
      cases earlier with
      | nil => exact ⟨_, _, rfl⟩
      | cons step more => exact ⟨_, _, rfl⟩
    have hStart : ∀ head ∈ (earlier ++ oldest :: later).head?, head.before = first.before := by
      rw [hFirst]
      rintro _ ⟨⟩
      rfl
    have hPath := cons_map_after_changed_suffix hStart hChain
    rw [path, path, ← hLonger, hShorter, hFirst]
    rw [hFirst] at hPath
    exact hPath

/-- Whatever is recorded, a history holds the last steps, as many as its limit allows, and one of a
smaller limit holds an end of what one of a greater limit holds. If the steps follow one another its
path is an end of the other's path. -/
theorem smaller_limit_forgets_prefix (recorded : List Step) {limit greater : Nat}
    (hLimit : limit ≤ greater) :
    (ofRecorded limit recorded).steps =
        recorded.drop (recorded.length - min recorded.length limit) ∧
      (ofRecorded limit recorded).steps <:+ (ofRecorded greater recorded).steps ∧
      (recorded.IsChain Step.Continues →
        (ofRecorded limit recorded).path <:+ (ofRecorded greater recorded).path) := by
  rw [ofRecorded_eq, ofRecorded_eq]
  have hSuffix : recorded.rtake limit <:+ recorded.rtake greater :=
    rtake_suffix_rtake hLimit recorded
  refine ⟨?_, hSuffix, fun hChain => path_suffix_path hSuffix ?_⟩
  · show recorded.drop (recorded.length - limit) = _
    congr 1
    omega
  · exact hChain.suffix (List.drop_suffix _ _)

def stepBetween (source target : String) : Step :=
  ⟨"GO", ⟨[⟨"main", [source]⟩]⟩, ⟨[⟨"main", [target]⟩]⟩, [], ⟨0, 0⟩⟩

/-- Four steps, the second of which changes nothing. -/
def walk : List Step :=
  [stepBetween "idle" "run", stepBetween "run" "run", stepBetween "run" "done",
    stepBetween "done" "idle"]

/-- The oldest step left sets out from where the one that changed nothing stayed. -/
theorem smaller_limit_forgets_idle_step : 2 ≤ 4 ∧ walk.IsChain Step.Continues ∧
    (ofRecorded 2 walk).steps = walk.drop 2 ∧
    (ofRecorded 2 walk).path =
      [⟨[⟨"main", ["run"]⟩]⟩, ⟨[⟨"main", ["done"]⟩]⟩, ⟨[⟨"main", ["idle"]⟩]⟩] ∧
    (ofRecorded 2 walk).path <:+ (ofRecorded 4 walk).path := by
  have hChain : walk.IsChain Step.Continues := by simp [walk, Step.Continues, stepBetween]
  obtain ⟨hSteps, _, hPath⟩ := smaller_limit_forgets_prefix walk (show 2 ≤ 4 by decide)
  exact ⟨by decide, hChain, hSteps, by decide +kernel, hPath hChain⟩

end Statechart.History
