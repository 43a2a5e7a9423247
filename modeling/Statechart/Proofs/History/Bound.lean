import Statechart.History.Json
import Statechart.Proofs.History

/-!
# How far a history grows

A history that is within its limit stays within it and holds the latest steps. One that is read from
a text may hold more steps than its limit. It is then never found at its limit, which is where a
step would be forgotten: it grows with every step, or with limit zero stays as it was read.
-/

namespace Statechart.History

/-- Recording the step leaves no more steps than the limit, and the latest ones unless there is room
for none. -/
structure KeepsLatest (history : History) (step : Step) : Prop where
  bounded : (history.record step).steps.length ≤ history.limit
  latest : history.limit ≠ 0 →
    (history.record step).steps = (history.steps ++ [step]).rtake history.limit

def Within (history : History) : Prop :=
  history.steps.length ≤ history.limit

variable {history : History}

/-! ## One step -/

@[simp]
theorem limit_record (history : History) (step : Step) :
    (history.record step).limit = history.limit := by
  rw [record]
  split <;> rfl

theorem record_of_within (hWithin : history.Within) (step : Step) :
    history.record step = ⟨(history.steps ++ [step]).rtake history.limit, history.limit⟩ := by
  have hAll : history.steps.rtake history.limit = history.steps := by
    rw [List.rtake, Nat.sub_eq_zero_of_le hWithin, List.drop_zero]
  rw [← record_rtake, hAll]

theorem record_of_not_within (hBeyond : ¬ history.Within) (step : Step) :
    history.record step =
      ⟨if history.limit = 0 then history.steps else history.steps ++ [step], history.limit⟩ := by
  have hNotFull : history.steps.length ≠ history.limit :=
    fun hFull => hBeyond (Nat.le_of_eq hFull)
  rw [record, if_neg hNotFull]
  split <;> rfl

/-- Recording neither takes a history beyond its limit nor brings it back within. -/
theorem within_record_iff (history : History) (step : Step) :
    (history.record step).Within ↔ history.Within := by
  by_cases hWithin : history.Within
  · rw [record_of_within hWithin, Within, length_rtake]
    exact iff_of_true (Nat.min_le_right _ _) hWithin
  · refine iff_of_false (fun hRecorded => hWithin ?_) hWithin
    rw [record_of_not_within hWithin, Within] at hRecorded
    refine Nat.le_trans ?_ hRecorded
    simp only
    split
    · exact Nat.le_refl _
    · exact List.length_append ▸ Nat.le_add_right _ _

theorem keepsLatest_iff_within (history : History) (step : Step) :
    history.KeepsLatest step ↔ history.Within := by
  constructor
  · intro hKeeps
    rw [← within_record_iff history step, Within, limit_record]
    exact hKeeps.bounded
  · intro hWithin
    have hRecorded : (history.record step).Within := (within_record_iff history step).mpr hWithin
    rw [Within, limit_record] at hRecorded
    exact ⟨hRecorded, fun _ => by rw [record_of_within hWithin]⟩

/-! ## Many steps -/

theorem within_foldl_record_iff (recorded : List Step) (history : History) :
    (recorded.foldl record history).Within ↔ history.Within := by
  induction recorded generalizing history with
  | nil => rfl
  | cons step rest ih => exact (ih _).trans (within_record_iff history step)

theorem steps_foldl_record_of_not_within (hBeyond : ¬ history.Within) (recorded : List Step) :
    (recorded.foldl record history).steps =
      if history.limit = 0 then history.steps else history.steps ++ recorded := by
  induction recorded generalizing history with
  | nil => rw [List.foldl_nil, List.append_nil, ite_self]
  | cons step rest ih =>
    have hStill : ¬ (history.record step).Within := (within_record_iff history step).not.mpr hBeyond
    rw [List.foldl_cons, ih hStill, record_of_not_within hBeyond]
    simp only
    split
    · rfl
    · exact List.append_assoc ..

/-- Whatever a history recorded since it was made or read, it keeps the latest steps up to its limit
if it was within the limit at first, as one that starts empty is, and only then. One that was beyond
it forgets nothing. -/
theorem keepsLatest_iff_within_at_first (history : History) (recorded : List Step) (step : Step) :
    (∀ limit, (recorded.foldl record (withLimit limit)).KeepsLatest step) ∧
      ((recorded.foldl record history).KeepsLatest step ↔
        history.steps.length ≤ history.limit) ∧
      (history.limit < history.steps.length → (recorded.foldl record history).steps =
        if history.limit = 0 then history.steps else history.steps ++ recorded) := by
  have hKeeps : ∀ first : History,
      (recorded.foldl record first).KeepsLatest step ↔ first.Within := fun first =>
    (keepsLatest_iff_within _ step).trans (within_foldl_record_iff recorded first)
  refine ⟨fun limit => (hKeeps _).mpr (Nat.zero_le limit), hKeeps history, fun hBeyond => ?_⟩
  exact steps_foldl_record_of_not_within (Nat.not_le_of_lt hBeyond) recorded

/-- A text with two steps and a limit of one. -/
def overfull : String :=
  "\x7b\"steps\":[[\"J1\",[[]],[[]],[],\"1970-01-01T00:00:00Z\"]," ++
    "[\"J2\",[[]],[[]],[],\"1970-01-01T00:00:01Z\"]],\"limit\":1\x7d"

theorem read_overfull : (Json.ofText ofDoc overfull).toOption =
    some ⟨[⟨"J1", ⟨[]⟩, ⟨[]⟩, [], ⟨0, 0⟩⟩, ⟨"J2", ⟨[]⟩, ⟨[]⟩, [], ⟨1, 0⟩⟩], 1⟩ := by
  decide +kernel

/-- The text is read as a history, which holds three steps after it recorded one. -/
theorem overfull_grows : ∃ history, Json.ofText ofDoc overfull = .ok history ∧
    history.limit = 1 ∧ (history.record ⟨"N1", ⟨[]⟩, ⟨[]⟩, [], ⟨2, 0⟩⟩).steps.length = 3 ∧
    ¬ history.KeepsLatest ⟨"N1", ⟨[]⟩, ⟨[]⟩, [], ⟨2, 0⟩⟩ := by
  have hOverfull := read_overfull
  cases hRead : Json.ofText ofDoc overfull with
  | error problem =>
    rw [hRead] at hOverfull
    cases hOverfull
  | ok history =>
    rw [hRead] at hOverfull
    cases hOverfull
    exact ⟨_, rfl, rfl, rfl, fun hKeeps => absurd hKeeps.bounded (by decide)⟩

end Statechart.History
