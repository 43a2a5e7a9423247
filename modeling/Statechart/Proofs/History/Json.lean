import Statechart.History.Json
import Statechart.Proofs.Json.Record
import Statechart.Proofs.Timestamp.Text

/-!
# Histories read back

A configuration is read back from what it is written as, and so is a history, whatever its names,
its steps and its limit of 64 bits.
-/

namespace Statechart

open Json (Value Record Doc Restores restores_string restores_natural restores_list restores_texts
  restores_record)

theorem isWritten_ofTexts (texts : List String) : (Value.ofTexts texts).IsWritten :=
  Value.isWritten_map fun text _ => Value.isWritten_string text

namespace ActivePath

theorem restores_toValue (path : ActivePath) : Restores ofDoc path.toValue path :=
  restores_record (by decide)
    (.more ((restores_string path.region).put _)
      (.more ((restores_texts path.states).put _) (.none _)))

theorem isWritten_toValue (path : ActivePath) : path.toValue.IsWritten := by
  refine Value.isWritten_object ?_
  simp [Value.isWritten_string, isWritten_ofTexts]

end ActivePath

namespace Configuration

theorem restores_toValue (configuration : Configuration) :
    Restores ofDoc configuration.toValue configuration :=
  restores_record (by decide)
    (.more ((restores_list fun path _ => path.restores_toValue).put _) (.none _))

theorem isWritten_toValue (configuration : Configuration) : configuration.toValue.IsWritten := by
  refine Value.isWritten_object ?_
  have hRegions : (Value.array (configuration.regions.map (·.toValue))).IsWritten :=
    Value.isWritten_map fun path _ => path.isWritten_toValue
  simp [hRegions]

end Configuration

theorem Timestamp.restores_text {timestamp : Timestamp} (hProper : timestamp.IsProper) :
    Restores ofDoc (.string timestamp.text) timestamp := by
  intro doc hHolds
  obtain ⟨scalar, rfl, hRead⟩ := hHolds.exists_scalar trivial
  obtain ⟨spelling, rfl, hSpelling⟩ := Json.Scalar.exists_spelling hRead
  have hText : Json.faulty spelling.read = .ok timestamp.text := by
    rw [hSpelling]
    rfl
  simp only [ofDoc, hText, bind, Except.bind, read?_text hProper]
  rfl

namespace Step

theorem restores_toValue {step : Step} (hTime : step.time.IsProper) :
    Restores ofDoc step.toValue step :=
  restores_record (by decide)
    (.more ((restores_string step.event).put _)
      (.more (step.before.restores_toValue.put _)
        (.more (step.after.restores_toValue.put _)
          (.more ((restores_texts step.actions).put _)
            (.more ((Timestamp.restores_text hTime).put _) (.none _))))))

theorem isWritten_toValue (step : Step) : step.toValue.IsWritten := by
  refine Value.isWritten_object ?_
  simp [Value.isWritten_string, isWritten_ofTexts, Configuration.isWritten_toValue]

end Step

namespace History

theorem restores_toValue {history : History} (hLimit : history.limit ≤ greatestLimit)
    (hTimes : ∀ step ∈ history.steps, step.time.IsProper) :
    Restores ofDoc history.toValue history :=
  restores_record (by decide)
    (.more ((restores_list fun step hStep => Step.restores_toValue (hTimes step hStep)).put _)
      (.more ((restores_natural hLimit _).put _) (.none _)))

theorem isWritten_toValue {history : History} (hLimit : history.limit ≤ greatestLimit) :
    history.toValue.IsWritten := by
  refine Value.isWritten_object ?_
  have hSteps : (Value.array (history.steps.map (·.toValue))).IsWritten :=
    Value.isWritten_map fun step _ => step.isWritten_toValue
  have hLimit : history.limit ≤ 18446744073709551615 := hLimit
  have hNumber : (Value.ofInt history.limit).IsWritten :=
    Value.isWritten_ofInt (by omega) (by omega)
  simp [hSteps, hNumber]

/-- A history is read back from what it is written as with the same limit and the same steps, and a
configuration as the same configuration. The limit fits in 64 bits, and every step has a time of the
calendar; names are any text and configurations are any. -/
theorem written_is_read_back {history : History} (hLimit : history.limit ≤ greatestLimit)
    (hTimes : ∀ step ∈ history.steps, step.time.IsProper) :
    Json.ofText ofDoc history.toValue.text = .ok history ∧
      ∀ configuration : Configuration,
        Json.ofText Configuration.ofDoc configuration.toValue.text = .ok configuration :=
  ⟨(restores_toValue hLimit hTimes).ofText_text (isWritten_toValue hLimit),
    fun configuration => configuration.restores_toValue.ofText_text configuration.isWritten_toValue⟩

/-- Names that need escapes, no names at all, and a leap second with a fraction at the end of the
year 9999. -/
def intricate : History where
  steps :=
    [{ event := "say \"\\\x00\n\"\u00e9",
       before := ⟨[⟨"main", ["a.b", ""]⟩]⟩, after := ⟨[]⟩,
       actions := ["exit:\x1f", ""], time := ⟨253402300799, 1000000001⟩ }]
  limit := greatestLimit

theorem intricate_is_read_back : intricate.limit ≤ greatestLimit ∧
    (∀ step ∈ intricate.steps, step.time.IsProper) ∧
    Json.ofText ofDoc intricate.toValue.text = .ok intricate := by
  have hTimes : ∀ step ∈ intricate.steps, step.time.IsProper := by
    intro step hStep
    rw [List.mem_singleton.mp hStep]
    exact ⟨by decide, by decide, by decide⟩
  exact ⟨Nat.le_refl _, hTimes, (written_is_read_back (Nat.le_refl _) hTimes).1⟩

end History

end Statechart
