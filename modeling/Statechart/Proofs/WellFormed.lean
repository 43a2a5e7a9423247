import Statechart.Build
import Statechart.Proofs.Nesting

/-!
# Well-formed declarations

What a declaration owes each of its regions, at whatever depth, said without the check. The check
finds nothing exactly in the well-formed declarations, and what it finds in any other one is an
account of the places of the declaration in reading order: a region as such, then state by state
the state itself followed by the places of the region inside.
-/

namespace Statechart.Declaration

variable {C E A : Type}

structure Region.WellFormed (region : Region C E A) : Prop where
  inhabited : region.states ≠ []
  distinct : (ids region.states).Nodup
  initial : ∃ id ∈ ids region.states, region.label.initial = some id
  targets : ∀ state ∈ region.states, ∀ transition ∈ state.label.transitions,
    transition.target ∈ ids region.states

structure WellFormed (declaration : Declaration C E A) : Prop where
  inhabited : declaration.regions ≠ []
  regions : ∀ region, declaration.HasRegion region → Region.WellFormed region

/-! ## The check by regions -/

theorem statesViolations_eq (path : String) (known : List String) (states : List (State C E A)) :
    statesViolations path known states = states.flatMap fun state =>
      state.label.unknownTargets path known ++ State.nestedViolations path state := by
  induction states with
  | nil => rfl
  | cons state rest ih => rw [statesViolations, ih, List.flatMap_cons]

theorem nestedViolations_of_eq_none (path : String) {state : State C E A}
    (hAtomic : state.nested = none) : State.nestedViolations path state = [] := by
  cases state with
  | atomic => rfl
  | composite => cases hAtomic

theorem nestedViolations_of_eq_some (path : String) {state : State C E A} {inner : Region C E A}
    (hInner : state.nested = some inner) :
    State.nestedViolations path state =
      Region.violations (innerPath path state.label.id) inner := by
  cases state with
  | atomic => cases hInner
  | composite label region states =>
    cases hInner
    rw [State.nestedViolations]
    rfl

theorem nestedViolations_eq_nil_iff (path : String) (state : State C E A) :
    State.nestedViolations path state = [] ↔ ∀ inner, state.nested = some inner →
      Region.violations (innerPath path state.label.id) inner = [] := by
  cases hNested : state.nested with
  | none => simp [nestedViolations_of_eq_none path hNested]
  | some inner => simp [nestedViolations_of_eq_some path hNested]

/-! ## No violations -/

theorem repeats_eq_nil_iff (seen texts : List String) :
    repeats seen texts = [] ↔ texts.Nodup ∧ ∀ id ∈ texts, id ∉ seen := by
  induction texts generalizing seen with
  | nil => simp [repeats]
  | cons id rest ih =>
    rw [repeats]
    split
    · simp_all
    · rename_i hNew
      rw [ih, List.nodup_cons]
      simp only [List.mem_cons, not_or, forall_eq_or_imp]
      constructor
      · rintro ⟨hRest, hFresh⟩
        exact ⟨⟨fun h => (hFresh id h).1 rfl, hRest⟩, hNew, fun other h => (hFresh other h).2⟩
      · rintro ⟨⟨hId, hRest⟩, _, hFresh⟩
        exact ⟨hRest, fun other h => ⟨fun hEq => hId (hEq ▸ h), hFresh other h⟩⟩

theorem initialViolations_eq_nil_iff (region : RegionLabel) (path : String) (known : List String) :
    region.initialViolations path known = [] ↔ ∃ id ∈ known, region.initial = some id := by
  rw [RegionLabel.initialViolations]
  cases region.initial with
  | none => simp
  | some initial => by_cases h : initial ∈ known <;> simp [h]

theorem unknownTargets_eq_nil_iff (state : StateLabel C E A) (path : String)
    (known : List String) :
    state.unknownTargets path known = [] ↔
      ∀ transition ∈ state.transitions, transition.target ∈ known := by
  simp [StateLabel.unknownTargets, List.filter_eq_nil_iff]

theorem regionLabel_violations_eq_nil_iff (region : RegionLabel) (path : String)
    (known : List String) :
    region.violations path known = [] ↔
      known ≠ [] ∧ known.Nodup ∧ ∃ id ∈ known, region.initial = some id := by
  rw [RegionLabel.violations, List.append_eq_nil_iff, List.append_eq_nil_iff, List.map_eq_nil_iff,
    repeats_eq_nil_iff, initialViolations_eq_nil_iff]
  simp [and_assoc]

theorem region_violations_eq_nil_step (path : String) (region : Region C E A) :
    Region.violations path region = [] ↔ Region.WellFormed region ∧
      ∀ state ∈ region.states, ∀ inner, state.nested = some inner →
        Region.violations (innerPath path state.label.id) inner = [] := by
  rw [Region.violations, List.append_eq_nil_iff, regionLabel_violations_eq_nil_iff,
    statesViolations_eq, List.flatMap_eq_nil_iff]
  simp only [List.append_eq_nil_iff, unknownTargets_eq_nil_iff, nestedViolations_eq_nil_iff]
  constructor
  · rintro ⟨⟨hStates, hDistinct, hInitial⟩, hInside⟩
    exact ⟨⟨by simpa [ids] using hStates, hDistinct, hInitial, fun s hs => (hInside s hs).1⟩,
      fun s hs => (hInside s hs).2⟩
  · rintro ⟨⟨hStates, hDistinct, hInitial, hTargets⟩, hInside⟩
    exact ⟨⟨by simpa [ids] using hStates, hDistinct, hInitial⟩,
      fun s hs => ⟨hTargets s hs, hInside s hs⟩⟩

theorem region_violations_eq_nil_iff (path : String) (region : Region C E A) :
    Region.violations path region = [] ↔
      ∀ inner, region.Encloses inner → Region.WellFormed inner := by
  induction region using Statechart.Region.induction generalizing path with
  | step region ih =>
    rw [region_violations_eq_nil_step, Region.forall_encloses_iff]
    apply and_congr_right
    intro _
    constructor
    · intro h state hState next hNext
      exact (ih state hState next hNext _).mp (h state hState next hNext)
    · intro h state hState next hNext
      exact (ih state hState next hNext _).mpr (h state hState next hNext)

/-- The check finds nothing exactly in the well-formed declarations. -/
theorem violations_eq_nil_iff (declaration : Declaration C E A) :
    declaration.violations = [] ↔ declaration.WellFormed := by
  rw [violations, List.append_eq_nil_iff, List.flatMap_eq_nil_iff]
  simp only [region_violations_eq_nil_iff]
  constructor
  · rintro ⟨hRegions, hInside⟩
    refine ⟨by simpa using hRegions, ?_⟩
    rintro inner ⟨region, hRegion, hInner⟩
    exact hInside region hRegion inner hInner
  · rintro ⟨hRegions, hInside⟩
    exact ⟨by simpa using hRegions,
      fun region hRegion inner hInner => hInside inner ⟨region, hRegion, hInner⟩⟩

instance (declaration : Declaration C E A) : Decidable declaration.WellFormed :=
  decidable_of_iff _ (violations_eq_nil_iff declaration)

/-! ## The account of a declaration -/

/-- A place of a declaration that may be at fault, with the dotted path of its region. -/
inductive Place (C E A : Type)
  | ofRegion (path : String) (region : Region C E A)
  | ofState (path : String) (around : Region C E A) (state : State C E A)

def repetitions (texts : List String) : List String :=
  (texts.zipIdx.filter fun entry => entry.1 ∈ texts.take entry.2).map (·.1)

def Place.faults : Place C E A → List Violation
  | .ofRegion path region =>
    (if region.states.isEmpty then [.emptyRegion path] else []) ++
      (repetitions (ids region.states)).map (.duplicateState path) ++
      match region.label.initial with
      | none => [.missingInitial path]
      | some initial =>
        if initial ∈ ids region.states then [] else [.unknownInitial path initial]
  | .ofState path around state =>
    (state.label.transitions.filter fun transition =>
      transition.target ∉ ids around.states).map fun transition =>
        .unknownTarget path state.label.id transition.event transition.target

mutual

def State.placesInside (path : String) : State C E A → List (Place C E A)
  | .atomic _ => []
  | .composite label region states =>
    .ofRegion (innerPath path label.id) ⟨region, states⟩ ::
      placesOfStates (innerPath path label.id) ⟨region, states⟩ states

def placesOfStates (path : String) (around : Region C E A) : List (State C E A) → List (Place C E A)
  | [] => []
  | state :: rest =>
    .ofState path around state ::
      (State.placesInside path state ++ placesOfStates path around rest)

end

def Region.places (path : String) (region : Region C E A) : List (Place C E A) :=
  .ofRegion path region :: placesOfStates path region region.states

def account (declaration : Declaration C E A) : List Violation :=
  (if declaration.regions.isEmpty then [.noRegions declaration.id] else []) ++
    (declaration.regions.flatMap fun region => Region.places region.label.id region).flatMap
      Place.faults

theorem repeats_eq_filter (seen before after : List String)
    (hSeen : ∀ id, id ∈ seen ↔ id ∈ before) :
    repeats seen after = ((after.zipIdx before.length).filter fun entry =>
      entry.1 ∈ (before ++ after).take entry.2).map (·.1) := by
  -- `before` is what was passed already; `seen` has the same members, each of them once.
  induction after generalizing seen before with
  | nil => rfl
  | cons id rest ih =>
    have hTake : (before ++ id :: rest).take before.length = before := by simp
    have hSplit : before ++ id :: rest = (before ++ [id]) ++ rest := by simp
    have hLength : before.length + 1 = (before ++ [id]).length := by simp
    rw [repeats, List.zipIdx_cons, List.filter_cons]
    simp only [hTake, decide_eq_true_eq]
    rw [hLength, hSplit]
    by_cases hRepeat : id ∈ seen
    · have hSeen' : ∀ other, other ∈ seen ↔ other ∈ before ++ [id] := by
        intro other
        rw [hSeen, List.mem_append, List.mem_singleton]
        exact ⟨Or.inl, fun h => h.elim (fun h => h) fun h => h ▸ (hSeen id).mp hRepeat⟩
      rw [if_pos hRepeat, if_pos ((hSeen id).mp hRepeat), List.map_cons,
        ih seen (before ++ [id]) hSeen']
    · have hSeen' : ∀ other, other ∈ id :: seen ↔ other ∈ before ++ [id] := by
        intro other
        rw [List.mem_cons, hSeen, List.mem_append, List.mem_singleton, or_comm]
      rw [if_neg hRepeat, if_neg fun h => hRepeat ((hSeen id).mpr h),
        ih (id :: seen) (before ++ [id]) hSeen']

theorem repeats_eq_repetitions (texts : List String) : repeats [] texts = repetitions texts :=
  repeats_eq_filter [] [] texts fun _ => Iff.rfl

theorem faults_region (path : String) (region : Region C E A) :
    (Place.ofRegion path region).faults = region.label.violations path (ids region.states) := by
  have hEmpty : (ids region.states).isEmpty = region.states.isEmpty := List.isEmpty_map
  rw [Place.faults, RegionLabel.violations, repeats_eq_repetitions, hEmpty]
  rfl

theorem faults_state (path : String) (around : Region C E A) (state : State C E A) :
    (Place.ofState path around state).faults =
      state.label.unknownTargets path (ids around.states) := rfl

mutual

theorem placesInside_faults (path : String) (state : State C E A) :
    (State.placesInside path state).flatMap Place.faults = State.nestedViolations path state := by
  cases state with
  | atomic => rfl
  | composite label region states =>
    rw [State.placesInside, List.flatMap_cons, faults_region, placesOfStates_faults,
      State.nestedViolations]
termination_by sizeOf state

theorem placesOfStates_faults (path : String) (around : Region C E A)
    (states : List (State C E A)) :
    (placesOfStates path around states).flatMap Place.faults =
      statesViolations path (ids around.states) states := by
  cases states with
  | nil => rfl
  | cons state rest =>
    rw [placesOfStates, List.flatMap_cons, List.flatMap_append, faults_state,
      placesInside_faults path state, placesOfStates_faults path around rest, statesViolations,
      List.append_assoc]
termination_by sizeOf states

end

/-- The check lists exactly the account. -/
theorem violations_eq_account (declaration : Declaration C E A) :
    declaration.violations = declaration.account := by
  rw [violations, account, List.flatMap_assoc]
  congr 2
  funext region
  rw [Region.places, List.flatMap_cons, faults_region, placesOfStates_faults, Region.violations]

end Statechart.Declaration
