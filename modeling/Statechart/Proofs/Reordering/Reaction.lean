import Statechart.Proofs.Acceptance
import Statechart.Proofs.Reordering

/-!
# Reactions of regions that are alike

Two regions that are alike, on paths through states of the same ids, answer an event with the same
effects and go on to paths through states of the same ids. So the positions of the states, which
the paths and the targets are made of, do not show in what a region does.
-/

namespace Statechart.Machine

variable {C E A : Type}

/-- Two paths down to atomic states, through states of the same ids. -/
inductive Region.TwinPaths : Region C E A → Region C E A → List Nat → List Nat → Prop
  | atomic {region region' : Region C E A} {index index' : Nat} {state state' : State C E A} :
      region.states[index]? = some state → region'.states[index']? = some state' →
      state'.label.id = state.label.id → state.nested = none → state'.nested = none →
      TwinPaths region region' [index] [index']
  | composite {region region' inner inner' : Region C E A} {index index' : Nat}
      {state state' : State C E A} {below below' : List Nat} :
      region.states[index]? = some state → region'.states[index']? = some state' →
      state'.label.id = state.label.id → state.nested = some inner → state'.nested = some inner' →
      TwinPaths inner inner' below below' →
      TwinPaths region region' (index :: below) (index' :: below')

section Paths

variable {region region' : Region C E A} {path path' : List Nat}

theorem Region.TwinPaths.fullPath (hPaths : Region.TwinPaths region region' path path') :
    region.FullPath path ∧ region'.FullPath path' := by
  induction hPaths with
  | atomic hState hState' _ hAtomic hAtomic' =>
    exact ⟨.atomic hState hAtomic, .atomic hState' hAtomic'⟩
  | composite hState hState' _ hInner hInner' _ ih =>
    exact ⟨.composite hState hInner ih.1, .composite hState' hInner' ih.2⟩

theorem Region.Alike.twinPaths_entryPath (hAlike : Region.Alike region region') {index index' : Nat}
    (hTwins : Region.Twins region region' index index') :
    Region.TwinPaths region region' (Region.entryPath region index)
      (Region.entryPath region' index') := by
  induction region using Statechart.Region.induction generalizing region' index index' with
  | step region ih =>
    obtain ⟨state, state', hState, hState', hSame⟩ := hTwins
    rcases hAlike.nested hState hState' hSame with
      ⟨hAtomic, hAtomic'⟩ | ⟨inner, inner', hInner, hInner', hInside⟩
    · rw [Region.entryPath_of_atomic hState hAtomic, Region.entryPath_of_atomic hState' hAtomic']
      exact .atomic hState hState' hSame hAtomic hAtomic'
    · rw [Region.entryPath_of_composite hState hInner,
        Region.entryPath_of_composite hState' hInner']
      exact .composite hState hState' hSame hInner hInner'
        (ih state (List.mem_of_getElem? hState) inner hInner hInside hInside.initial)

/-- The active states show the same ids and the same actions. -/
theorem Region.TwinPaths.shown (hPaths : Region.TwinPaths region region' path path')
    (hAlike : Region.Alike region region') :
    Region.names region' path' = Region.names region path ∧
      Region.entries region' path' = Region.entries region path ∧
      Region.exits region' path' = Region.exits region path := by
  induction hPaths with
  | atomic hState hState' hSame =>
    have hLabel := hAlike.label hState hState' hSame
    rw [Region.names_atomic hState, Region.names_atomic hState', Region.entries_atomic hState,
      Region.entries_atomic hState', Region.exits_atomic hState, Region.exits_atomic hState', hSame,
      hLabel.entry, hLabel.exit]
    exact ⟨rfl, rfl, rfl⟩
  | composite hState hState' hSame hInner hInner' _ ih =>
    have hLabel := hAlike.label hState hState' hSame
    obtain ⟨hNames, hEntries, hExits⟩ := ih (hAlike.inner hState hState' hSame hInner hInner')
    rw [Region.names_composite hState hInner, Region.names_composite hState' hInner',
      Region.entries_composite hState hInner, Region.entries_composite hState' hInner',
      Region.exits_composite hState hInner, Region.exits_composite hState' hInner', hSame,
      hLabel.entry, hLabel.exit, hNames, hEntries, hExits]
    exact ⟨rfl, rfl, rfl⟩

end Paths

/-! ## Reactions -/

section Candidates

variable {region region' : Region C E A}

theorem Candidate.Alike.isOpen {candidate candidate' : Candidate C E}
    (hCandidate : Candidate.Alike region region' candidate candidate') (context : C) (event : E) :
    candidate'.isOpen context event = candidate.isOpen context event := by
  rw [Candidate.isOpen, Candidate.isOpen, hCandidate.guard]

variable {candidates candidates' : List (Candidate C E)}
  (hCandidates : List.Forall₂ (Candidate.Alike region region') candidates candidates')

include hCandidates

/-- The first open candidates stand in the same place. -/
theorem rel_find? (context : C) (event : E) :
    Option.Rel (Candidate.Alike region region')
      (candidates.find? fun candidate => candidate.isOpen context event)
      (candidates'.find? fun candidate => candidate.isOpen context event) := by
  induction hCandidates with
  | nil => exact .none
  | @cons candidate candidate' _ _ hFirst _ ih =>
    rw [List.find?_cons, List.find?_cons, hFirst.isOpen]
    cases candidate.isOpen context event with
    | true => exact .some hFirst
    | false => exact ih

theorem choose_alike (context : C) (event : E) :
    (choose context event candidates = .undeclared ∧
        choose context event candidates' = .undeclared) ∨
      (choose context event candidates = .refused ∧ choose context event candidates' = .refused) ∨
      ∃ candidate candidate', choose context event candidates = .taken candidate ∧
        choose context event candidates' = .taken candidate' ∧
        Candidate.Alike region region' candidate candidate' := by
  have hFound := rel_cases (rel_find? hCandidates context event)
  cases hCandidates with
  | nil => exact Or.inl ⟨rfl, rfl⟩
  | cons _ _ =>
    right
    rcases hFound with ⟨hNone, hNone'⟩ | ⟨candidate, candidate', hSome, hSome', hCandidate⟩
    · left
      simp only [choose, hNone, hNone', and_self]
    · right
      refine ⟨candidate, candidate', ?_, ?_, hCandidate⟩
      · simp only [choose, hSome]
      · simp only [choose, hSome']

end Candidates

/-- The same effects, and paths through states of the same ids if there was a transition. -/
structure Reaction.Alike (region region' : Region C E A) (reaction reaction' : Reaction A) :
    Prop where
  effects : reaction'.effects = reaction.effects
  path : Option.Rel (Region.TwinPaths region region') reaction.path reaction'.path

section Reactions

variable {region region' : Region C E A} {path path' : List Nat}

theorem Region.Alike.take (hAlike : Region.Alike region region')
    (hPaths : Region.TwinPaths region region' path path') {candidate candidate' : Candidate C E}
    (hCandidate : Candidate.Alike region region' candidate candidate') (kind source : String) :
    Reaction.Alike region region' (Region.take region kind source path candidate)
      (Region.take region' kind source path' candidate') := by
  have hEntered := hAlike.twinPaths_entryPath hCandidate.target
  obtain ⟨_, _, hExits⟩ := hPaths.shown hAlike
  obtain ⟨_, hEntries, _⟩ := hEntered.shown hAlike
  refine ⟨?_, .some hEntered⟩
  rw [Region.take, Region.take, hAlike.id, hCandidate.targetId, hExits, hEntries]

theorem Reaction.Alike.moved {reaction reaction' : Reaction A}
    (hReaction : Reaction.Alike region region' reaction reaction') :
    reaction'.moved = reaction.moved := by
  rcases rel_cases hReaction.path with ⟨hIdle, hIdle'⟩ | ⟨_, _, hMoved, hMoved', _⟩
  · rw [Reaction.moved, Reaction.moved, hIdle, hIdle']
  · rw [Reaction.moved, Reaction.moved, hMoved, hMoved']
    rfl

variable [Event E] (context : C) (event : E)

theorem Region.Alike.ownReaction (hAlike : Region.Alike region region')
    (hPaths : Region.TwinPaths region region' path path') {state state' : State C E A}
    (hLabel : StateLabel.Alike region region' state.label state'.label) :
    Reaction.Alike region region' (Region.ownReaction context event region path state)
      (Region.ownReaction context event region' path' state') := by
  rw [Region.ownReaction, Region.ownReaction, hLabel.id, hAlike.id]
  rcases choose_alike (hLabel.candidates (Event.kind event)) context event with
    ⟨hChoose, hChoose'⟩ | ⟨hChoose, hChoose'⟩ | ⟨_, _, hChoose, hChoose', hCandidate⟩
  · rw [hChoose, hChoose']
    exact ⟨rfl, .none⟩
  · rw [hChoose, hChoose']
    exact ⟨rfl, .none⟩
  · rw [hChoose, hChoose']
    exact hAlike.take hPaths hCandidate _ _

/-- Regions that are alike react alike. -/
theorem Region.Alike.react (hAlike : Region.Alike region region')
    (hPaths : Region.TwinPaths region region' path path') :
    Reaction.Alike region region' (Region.react context event region path)
      (Region.react context event region' path') := by
  induction hPaths with
  | atomic hState hState' hSame hAtomic hAtomic' =>
    rw [react_of_atomic hState hAtomic, react_of_atomic hState' hAtomic']
    exact hAlike.ownReaction context event (.atomic hState hState' hSame hAtomic hAtomic')
      (hAlike.label hState hState' hSame)
  | composite hState hState' hSame hInner hInner' hBelow ih =>
    have hInside := ih (hAlike.inner hState hState' hSame hInner hInner')
    rcases rel_cases hInside.path with ⟨hIdle, hIdle'⟩ | ⟨after, after', hMoved, hMoved', hAfter⟩
    · have hOwn := hAlike.ownReaction context event
        (.composite hState hState' hSame hInner hInner' hBelow) (hAlike.label hState hState' hSame)
      rw [react_of_inner_idle hState hInner hIdle, react_of_inner_idle hState' hInner' hIdle']
      exact ⟨congrArg₂ (· ++ ·) hInside.effects hOwn.effects, hOwn.path⟩
    · rw [react_of_inner_moved hState hInner hMoved, react_of_inner_moved hState' hInner' hMoved']
      exact ⟨hInside.effects, .some (.composite hState hState' hSame hInner hInner' hAfter)⟩

theorem Region.Alike.accepts (hAlike : Region.Alike region region')
    (hPaths : Region.TwinPaths region region' path path') :
    Region.accepts context event region' path' = Region.accepts context event region path := by
  obtain ⟨hPath, hPath'⟩ := hPaths.fullPath
  rw [Region.accepts_eq_moved hPath, Region.accepts_eq_moved hPath']
  exact (hAlike.react context event hPaths).moved

theorem Region.Alike.twinPaths_after (hAlike : Region.Alike region region')
    (hPaths : Region.TwinPaths region region' path path') :
    Region.TwinPaths region region' (Region.after context event region path)
      (Region.after context event region' path') := by
  rw [Region.after, Region.after]
  rcases rel_cases (hAlike.react context event hPaths).path with
    ⟨hIdle, hIdle'⟩ | ⟨after, after', hMoved, hMoved', hAfter⟩
  · rw [hIdle, hIdle']
    exact hPaths
  · rw [hMoved, hMoved']
    exact hAfter

end Reactions

end Statechart.Machine
