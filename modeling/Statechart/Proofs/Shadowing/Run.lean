import Statechart.Proofs.Behaviour
import Statechart.Proofs.Shadowing

/-!
# Runs without the shadowed transitions

Regions that differ in candidates that are never chosen do the same on every path, also on one that
leads nowhere: by recursion on the path each level makes the same choice. So shadowed transitions
can be left out of a declaration, and no caller can tell.
-/

namespace Statechart

variable {C E A S : Type}

namespace Machine

theorem initialPathAt_of_eq_none {states : List (State C E A)} {index : Nat}
    (hState : states[index]? = none) : initialPathAt states index = [] := by
  induction states generalizing index with
  | nil => rw [initialPathAt]
  | cons first rest ih =>
    cases index with
    | zero => cases hState
    | succ index =>
      rw [initialPathAt]
      exact ih (by simpa using hState)

theorem any_isOpen_eq (context : C) (event : E) (candidates : List (Candidate C E)) :
    (candidates.any fun candidate => candidate.isOpen context event) =
      match choose context event candidates with
      | .taken _ => true
      | .undeclared | .refused => false := by
  cases candidates with
  | nil => rfl
  | cons first rest =>
    rw [← List.isSome_find?, choose]
    cases (first :: rest).find? fun candidate => candidate.isOpen context event <;> rfl

variable [Event E]

section Region

variable {region region' : Region C E A}

theorem Region.entryPath_eq (hRegion : region.Relabelled StateLabel.Interchangeable region')
    (index : Nat) : Region.entryPath region' index = Region.entryPath region index := by
  induction region using Statechart.Region.induction generalizing region' index with
  | step region ih =>
    rcases rel_cases (rel_getElem? hRegion.states index) with
      ⟨hNone, hNone'⟩ | ⟨state, state', hState, hState', hSame⟩
    · rw [Region.entryPath, Region.entryPath, initialPathAt_of_eq_none hNone,
        initialPathAt_of_eq_none hNone']
    · rcases rel_cases hSame.rel_nested with
        ⟨hAtomic, hAtomic'⟩ | ⟨inner, inner', hInner, hInner', hInside⟩
      · rw [Region.entryPath_of_atomic hState hAtomic, Region.entryPath_of_atomic hState' hAtomic']
      · rw [Region.entryPath_of_composite hState hInner,
          Region.entryPath_of_composite hState' hInner', hInside.label,
          ih state (List.mem_of_getElem? hState) inner hInner hInside]

theorem forall₂_along {states states' : List (State C E A)}
    (hStates : List.Forall₂ (Node.Relabelled StateLabel.Interchangeable) states states')
    (path : List Nat) :
    List.Forall₂ (Node.Relabelled StateLabel.Interchangeable) (Node.along states path)
      (Node.along states' path) := by
  induction path generalizing states states' with
  | nil => exact .nil
  | cons index below ih =>
    rcases rel_cases (rel_getElem? hStates index) with
      ⟨hNone, hNone'⟩ | ⟨state, state', hState, hState', hSame⟩
    · rw [Node.along, Node.along, hNone, hNone']
      exact .nil
    · rw [Node.along_cons hState, Node.along_cons hState']
      exact .cons hSame (ih hSame.children)

/-- What is read off the labels along a path is the same if it is the same for each label. -/
theorem map_along_eq {β : Type} {shown : State C E A → β}
    (hShown : ∀ state state' : State C E A,
      StateLabel.Interchangeable state.label state'.label → shown state' = shown state)
    (hRegion : region.Relabelled StateLabel.Interchangeable region') (path : List Nat) :
    (Node.along region'.states path).map shown = (Node.along region.states path).map shown :=
  map_eq_of_forall₂ (forall₂_along hRegion.states path).flip
    fun state' state hState => hShown state state' hState.label

theorem Region.names_eq (hRegion : region.Relabelled StateLabel.Interchangeable region')
    (path : List Nat) : Region.names region' path = Region.names region path :=
  map_along_eq (fun _ _ hLabel => hLabel.id) hRegion path

theorem Region.entries_eq (hRegion : region.Relabelled StateLabel.Interchangeable region')
    (path : List Nat) : Region.entries region' path = Region.entries region path := by
  rw [Region.entries, Region.entries, List.flatMap_def, List.flatMap_def]
  exact congrArg List.flatten (map_along_eq (fun _ _ hLabel => hLabel.entry) hRegion path)

theorem Region.exits_eq (hRegion : region.Relabelled StateLabel.Interchangeable region')
    (path : List Nat) : Region.exits region' path = Region.exits region path := by
  rw [Region.exits, Region.exits, List.flatMap_def, List.flatMap_def, List.map_reverse,
    List.map_reverse]
  exact congrArg (fun exits => exits.reverse.flatten)
    (map_along_eq (fun _ _ hLabel => hLabel.exit) hRegion path)

theorem Region.take_eq (hRegion : region.Relabelled StateLabel.Interchangeable region')
    (kind source : String) (path : List Nat) (candidate : Candidate C E) :
    Region.take region' kind source path candidate =
      Region.take region kind source path candidate := by
  simp only [Region.take, hRegion.label, Region.entryPath_eq hRegion, Region.entries_eq hRegion,
    Region.exits_eq hRegion]

/-- Each level makes the same choice, and what is below was equal already. -/
theorem Region.react_eq (hRegion : region.Relabelled StateLabel.Interchangeable region')
    (context : C) (event : E) (path : List Nat) :
    Region.react context event region' path = Region.react context event region path := by
  induction path generalizing region region' with
  | nil => rw [Region.react, Region.react]
  | cons index below ih =>
    rw [Region.react, Region.react]
    rcases rel_cases (rel_getElem? hRegion.states index) with
      ⟨hNone, hNone'⟩ | ⟨state, state', hState, hState', hSame⟩
    · rw [hNone, hNone']
    · rw [hState, hState']
      rcases rel_cases hSame.rel_nested with
        ⟨hAtomic, hAtomic'⟩ | ⟨inner, inner', hInner, hInner', hInside⟩
      · simp only [hAtomic, hAtomic', hRegion.label, hSame.label.id, hSame.label.choose,
          Region.take_eq hRegion]
      · simp only [hInner, hInner', ih hInside, hRegion.label, hSame.label.id,
          hSame.label.choose, Region.take_eq hRegion]

theorem Region.accepts_eq (hRegion : region.Relabelled StateLabel.Interchangeable region')
    (context : C) (event : E) (path : List Nat) :
    Region.accepts context event region' path = Region.accepts context event region path := by
  induction path generalizing region region' with
  | nil => rw [Region.accepts, Region.accepts]
  | cons index below ih =>
    rw [Region.accepts, Region.accepts]
    rcases rel_cases (rel_getElem? hRegion.states index) with
      ⟨hNone, hNone'⟩ | ⟨state, state', hState, hState', hSame⟩
    · rw [hNone, hNone']
    · rw [hState, hState']
      simp only [any_isOpen_eq, hSame.label.choose]
      rcases rel_cases hSame.rel_nested with
        ⟨hAtomic, hAtomic'⟩ | ⟨inner, inner', hInner, hInner', hInside⟩
      · simp only [hAtomic, hAtomic']
      · simp only [hInner, hInner', ih hInside]

theorem Region.behavesAs (hRegion : region.Relabelled StateLabel.Interchangeable region') :
    Region.BehavesAs region region' where
  id := by rw [hRegion.label]
  startPath := by rw [Region.startPath, Region.startPath, hRegion.label, Region.entryPath_eq hRegion]
  startActions := by
    rw [Region.startActions, Region.startActions, Region.startPath, Region.startPath, hRegion.label,
      Region.entryPath_eq hRegion, Region.entries_eq hRegion]
  names := Region.names_eq hRegion
  react := Region.react_eq hRegion
  accepts := Region.accepts_eq hRegion

end Region

theorem behavesAs_of_relabelled {machine machine' : Machine C E A}
    (hMachine : machine.Relabelled StateLabel.Interchangeable machine') :
    BehavesAs machine machine' :=
  ⟨hMachine.id, hMachine.regions.imp fun _ _ hRegion => Region.behavesAs hRegion⟩

end Machine

namespace Execution

variable [Event E] [Action A] [Sink A S]

/-- Shadowed transitions do not show. A declaration without some of them is built too, and after the
same calls, at any times, a caller sees the same configuration, the same answers and log entries, the
same actions and the same history; if the times are the same too, so are those in the history. -/
theorem thinned_showsSame {declaration thinned : Declaration C E A} {machine : Machine C E A}
    (hBuild : declaration.build = .ok machine) (hThinned : declaration.Thinned thinned) :
    ∃ machine', thinned.build = .ok machine' ∧
      ∀ (context : C) (sink : S) (calls : List (Call E)),
        (∀ calls', List.Forall₂ Call.SameButTime calls calls' →
          ShowsSame ((Execution.new machine context (⟨sink, []⟩ : Recorder A S)).calls calls)
            ((Execution.new machine' context ⟨sink, []⟩).calls calls')) ∧
          ((Execution.new machine' context (⟨sink, []⟩ : Recorder A S)).calls calls).history =
            ((Execution.new machine context (⟨sink, []⟩ : Recorder A S)).calls calls).history := by
  obtain ⟨machine', hBuild', hMachine⟩ := Declaration.exists_build_of_thinned hBuild hThinned
  refine ⟨machine', hBuild', ?_⟩
  intro context sink calls
  have hNew : BehavesAs (Execution.new machine context (⟨sink, []⟩ : Recorder A S))
      (Execution.new machine' context ⟨sink, []⟩) :=
    ⟨Machine.behavesAs_of_relabelled hMachine, rfl, rfl, rfl⟩
  refine ⟨?_, hNew.history_calls rfl calls⟩
  intro calls' hCalls
  exact (hNew.calls hCalls).showsSame (hNew.untimed_calls rfl hCalls)

/-- The policy with three more rows, each of them shadowed: one for the state that waits for the pot,
two for the warmer that is on. -/
def policyWithShadowedRows : Declaration MarkIV.Context MarkIV.Event MarkIV.Action :=
  let waits := MarkIV.Policy.brewRun.states.modify 1 fun waiting =>
    Declaration.State.on waiting "POT_PARTIAL" "waiting"
  let brews := MarkIV.Policy.brewControl.states.modify 1 fun brewRun =>
    Declaration.State.withRegion brewRun ⟨MarkIV.Policy.brewRun.label, waits⟩
  let warms := MarkIV.Policy.warmerControl.states.modify 1 fun warmRun =>
    Declaration.State.on (Declaration.State.onIf warmRun "POT_EMPTIED" "warmRun"
      ⟨fun _ _ => true⟩) "POT_REMOVED" "warmRun"
  ⟨MarkIV.Policy.declaration.id, [⟨MarkIV.Policy.brewControl.label, brews⟩,
    ⟨MarkIV.Policy.warmerControl.label, warms⟩]⟩

open MarkIV in
theorem policy_with_shadowed_rows_showsSame :
    policyWithShadowedRows.Thinned Policy.declaration ∧
    ∃ machine machine', policyWithShadowedRows.build = .ok machine ∧
      Policy.declaration.build = .ok machine' ∧
      ∃ now now' : Execution Unit MarkIV.Event MarkIV.Action (Recorder MarkIV.Action Unit),
        (Execution.new machine () ⟨(), []⟩).calls [.withHistory 2, .start,
          .process (.brewClicked false true) ⟨0, 0⟩, .process .potRemoved ⟨1, 0⟩,
          .process .potPartial ⟨2, 0⟩, .process .potEmptied ⟨3, 0⟩] = now ∧
        (Execution.new machine' () ⟨(), []⟩).calls [.withHistory 2, .start,
          .process (.brewClicked false true) ⟨0, 0⟩, .process .potRemoved ⟨1, 0⟩,
          .process .potPartial ⟨2, 0⟩, .process .potEmptied ⟨3, 0⟩] = now' ∧
        now.active = some [[1, 0], [0]] ∧ ShowsSame now now' ∧ now'.history = now.history := by
  have hThinned : policyWithShadowedRows.Thinned Policy.declaration := by
    refine ⟨rfl, .cons ⟨rfl, ?_⟩ (.cons ⟨rfl, ?_⟩ .nil)⟩
    · refine .cons (.atomic (.refl _)) (.cons (.composite _ (.refl _) ?_)
        (.cons (.atomic (.refl _)) .nil))
      refine .cons (.atomic (.refl _)) (.cons (.atomic ⟨rfl, rfl, rfl, ?_⟩) .nil)
      exact .keep (.keep (.drop ⟨_, List.mem_cons_self, rfl, rfl⟩ (.nil _)))
    · refine .cons (.atomic (.refl _)) (.cons (.atomic ⟨rfl, rfl, rfl, ?_⟩) .nil)
      exact .keep (.keep (.drop ⟨_, List.mem_cons_self, rfl, rfl⟩
        (.drop ⟨_, List.mem_cons_of_mem _ List.mem_cons_self, rfl, rfl⟩ (.nil _))))
  obtain ⟨machine, hBuild⟩ : ∃ machine, policyWithShadowedRows.build = .ok machine := ⟨_, rfl⟩
  obtain ⟨machine', hBuild', hShows⟩ :=
    thinned_showsSame (A := MarkIV.Action) (S := Unit) hBuild hThinned
  refine ⟨hThinned, machine, machine', hBuild, hBuild', _, _, rfl, rfl, ?_,
    (hShows () () _).1 _ (List.forall₂_same.mpr fun call _ => .same call), (hShows () () _).2⟩
  cases hBuild
  rfl

end Execution

end Statechart
