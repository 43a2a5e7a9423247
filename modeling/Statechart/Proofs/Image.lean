import Statechart.MarkIV.Policy
import Statechart.Proofs.WellFormed

/-!
# The image of a declaration

A machine is the image of a declaration when every region of it, at whatever depth, has the ids,
the actions and the nesting declared at the same place, its initial state and its targets are the
states of the declared ids, and the candidates of each event kind are the transitions declared on
it, in order. Resolving a declaration without violations never fails, and yields its image.
-/

namespace Statechart.Declaration

variable {C E A : Type}

structure Transition.Image (ids : List String) (transition : Transition C E)
    (candidate : Machine.Candidate C E) : Prop where
  targetId : candidate.targetId = transition.target
  guard : candidate.guard = transition.guard
  target : ids[candidate.target]? = some transition.target

structure StateLabel.Image (ids : List String) (declared : StateLabel C E A)
    (label : Machine.StateLabel C E A) : Prop where
  id : label.id = declared.id
  entry : label.entry = declared.entry
  exit : label.exit = declared.exit
  candidates : ∀ kind, List.Forall₂ (Transition.Image ids)
    (declared.transitions.filter fun transition => transition.event = kind) (label.candidates kind)
  kinds : ∀ kind, kind ∈ label.kinds ↔ ∃ transition ∈ declared.transitions, transition.event = kind
  kinds_nodup : label.kinds.Nodup

def siblings (region : Machine.Region C E A) : List String :=
  region.states.map fun state => state.label.id

/-- A region with the states declared, in order. Its initial state is the one state that carries
the declared initial id. -/
structure Region.Image (declared : Region C E A) (region : Machine.Region C E A) : Prop where
  id : region.label.id = declared.label.id
  length : region.states.length = declared.states.length
  states : ∀ (index : Nat) (state : State C E A) (state' : Machine.State C E A),
    declared.states[index]? = some state → region.states[index]? = some state' →
      state.label.Image (siblings region) state'.label ∧ state'.isComposite = state.isComposite
  initial : ∃ id, declared.label.initial = some id ∧
    ∀ index, (siblings region)[index]? = some id ↔ index = region.label.initial

/-- The machine has the id and the top-level regions declared, in order, and is faithful to the
declaration at every depth. -/
structure Image (declaration : Declaration C E A) (machine : Machine C E A) : Prop where
  id : machine.id = declaration.id
  length : machine.regions.length = declaration.regions.length
  regions : ∀ region region', declaration.SamePlace machine region region' →
    Region.Image region region'

/-! ## Positions -/

theorem getElem?_of_position? {id : String} {texts : List String} {index : Nat}
    (h : position? id texts = some index) : texts[index]? = some id := by
  induction texts generalizing index with
  | nil => cases h
  | cons other rest ih =>
    rw [position?] at h
    split at h
    · rename_i found hFound
      cases h
      exact ih hFound
    · split at h
      · rename_i hEq
        cases h
        simp [hEq]
      · cases h

theorem exists_position? {id : String} {texts : List String} (hId : id ∈ texts) :
    ∃ index, position? id texts = some index := by
  induction texts with
  | nil => cases hId
  | cons other rest ih =>
    rw [position?]
    cases hRest : position? id rest with
    | some found => exact ⟨found + 1, rfl⟩
    | none =>
      refine ⟨0, if_pos ?_⟩
      rcases List.mem_cons.mp hId with hEq | hLater
      · exact hEq.symm
      · obtain ⟨index, hIndex⟩ := ih hLater
        rw [hRest] at hIndex
        cases hIndex

theorem getElem?_eq_some_iff_of_nodup {texts : List String} (hDistinct : texts.Nodup) {id : String}
    {position : Nat} (hPosition : texts[position]? = some id) (index : Nat) :
    texts[index]? = some id ↔ index = position := by
  constructor
  · intro hIndex
    have hLess : index < texts.length := (List.getElem?_eq_some_iff.mp hIndex).1
    exact (List.getElem?_inj hLess hDistinct).mp (hIndex.trans hPosition.symm)
  · rintro rfl
    exact hPosition

theorem Transition.exists_resolve_image (path state : String) {ids : List String}
    {transition : Transition C E} (hTarget : transition.target ∈ ids) :
    ∃ candidate, transition.resolve path state ids = .ok candidate ∧
      transition.Image ids candidate := by
  obtain ⟨target, hPosition⟩ := exists_position? hTarget
  exact ⟨⟨target, transition.target, transition.guard⟩, by rw [Transition.resolve, hPosition],
    rfl, rfl, getElem?_of_position? hPosition⟩

/-! ## Grouping by kind -/

section Grouping

variable (kind : String) (candidate : Machine.Candidate C E)
  (table : List (String × List (Machine.Candidate C E)))

theorem lookup_addCandidate (other : String) :
    ((addCandidate kind candidate table).lookup other).getD [] =
      (table.lookup other).getD [] ++ if kind = other then [candidate] else [] := by
  induction table with
  | nil =>
    by_cases h : kind = other
    · simp [addCandidate, h]
    · simp [addCandidate, List.lookup_cons, h, beq_eq_false_iff_ne.mpr (Ne.symm h)]
  | cons entry rest ih =>
    obtain ⟨known, candidates⟩ := entry
    rw [addCandidate]
    by_cases hKind : known = kind
    · subst hKind
      rw [if_pos rfl]
      by_cases h : known = other
      · simp [h]
      · simp [List.lookup_cons, h, beq_eq_false_iff_ne.mpr (Ne.symm h)]
    · rw [if_neg hKind]
      by_cases h : other = known
      · subst h
        simp [Ne.symm hKind]
      · simpa [List.lookup_cons, beq_eq_false_iff_ne.mpr h] using ih

theorem mem_keys_addCandidate (other : String) :
    other ∈ (addCandidate kind candidate table).map (·.1) ↔
      other ∈ table.map (·.1) ∨ kind = other := by
  induction table with
  | nil => simp [addCandidate, eq_comm]
  | cons entry rest ih =>
    obtain ⟨known, candidates⟩ := entry
    rw [addCandidate]
    by_cases hKind : known = kind
    · subst hKind
      rw [if_pos rfl]
      simp only [List.map_cons, List.mem_cons]
      constructor
      · exact Or.inl
      · rintro (h | rfl)
        · exact h
        · exact Or.inl rfl
    · rw [if_neg hKind, List.map_cons, List.mem_cons, ih, List.map_cons, List.mem_cons, or_assoc]

theorem nodup_keys_addCandidate (hTable : (table.map (·.1)).Nodup) :
    ((addCandidate kind candidate table).map (·.1)).Nodup := by
  induction table with
  | nil => simp [addCandidate]
  | cons entry rest ih =>
    obtain ⟨known, candidates⟩ := entry
    rw [List.map_cons, List.nodup_cons] at hTable
    rw [addCandidate]
    by_cases hKind : known = kind
    · rw [if_pos hKind, List.map_cons, List.nodup_cons]
      exact hTable
    · rw [if_neg hKind, List.map_cons, List.nodup_cons, mem_keys_addCandidate]
      exact ⟨fun h => h.elim hTable.1 fun h => hKind h.symm, ih hTable.2⟩

end Grouping

/-! ## Resolving -/

/-- Adding known transitions to a table in order never fails. It puts the candidates of each kind
after those that the table had, and adds the kinds that it did not have. -/
theorem exists_foldlM_addCandidate (path state : String) (ids : List String)
    (transitions : List (Transition C E))
    (hTargets : ∀ transition ∈ transitions, transition.target ∈ ids)
    (table : List (String × List (Machine.Candidate C E))) (hTable : (table.map (·.1)).Nodup) :
    ∃ table', transitions.foldlM (fun table transition => do
        return addCandidate transition.event (← transition.resolve path state ids) table) table =
          (.ok table' : Except Violation _) ∧
      (∀ kind, ∃ added, (table'.lookup kind).getD [] = (table.lookup kind).getD [] ++ added ∧
        List.Forall₂ (Transition.Image ids)
          (transitions.filter fun transition => transition.event = kind) added) ∧
      (∀ kind, kind ∈ table'.map (·.1) ↔
        kind ∈ table.map (·.1) ∨ ∃ transition ∈ transitions, transition.event = kind) ∧
      (table'.map (·.1)).Nodup := by
  induction transitions generalizing table with
  | nil => exact ⟨table, rfl, fun _ => ⟨[], by simp, .nil⟩, by simp, hTable⟩
  | cons transition rest ih =>
    obtain ⟨candidate, hResolve, hCandidate⟩ := transition.exists_resolve_image path state
      (hTargets transition List.mem_cons_self)
    obtain ⟨table', hRest, hLookup, hKinds, hDistinct⟩ :=
      ih (fun t h => hTargets t (List.mem_cons_of_mem _ h))
        (addCandidate transition.event candidate table)
        (nodup_keys_addCandidate transition.event candidate table hTable)
    refine ⟨table', ?_, ?_, ?_, hDistinct⟩
    · rw [List.foldlM_cons, hResolve]
      exact hRest
    · intro kind
      obtain ⟨added, hAdded, hImages⟩ := hLookup kind
      rw [lookup_addCandidate, List.append_assoc] at hAdded
      refine ⟨_, hAdded, ?_⟩
      by_cases hKind : transition.event = kind
      · rw [List.filter_cons_of_pos (by simpa using hKind), if_pos hKind]
        exact .cons hCandidate hImages
      · rw [List.filter_cons_of_neg (by simpa using hKind), if_neg hKind]
        exact hImages
    · intro kind
      rw [hKinds, mem_keys_addCandidate, or_assoc, List.exists_mem_cons_iff]

theorem StateLabel.exists_resolve_image (path : String) (ids : List String)
    (declared : StateLabel C E A)
    (hTargets : ∀ transition ∈ declared.transitions, transition.target ∈ ids) :
    ∃ label, declared.resolve path ids = .ok label ∧ declared.Image ids label := by
  obtain ⟨table, hTable, hLookup, hKinds, hDistinct⟩ :=
    exists_foldlM_addCandidate path declared.id ids declared.transitions hTargets [] List.nodup_nil
  refine ⟨⟨declared.id, declared.entry, declared.exit, table⟩, ?_, rfl, rfl, rfl, ?_, ?_, hDistinct⟩
  · rw [StateLabel.resolve, hTable]
    rfl
  · intro kind
    obtain ⟨added, hAdded, hImages⟩ := hLookup kind
    rw [Machine.StateLabel.candidates, hAdded]
    exact hImages
  · intro kind
    rw [Machine.StateLabel.kinds, hKinds]
    simp

theorem RegionLabel.exists_resolve (path : String) {ids : List String} {region : RegionLabel}
    {id : String} (hInitial : region.initial = some id) (hId : id ∈ ids) :
    ∃ index, region.resolve path ids = .ok ⟨region.id, index⟩ ∧ ids[index]? = some id := by
  obtain ⟨index, hIndex⟩ := exists_position? hId
  refine ⟨index, ?_, getElem?_of_position? hIndex⟩
  rw [RegionLabel.resolve, hInitial]
  simp only [hIndex]

def Region.DeepImage (region : Region C E A) (region' : Machine.Region C E A) : Prop :=
  ∀ inner inner', Region.SamePlace region region' inner inner' → Region.Image inner inner'

structure State.Image (ids : List String) (state : State C E A) (state' : Machine.State C E A) :
    Prop where
  label : state.label.Image ids state'.label
  isComposite : state'.isComposite = state.isComposite
  nested : ∀ inner inner', state.nested = some inner → state'.nested = some inner' →
    Region.DeepImage inner inner'

theorem State.resolve_composite (path : String) (known : List String) (label : StateLabel C E A)
    (region : RegionLabel) (states : List (State C E A)) :
    State.resolve path known (.composite label region states) = (do
      let label' ← label.resolve path known
      let inner ← Region.resolve (innerPath path label.id) ⟨region, states⟩
      return .composite label' inner.label inner.states) := by
  rw [State.resolve, Region.resolve]
  cases label.resolve path known with
  | error => rfl
  | ok label' =>
    cases region.resolve (innerPath path label.id) (ids states) with
    | error => rfl
    | ok region' => cases resolveStates (innerPath path label.id) (ids states) states <;> rfl

theorem State.exists_resolve_image (path : String) (ids : List String) (state : State C E A)
    (hTargets : ∀ transition ∈ state.label.transitions, transition.target ∈ ids)
    (hNested : ∀ inner, state.nested = some inner →
      ∃ inner', Region.resolve (innerPath path state.label.id) inner = .ok inner' ∧
        Region.DeepImage inner inner') :
    ∃ state', State.resolve path ids state = .ok state' ∧ State.Image ids state state' := by
  obtain ⟨label, hLabel, hImage⟩ := state.label.exists_resolve_image path ids hTargets
  cases state with
  | atomic declared =>
    rw [Node.label] at hLabel
    exact ⟨.atomic label, by rw [State.resolve, hLabel]; rfl, hImage, rfl, by rintro _ _ ⟨⟩⟩
  | composite declared region states =>
    rw [Node.label] at hLabel
    obtain ⟨inner, hInner, hDeep⟩ := hNested ⟨region, states⟩ rfl
    rw [Node.label] at hInner
    refine ⟨.composite label inner.label inner.states, ?_, hImage, rfl, ?_⟩
    · rw [State.resolve_composite, hLabel, hInner]
      rfl
    · rintro _ _ ⟨⟩ ⟨⟩
      exact hDeep

theorem exists_mapM_forall₂ {α β ε : Type} {pass : α → Except ε β} {related : α → β → Prop}
    {entries : List α} (h : ∀ a ∈ entries, ∃ b, pass a = .ok b ∧ related a b) :
    ∃ results, entries.mapM pass = .ok results ∧ List.Forall₂ related entries results := by
  induction entries with
  | nil => exact ⟨[], rfl, .nil⟩
  | cons a rest ih =>
    obtain ⟨b, hB, hRelated⟩ := h a List.mem_cons_self
    obtain ⟨results, hResults, hRest⟩ := ih fun a hA => h a (List.mem_cons_of_mem _ hA)
    refine ⟨b :: results, ?_, .cons hRelated hRest⟩
    rw [List.mapM_cons, hB, hResults]
    rfl

theorem resolveStates_eq_mapM (path : String) (known : List String) (states : List (State C E A)) :
    resolveStates path known states = states.mapM (State.resolve path known) := by
  induction states with
  | nil => rfl
  | cons state rest ih => rw [resolveStates, List.mapM_cons, ih]

theorem siblings_eq_ids {known : List String} {states : List (State C E A)}
    {states' : List (Machine.State C E A)} (hImages : List.Forall₂ (State.Image known) states states')
    (label : Machine.RegionLabel) : siblings ⟨label, states'⟩ = ids states := by
  induction hImages with
  | nil => rfl
  | cons hImage _ ih =>
    rw [siblings, ids, List.map_cons, List.map_cons, hImage.label.id] at *
    rw [ih]

theorem Region.DeepImage.intro {region : Region C E A} {region' : Machine.Region C E A}
    (hImage : Region.Image region region')
    (hStates : List.Forall₂ (State.Image (ids region.states)) region.states region'.states) :
    Region.DeepImage region region' := by
  intro inner inner' hPlace
  cases hPlace with
  | here => exact hImage
  | inside hState hState' hNext hNext' hInner =>
    exact (forall₂_getElem? hStates hState hState').nested _ _ hNext hNext' inner inner' hInner

theorem Region.exists_resolve_image (path : String) (region : Region C E A)
    (hRegion : Region.violations path region = []) :
    ∃ region', Region.resolve path region = .ok region' ∧ Region.DeepImage region region' := by
  induction region using Statechart.Region.induction generalizing path with
  | step region ih =>
    obtain ⟨hFormed, hInside⟩ := (region_violations_eq_nil_step path region).mp hRegion
    obtain ⟨id, hId, hInitial⟩ := hFormed.initial
    obtain ⟨index, hLabel, hIndex⟩ := RegionLabel.exists_resolve path hInitial hId
    obtain ⟨states', hStates, hImages⟩ := exists_mapM_forall₂ fun state hState =>
      State.exists_resolve_image path (ids region.states) state (hFormed.targets state hState) fun inner hInner =>
        ih state hState inner hInner _ (hInside state hState inner hInner)
    refine ⟨⟨⟨region.label.id, index⟩, states'⟩, ?_, .intro ?_ hImages⟩
    · rw [Region.resolve, hLabel, resolveStates_eq_mapM, hStates]
      rfl
    · have hSiblings := siblings_eq_ids hImages ⟨region.label.id, index⟩
      refine ⟨rfl, hImages.length_eq.symm, ?_, id, hInitial, ?_⟩
      · intro position state state' hState hState'
        have hState := forall₂_getElem? hImages hState hState'
        rw [hSiblings]
        exact ⟨hState.label, hState.isComposite⟩
      · rw [hSiblings]
        exact getElem?_eq_some_iff_of_nodup hFormed.distinct hIndex

theorem exists_resolve_image {declaration : Declaration C E A}
    (hDeclaration : declaration.violations = []) :
    ∃ machine, declaration.resolve = .ok machine ∧ declaration.Image machine := by
  obtain ⟨_, hRegions⟩ := List.append_eq_nil_iff.mp hDeclaration
  have hEach := List.flatMap_eq_nil_iff.mp hRegions
  obtain ⟨regions', hResolve, hImages⟩ : ∃ regions',
      (declaration.regions.mapM fun region => Region.resolve region.label.id region) =
        (.ok regions' : Except Violation _) ∧
      List.Forall₂ Region.DeepImage declaration.regions regions' :=
    exists_mapM_forall₂ fun region hRegion => Region.exists_resolve_image _ region (hEach region hRegion)
  refine ⟨⟨declaration.id, regions'⟩, ?_, rfl, hImages.length_eq.symm, ?_⟩
  · rw [resolve, hResolve]
    rfl
  · rintro inner inner' ⟨index, region, region', hRegion, hRegion', hPlace⟩
    exact forall₂_getElem? hImages hRegion hRegion' inner inner' hPlace

theorem build_of_violations_eq_nil {declaration : Declaration C E A}
    (hDeclaration : declaration.violations = []) {machine : Machine C E A}
    (hResolve : declaration.resolve = .ok machine) : declaration.build = .ok machine := by
  rw [build, hDeclaration, hResolve]
  rfl

theorem build_of_violations_ne_nil {declaration : Declaration C E A}
    (hDeclaration : declaration.violations ≠ []) :
    declaration.build = .error ⟨declaration.violations⟩ := by
  rw [build]
  split
  · contradiction
  · rfl

/-- A declaration is built exactly if it is well formed, and otherwise refused with its account. -/
theorem build_ok_iff_wellFormed_and_error_account (declaration : Declaration C E A) :
    ((∃ machine, declaration.build = .ok machine) ↔ declaration.WellFormed) ∧
      (declaration.build = .error ⟨declaration.account⟩ ↔ ¬ declaration.WellFormed) := by
  rw [← violations_eq_nil_iff, ← violations_eq_account]
  by_cases hViolations : declaration.violations = []
  · obtain ⟨machine, hResolve, _⟩ := exists_resolve_image hViolations
    have hBuild := build_of_violations_eq_nil hViolations hResolve
    simp [hBuild, hViolations]
  · have hBuild := build_of_violations_ne_nil hViolations
    simp [hBuild, hViolations]

/-- After the check nothing can go wrong: resolving succeeds, and the machine that is built is the
image of the declaration. -/
theorem build_image_of_no_violations {declaration : Declaration C E A}
    (hDeclaration : declaration.violations = []) :
    ∃ machine, declaration.resolve = .ok machine ∧ declaration.build = .ok machine ∧
      declaration.Image machine := by
  obtain ⟨machine, hResolve, hImage⟩ := exists_resolve_image hDeclaration
  exact ⟨machine, hResolve, build_of_violations_eq_nil hDeclaration hResolve, hImage⟩

open MarkIV in
theorem policy_build_image : Policy.declaration.violations = [] ∧
    ∃ machine, Policy.declaration.resolve = .ok machine ∧
      Policy.declaration.build = .ok machine ∧ Policy.declaration.Image machine :=
  ⟨by decide, build_image_of_no_violations (by decide)⟩

end Statechart.Declaration
