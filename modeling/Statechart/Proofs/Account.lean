import Statechart.Proofs.Composite
import Statechart.Proofs.Names

/-!
# What a reaction reports

Where no candidate is open, a state that has candidates for the event reports that it refused. A
region asks its active states from the innermost outwards, so that the states further in than the
one that takes the event report, each in the name of the region that directly holds it, and then
the transition is reported. This is the account of the active states as a list; every reaction of a
region on a full path reports it, and reports nothing else.
-/

namespace Statechart

variable {C E A S : Type}

namespace Flat

structure Refusal where
  region : String
  state : String
  deriving DecidableEq, Repr

structure Move where
  region : String
  source : String
  target : String
  deriving DecidableEq, Repr

/-- What a region has to report of an event, in order. -/
structure Account (A : Type) where
  refusals : List Refusal
  transition : Option Move
  performed : List A

def refusal? (kind : String) (holding : Machine.Region C E A) (seat : Seat C E A) :
    Option Refusal :=
  if (seat.state.label.candidates kind).isEmpty then none
  else some ⟨holding.label.id, seat.state.label.id⟩

/-- What the states from a level inwards report when none of them takes the event, the innermost
one first. -/
def refusals (kind : String) (region : Machine.Region C E A) (seats : List (Seat C E A))
    (level : Nat) : List Refusal :=
  (seats.zipIdx.drop level).reverse.filterMap fun (seat, level) =>
    (holder region seats level).bind fun holding => refusal? kind holding seat

section Step

variable [Event E] (context : C) (event : E) (region : Machine.Region C E A)
  (seats : List (Seat C E A))

/-- The active states after an event, and the account of it. The target of a transition goes by the
id of the state that is entered first. -/
inductive Accounts : List (Seat C E A) → Account A → Prop
  | takes {level : Nat} {seat first : Seat C E A} {candidate : Machine.Candidate C E}
      {holding : Machine.Region C E A} {inside : List (Seat C E A)} :
      seats[level]? = some seat →
      Machine.State.choice context event seat.state = some candidate →
      (∀ (deeper : Nat) (other : Seat C E A), level < deeper → seats[deeper]? = some other →
        Machine.State.choice context event other.state = none) →
      holder region seats level = some holding →
      Enters holding candidate.target (first :: inside) →
      Accounts (seats.take level ++ first :: inside)
        { refusals := refusals (Event.kind event) region seats (level + 1)
          transition := some ⟨holding.label.id, seat.state.label.id, first.state.label.id⟩
          performed := exits (seats.drop level) ++ entries (first :: inside) }
  | ignores : Ignores context event seats →
      Accounts seats ⟨refusals (Event.kind event) region seats 0, none, []⟩

end Step

theorem Accounts.unique [Event E] {context : C} {event : E} {region : Machine.Region C E A}
    {seats after after' : List (Seat C E A)} {account account' : Account A}
    (hFirst : Accounts context event region seats after account)
    (hSecond : Accounts context event region seats after' account') :
    after = after' ∧ account = account' := by
  cases hFirst with
  | @takes level seat first candidate holding inside hSeat hChoice hDeeper hHolder hEnters =>
    cases hSecond with
    | @takes level' seat' first' candidate' holding' inside' hSeat' hChoice' hDeeper' hHolder'
        hEnters' =>
      have hDecides : Decides context event seats level :=
        ⟨⟨seat, candidate, hSeat, hChoice⟩, hDeeper⟩
      obtain rfl : level = level' :=
        hDecides.unique ⟨⟨seat', candidate', hSeat', hChoice'⟩, hDeeper'⟩
      cases hSeat.symm.trans hSeat'
      cases hChoice.symm.trans hChoice'
      cases hHolder.symm.trans hHolder'
      cases hEnters.unique hEnters'
      exact ⟨rfl, rfl⟩
    | ignores hIgnores =>
      cases (hIgnores seat (List.mem_of_getElem? hSeat)).symm.trans hChoice
  | ignores hIgnores =>
    cases hSecond with
    | takes hSeat hChoice =>
      cases (hIgnores _ (List.mem_of_getElem? hSeat)).symm.trans hChoice
    | ignores => exact ⟨rfl, rfl⟩

/-! ## Levels of a composite state -/

section Levels

variable {region inner : Machine.Region C E A} {seat : Seat C E A}

theorem refusals_cons (hInner : seat.state.nested = some inner) (kind : String)
    (region : Machine.Region C E A) (seats : List (Seat C E A)) (level : Nat) :
    refusals kind region (seat :: seats) (level + 1) = refusals kind inner seats level := by
  have hShift : seats.zipIdx 1 = seats.zipIdx.map fun (seat, level) => (seat, level + 1) := by
    rw [List.zipIdx_succ]
  rw [refusals, refusals, List.zipIdx_cons, List.drop_succ_cons, hShift, ← List.map_drop,
    ← List.map_reverse, List.filterMap_map]
  refine List.filterMap_congr fun place _ => ?_
  exact congrArg (Option.bind · _) (holder_cons hInner region seats place.2)

theorem refusals_zero (kind : String) (region : Machine.Region C E A) (seat : Seat C E A)
    (seats : List (Seat C E A)) :
    refusals kind region (seat :: seats) 0 =
      refusals kind region (seat :: seats) 1 ++ (refusal? kind region seat).toList := by
  rw [refusals, refusals, List.drop_zero, List.zipIdx_cons, List.drop_succ_cons, List.drop_zero,
    List.reverse_cons, List.filterMap_append]
  refine congrArg _ ?_
  cases hRefusal : refusal? kind region seat <;>
    simp [holder, hRefusal]

theorem mem_of_holder {path : List Nat} (hPath : region.FullPath path) {level : Nat}
    {holding : Machine.Region C E A} (hSeat : (view region path)[level]? = some seat)
    (hHolder : holder region (view region path) level = some holding) :
    region.Encloses holding ∧ seat.state ∈ holding.states := by
  induction hPath generalizing level with
  | @atomic region index state hState hAtomic =>
    rw [view_atomic hState] at hSeat hHolder
    cases level with
    | zero =>
      cases hSeat
      cases hHolder
      exact ⟨.here _, List.mem_of_getElem? hState⟩
    | succ level => cases hSeat
  | @composite region inner index state below hState hInner _ ih =>
    rw [view_composite hState hInner] at hSeat hHolder
    cases level with
    | zero =>
      cases hSeat
      cases hHolder
      exact ⟨.here _, List.mem_of_getElem? hState⟩
    | succ level =>
      rw [holder_cons hInner] at hHolder
      obtain ⟨hEncloses, hMember⟩ := ih hSeat hHolder
      exact ⟨.inside (List.mem_of_getElem? hState) hInner hEncloses, hMember⟩

end Levels

/-! ## Every reaction reports its account -/

def Refusal.effect (kind : String) (refusal : Refusal) : Effect A :=
  .refused refusal.region refusal.state kind

def Move.effect (kind : String) (move : Move) : Effect A :=
  .moved move.region move.source move.target kind

def Account.effects (kind : String) (account : Account A) : List (Effect A) :=
  account.refusals.map (Refusal.effect kind) ++
    ((account.transition.map (Move.effect kind)).toList ++ account.performed.map .fired)

@[simp] theorem actions_map_refusal (kind : String) (refusals : List Refusal) :
    Effect.actions (refusals.map (Refusal.effect (A := A) kind)) = [] := by
  induction refusals with
  | nil => rfl
  | cons refusal rest ih => exact ih

@[simp] theorem actions_transition (kind : String) (transition : Option Move) :
    Effect.actions (transition.map (Move.effect (A := A) kind)).toList = [] := by
  cases transition <;> rfl

theorem Account.actions_effects (kind : String) (account : Account A) :
    Effect.actions (account.effects kind) = account.performed := by
  simp [Account.effects]

section React

variable [Event E] {context : C} {event : E} {region inner : Machine.Region C E A}

theorem effects_ownReaction {index : Nat} {path : List Nat} {state : Machine.State C E A}
    (hChoice : Machine.State.choice context event state = none) :
    (Machine.Region.ownReaction context event region path state).effects =
      (refusal? (Event.kind event) region ⟨index, state⟩).toList.map
        (Refusal.effect (Event.kind event)) := by
  rw [Machine.Region.ownReaction, refusal?]
  rw [Machine.State.choice] at hChoice
  cases hCandidates : state.label.candidates (Event.kind event) with
  | nil => rfl
  | cons candidate rest =>
    rw [hCandidates] at hChoice
    simp only [Machine.choose, hChoice]
    rfl

theorem effects_of_react_eq_none {path : List Nat} (hPath : region.FullPath path)
    (hIdle : (Machine.Region.react context event region path).path = none) :
    (Machine.Region.react context event region path).effects =
      (refusals (Event.kind event) region (view region path) 0).map
        (Refusal.effect (Event.kind event)) := by
  induction hPath with
  | @atomic region index state hState hAtomic =>
    rw [Machine.react_of_atomic hState hAtomic] at hIdle ⊢
    rw [effects_ownReaction (Machine.choice_of_ownReaction_eq_none hIdle), view_atomic hState,
      refusals_zero]
    rfl
  | @composite region inner index state below hState hInner _ ih =>
    cases hBelow : (Machine.Region.react context event inner below).path with
    | some path =>
      rw [Machine.react_of_inner_moved hState hInner hBelow] at hIdle
      cases hIdle
    | none =>
      rw [Machine.react_of_inner_idle hState hInner hBelow] at hIdle ⊢
      rw [ih hBelow, effects_ownReaction (Machine.choice_of_ownReaction_eq_none hIdle),
        view_composite hState hInner, refusals_zero, refusals_cons hInner, List.map_append]

theorem react_eq_none_of_ignores (hRegion : Machine.Region.Sound region) {path : List Nat}
    (hPath : region.FullPath path) (hIgnores : Ignores context event (view region path)) :
    (Machine.Region.react context event region path).path = none := by
  cases hMoved : (Machine.Region.react context event region path).path with
  | none => rfl
  | some after => exact absurd hIgnores (takes_of_react_eq_some hRegion hPath hMoved).not_ignores

/-- The states further in than the one that takes the event refuse, and then it takes it. -/
theorem exists_effects_of_choice (hRegion : Machine.Region.Sound region) {path : List Nat}
    (hPath : region.FullPath path) {level : Nat} {seat : Seat C E A}
    {candidate : Machine.Candidate C E} {holding : Machine.Region C E A}
    (hSeat : (view region path)[level]? = some seat)
    (hChoice : Machine.State.choice context event seat.state = some candidate)
    (hDeeper : ∀ (deeper : Nat) (other : Seat C E A), level < deeper →
      (view region path)[deeper]? = some other →
      Machine.State.choice context event other.state = none)
    (hHolder : holder region (view region path) level = some holding) :
    ∃ performed : List A, (Machine.Region.react context event region path).effects =
      (refusals (Event.kind event) region (view region path) (level + 1)).map
          (Refusal.effect (Event.kind event)) ++
        .moved holding.label.id seat.state.label.id candidate.targetId (Event.kind event) ::
          performed.map .fired := by
  -- At level zero the active state takes the event, once everything inside it has refused. At any
  -- other level the region inside its state takes it, for which the level counts one less.
  induction hPath generalizing level with
  | @atomic region index state hState hAtomic =>
    rw [view_atomic hState] at hSeat hHolder ⊢
    cases level with
    | zero =>
      cases hSeat
      cases hHolder
      rw [Machine.react_of_atomic hState hAtomic, Machine.ownReaction_of_choice_eq_some hChoice]
      exact ⟨_, rfl⟩
    | succ level => cases hSeat
  | @composite region inner index state below hState hInner hBelow ih =>
    have hInside := hRegion.nested (List.mem_of_getElem? hState) hInner
    rw [view_composite hState hInner] at hSeat hDeeper hHolder ⊢
    cases level with
    | zero =>
      cases hSeat
      cases hHolder
      have hIgnores : Ignores context event (view inner below) := by
        intro other hOther
        obtain ⟨deeper, hOther⟩ := List.mem_iff_getElem?.mp hOther
        exact hDeeper (deeper + 1) other (Nat.succ_pos deeper) hOther
      have hIdle := react_eq_none_of_ignores hInside hBelow hIgnores
      rw [Machine.react_of_inner_idle hState hInner hIdle, effects_of_react_eq_none hBelow hIdle,
        Machine.ownReaction_of_choice_eq_some hChoice, refusals_cons hInner]
      exact ⟨_, rfl⟩
    | succ level =>
      rw [holder_cons hInner] at hHolder
      rw [refusals_cons hInner]
      have hDeeper' : ∀ (deeper : Nat) (other : Seat C E A), level < deeper →
          (view inner below)[deeper]? = some other →
          Machine.State.choice context event other.state = none :=
        fun deeper other hLess => hDeeper (deeper + 1) other (Nat.succ_lt_succ hLess)
      cases hMoved : (Machine.Region.react context event inner below).path with
      | some after =>
        rw [Machine.react_of_inner_moved hState hInner hMoved]
        exact ih hInside hSeat hDeeper' hHolder
      | none =>
        have hNone := (ignores_of_react_eq_none hBelow hMoved).1 seat (List.mem_of_getElem? hSeat)
        cases hNone.symm.trans hChoice

variable (context event) in
/-- A region on a full path reports the account of its active states. -/
theorem exists_accounts_react (hRegion : Machine.Region.Sound region)
    (hNamed : Machine.Region.WellNamed region) {path : List Nat} (hPath : region.FullPath path) :
    ∃ account, Accounts context event region (view region path)
        (view region (Machine.Region.after context event region path)) account ∧
      (Machine.Region.react context event region path).effects =
        account.effects (Event.kind event) ∧
      (Machine.Region.react context event region path).moved = account.transition.isSome := by
  have hMoved : (Machine.Region.react context event region path).moved = true ↔
      ∃ performed, Takes context event region (view region path)
        (view region (Machine.Region.after context event region path)) performed :=
    Machine.Region.moved_react_iff_takes hRegion hPath
  have hStep := steps_after context event hRegion hPath
  generalize hNext : view region (Machine.Region.after context event region path) = next
    at hStep hMoved
  generalize hDone : Effect.actions (Machine.Region.react context event region path).effects =
    performed at hStep
  rcases hStep with hTakes | ⟨hIgnores, rfl, rfl⟩
  · have hMoves := hMoved.mpr ⟨performed, hTakes⟩
    cases hTakes with
    | @intro level seat candidate holding entered hSeat hChoice hDeeper hHolder hEnters =>
      obtain ⟨target, inside, hTarget, rfl⟩ := hEnters.exists_eq_cons
      -- The reaction names the target by the id kept with the candidate, the account by its state.
      obtain ⟨hEncloses, hMember⟩ := mem_of_holder hPath hSeat hHolder
      have hId : candidate.targetId = target.label.id :=
        (hNamed holding hEncloses).targetId_eq hMember (Machine.State.choice_mem hChoice) hTarget
      obtain ⟨performed, hEffects⟩ :=
        exists_effects_of_choice hRegion hPath hSeat hChoice hDeeper hHolder
      rw [hEffects, hId] at hDone ⊢
      have hPerformed : performed = exits ((view region path).drop level) ++
          entries (⟨candidate.target, target⟩ :: inside) := by
        rw [← hDone, Effect.actions_append, actions_map_refusal]
        exact (Effect.actions_map_fired performed).symm
      refine ⟨_, .takes hSeat hChoice hDeeper hHolder hEnters, ?_, hMoves⟩
      rw [← hPerformed]
      rfl
  · have hIdle := react_eq_none_of_ignores hRegion hPath hIgnores
    refine ⟨_, .ignores hIgnores, ?_, ?_⟩
    · rw [effects_of_react_eq_none hPath hIdle]
      exact (List.append_nil _).symm
    · rw [Reaction.moved, hIdle]
      rfl

end React

end Flat

end Statechart
