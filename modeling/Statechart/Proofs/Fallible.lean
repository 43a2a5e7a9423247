import Mathlib.Data.List.Forall2

/-!
# Computations that may fail

When a computation made of others succeeds, and with what result.
-/

namespace Statechart

variable {α β ε : Type}

theorem bind_eq_ok_iff {first : Except ε α} {rest : α → Except ε β} {result : β} :
    (first >>= rest) = .ok result ↔ ∃ value, first = .ok value ∧ rest value = .ok result := by
  cases first with
  | error => exact ⟨nofun, by rintro ⟨_, ⟨⟩, _⟩⟩
  | ok value =>
    constructor
    · exact fun hRest => ⟨value, rfl, hRest⟩
    · rintro ⟨_, ⟨⟩, hRest⟩
      exact hRest

theorem map_eq_ok_iff {f : α → β} {first : Except ε α} {result : β} :
    first.map f = .ok result ↔ ∃ value, first = .ok value ∧ f value = result := by
  cases first with
  | error => exact ⟨nofun, by rintro ⟨_, ⟨⟩, _⟩⟩
  | ok value =>
    constructor
    · exact fun hValue => ⟨value, rfl, Except.ok.inj hValue⟩
    · rintro ⟨_, ⟨⟩, rfl⟩
      rfl

theorem mapM_eq_ok_iff {pass : α → Except ε β} {inputs : List α} {results : List β} :
    inputs.mapM pass = .ok results ↔
      List.Forall₂ (fun input result => pass input = .ok result) inputs results := by
  induction inputs generalizing results with
  | nil =>
    rw [List.forall₂_nil_left_iff, List.mapM_nil]
    exact ⟨by rintro ⟨⟩; rfl, by rintro rfl; rfl⟩
  | cons input rest ih =>
    rw [List.mapM_cons, List.forall₂_cons_left_iff]
    cases hInput : pass input with
    | error => exact ⟨by rintro ⟨⟩, by rintro ⟨_, _, ⟨⟩, _⟩⟩
    | ok result =>
      cases hRest : rest.mapM pass with
      | error =>
        refine ⟨by rintro ⟨⟩, ?_⟩
        rintro ⟨_, others, _, hOthers, _⟩
        cases hRest.symm.trans (ih.mpr hOthers)
      | ok others =>
        constructor
        · rintro ⟨⟩
          exact ⟨result, others, rfl, ih.mp hRest, rfl⟩
        · rintro ⟨_, _, ⟨⟩, hOthers, rfl⟩
          cases hRest.symm.trans (ih.mpr hOthers)
          rfl

theorem mapM_eq_ok_of_imp {pass pass' : α → Except ε β} {inputs : List α}
    (hPass : ∀ input ∈ inputs, ∀ result, pass input = .ok result → pass' input = .ok result)
    {results : List β} (hResults : inputs.mapM pass = .ok results) :
    inputs.mapM pass' = .ok results := by
  rw [mapM_eq_ok_iff] at hResults ⊢
  induction hResults with
  | nil => exact .nil
  | cons hFirst _ ih =>
    exact .cons (hPass _ List.mem_cons_self _ hFirst)
      (ih fun input hInput => hPass input (List.mem_cons_of_mem _ hInput))

theorem foldlM_eq_ok_of_imp {step step' : β → α → Except ε β}
    (hStep : ∀ before input after, step before input = .ok after → step' before input = .ok after)
    {inputs : List α} {first last : β} (hFold : inputs.foldlM step first = .ok last) :
    inputs.foldlM step' first = .ok last := by
  induction inputs generalizing first with
  | nil => exact hFold
  | cons input rest ih =>
    rw [List.foldlM_cons, bind_eq_ok_iff] at hFold ⊢
    obtain ⟨next, hFirst, hRest⟩ := hFold
    exact ⟨next, hStep _ _ _ hFirst, ih hRest⟩

end Statechart
