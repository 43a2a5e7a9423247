import Statechart.Proofs.Parallel

/-!
# Declarations that are related

Two declarations may be related region by region, and inside a region state by state, in whatever
way a rewriting of the one into the other relates them. If the rewriting keeps regions well formed,
what it makes of a declaration that can be built can be built too; if related regions are built into
regions that are alike, so are the two machines.
-/

namespace Statechart

variable {σ σ' ρ ρ' : Type} {C E A : Type}

theorem rel_cases {α β : Type} {related : α → β → Prop} {left : Option α} {right : Option β}
    (hRel : Option.Rel related left right) : (left = none ∧ right = none) ∨
      ∃ a b, left = some a ∧ right = some b ∧ related a b := by
  cases hRel with
  | none => exact Or.inl ⟨rfl, rfl⟩
  | some hRelated => exact Or.inr ⟨_, _, rfl, rfl, hRelated⟩

/-- What is inside the second region comes from inside the first one, if each of its states comes
from a state with related insides. -/
theorem Region.Encloses.exists_before {related : Region σ ρ → Region σ' ρ' → Prop}
    (hStates : ∀ region region', related region region' → ∀ state' ∈ region'.states,
      ∃ state ∈ region.states, Option.Rel related state.nested state'.nested)
    {region : Region σ ρ} {region' inner' : Region σ' ρ'} (hRegion : related region region')
    (hInner' : region'.Encloses inner') :
    ∃ inner, region.Encloses inner ∧ related inner inner' := by
  induction hInner' generalizing region with
  | here => exact ⟨region, .here region, hRegion⟩
  | inside hState' hNext' _ ih =>
    obtain ⟨state, hState, hNested⟩ := hStates _ _ hRegion _ hState'
    rcases rel_cases hNested with ⟨_, hAtomic'⟩ | ⟨next, _, hNext, hOther', hInside⟩
    · cases hAtomic'.symm.trans hNext'
    · cases hOther'.symm.trans hNext'
      obtain ⟨inner, hInner, hInnerRelated⟩ := ih hInside
      exact ⟨inner, .inside hState hNext hInner, hInnerRelated⟩

namespace Declaration

variable {related : Region C E A → Region C E A → Prop} {declaration other : Declaration C E A}

theorem WellFormed.of_related (hFormed : declaration.WellFormed)
    (hRegions : List.Forall₂ related declaration.regions other.regions)
    (hStates : ∀ region region', related region region' → ∀ state' ∈ region'.states,
      ∃ state ∈ region.states, Option.Rel related state.nested state'.nested)
    (hEach : ∀ region region', related region region' → Region.WellFormed region →
      Region.WellFormed region') : other.WellFormed := by
  constructor
  · intro hEmpty
    rw [hEmpty, List.forall₂_nil_right_iff] at hRegions
    exact hFormed.inhabited hRegions
  · rintro inner' ⟨region', hRegion', hInner'⟩
    obtain ⟨region, hMember, hRegion⟩ := exists_mem_of_forall₂ hRegions.flip hRegion'
    obtain ⟨inner, hInner, hInnerRelated⟩ := hInner'.exists_before hStates hRegion
    exact hEach _ _ hInnerRelated (hFormed.regions inner ⟨region, hMember, hInner⟩)

/-! ## Building -/

theorem wellFormed_of_build {machine : Machine C E A} (hBuild : declaration.build = .ok machine) :
    declaration.WellFormed :=
  (violations_eq_nil_iff declaration).mp (build_eq_ok_iff.mp hBuild).1

theorem Image.forall₂_deepImage {machine : Machine C E A} (hImage : declaration.Image machine) :
    List.Forall₂ Region.DeepImage declaration.regions machine.regions := by
  refine List.forall₂_iff_get.mpr ⟨hImage.length.symm, ?_⟩
  intro index hIndex hIndex' inner inner' hPlace
  exact hImage.regions inner inner' ⟨index, _, _, List.getElem?_eq_getElem hIndex,
    List.getElem?_eq_getElem hIndex', hPlace⟩

/-- If related regions are built into regions that are alike, then a declaration related to one that
can be built is built into a machine that is alike, as long as it is well formed. -/
theorem exists_build_of_related {alike : Machine.Region C E A → Machine.Region C E A → Prop}
    (hAlike : ∀ declared declared' region region',
      (∀ inner, declared.Encloses inner → Region.WellFormed inner) → related declared declared' →
        Region.DeepImage declared region → Region.DeepImage declared' region' → alike region region')
    {machine : Machine C E A} (hBuild : declaration.build = .ok machine)
    (hFormed' : other.WellFormed) (hId : other.id = declaration.id)
    (hRegions : List.Forall₂ related declaration.regions other.regions) :
    ∃ machine', other.build = .ok machine' ∧ machine'.id = machine.id ∧
      List.Forall₂ alike machine.regions machine'.regions := by
  have hImage := image_of_build hBuild
  have hViolations' := (violations_eq_nil_iff other).mpr hFormed'
  obtain ⟨machine', hResolve, hImage'⟩ := exists_resolve_image hViolations'
  refine ⟨machine', build_of_violations_eq_nil hViolations' hResolve, ?_, ?_⟩
  · rw [hImage'.id, hImage.id, hId]
  · refine List.forall₂_iff_get.mpr ⟨?_, ?_⟩
    · rw [hImage.length, hImage'.length, hRegions.length_eq]
    · intro index hIndex hIndex'
      have hAt : index < declaration.regions.length := hImage.length ▸ hIndex
      have hAt' : index < other.regions.length := hImage'.length ▸ hIndex'
      refine hAlike _ _ _ _ ?_ (hRegions.get hAt hAt') (hImage.forall₂_deepImage.get hAt hIndex)
        (hImage'.forall₂_deepImage.get hAt' hIndex')
      intro inner hInner
      exact (wellFormed_of_build hBuild).regions inner ⟨_, List.getElem_mem hAt, hInner⟩

end Declaration

end Statechart
