import Statechart.Json.Record
import Statechart.Proofs.Fallible
import Statechart.Proofs.Json.Document

/-!
# Reading back what was written

A reader restores a thing from a value if it takes the thing from every document that holds the
value. Readers of parts restore the whole: a list from the values of its items, and a record from an
object that has its fields in their order. What is restored from a value that can be written is read
back from the text of that value.
-/

namespace Statechart.Json

variable {α β : Type}

/-- The reader takes the thing from every document that holds the value. -/
def Restores (read : Doc → Except Problem α) (value : Value) (thing : α) : Prop :=
  ∀ doc : Doc, doc.Holds value → read doc = .ok thing

theorem Restores.ofText_text {read : Doc → Except Problem α} {value : Value} {thing : α}
    (hRead : Restores read value thing) (hValue : value.IsWritten) :
    ofText read value.text = .ok thing := by
  obtain ⟨doc, hHolds, hOfText⟩ := exists_ofText_eq hValue.paddedAs_text
  rw [hOfText, hRead doc hHolds]

/-- A part that is put into what has been read so far. -/
theorem Restores.put {read : Doc → Except Problem β} {value : Value} {part : β}
    (hRead : Restores read value part) (put : β → α) :
    Restores (fun doc => do return put (← read doc)) value (put part) := by
  intro doc hHolds
  show (read doc >>= fun part => .ok (put part)) = .ok (put part)
  rw [hRead doc hHolds]
  rfl

/-! ## Plain values -/

theorem restores_string (text : String) : Restores Doc.string (.string text) text := by
  intro doc hHolds
  obtain ⟨scalar, rfl, hRead⟩ := hHolds.exists_scalar trivial
  obtain ⟨spelling, rfl, hSpelling⟩ := Scalar.exists_spelling hRead
  rw [Doc.string, hSpelling]
  rfl

theorem restores_natural {number bound : Nat} (hNumber : number ≤ bound) (expected : String) :
    Restores (Doc.natural bound expected) (.ofInt number) number := by
  intro doc hHolds
  obtain ⟨scalar, rfl, hRead⟩ := hHolds.exists_scalar trivial
  obtain ⟨numeral, rfl, hNumeral⟩ := Scalar.exists_numeral hRead
  simp [Doc.natural, hNumeral, hNumber]

/-! ## Lists -/

theorem forall₂_of_restores {item : Doc → Except Problem α} {write : α → Value} {things : List α}
    (hItem : ∀ thing ∈ things, Restores item (write thing) thing) {docs : List Doc}
    (hDocs : List.Forall₂ (fun doc thing => doc.Holds (write thing)) docs things) :
    List.Forall₂ (fun doc thing => item doc = .ok thing) docs things := by
  induction hDocs with
  | nil => exact .nil
  | @cons doc thing _ _ hDoc _ ih =>
    exact .cons (hItem thing List.mem_cons_self doc hDoc)
      (ih fun other hOther => hItem other (List.mem_cons_of_mem _ hOther))

theorem restores_list {item : Doc → Except Problem α} {write : α → Value} {things : List α}
    (hItem : ∀ thing ∈ things, Restores item (write thing) thing) :
    Restores (Doc.list item) (.array (things.map write)) things := by
  intro doc hHolds
  obtain ⟨docs, rfl, hDocs⟩ := hHolds.exists_items
  have hRead := mapM_eq_ok_iff.mpr (forall₂_of_restores hItem (List.forall₂_map_right_iff.mp hDocs))
  rw [Doc.list, hRead]
  rfl

theorem restores_texts (texts : List String) :
    Restores (Doc.list Doc.string) (.ofTexts texts) texts :=
  restores_list fun text _ => restores_string text

/-! ## Records -/

namespace Record

/-- The members give the fields in their order, and taking them leads from one thing to another. -/
inductive Fills : List (String × (Doc → α → Except Problem α)) → List (String × Value) → α → α → Prop
  | none (thing : α) : Fills [] [] thing thing
  | more {name : String} {take : Doc → α → Except Problem α} {value : Value}
      {fields : List (String × (Doc → α → Except Problem α))} {members : List (String × Value)}
      {start next result : α} (hTake : Restores (take · start) value next)
      (hRest : Fills fields members next result) :
      Fills ((name, take) :: fields) ((name, value) :: members) start result

theorem readMembers_nil {record : Record α} {seen : List String}
    (hSeen : ∀ field ∈ record.fields, field.1 ∈ seen) (thing : α) :
    record.readMembers .closed seen thing [] = .ok thing := by
  rw [readMembers, List.find?_eq_none.mpr]
  · rfl
  · intro field hField
    simpa using hSeen field hField

theorem readMembers_cons {record : Record α} {spelling : Spelling} {name : String}
    {take : Doc → α → Except Problem α} {doc : Doc} {start next : α} {seen : List String}
    (hKey : spelling.read = .ok name) (hField : record.fields.lookup name = some take)
    (hSeen : name ∉ seen) (hTake : take doc start = .ok next) (rest : List (Spelling × Doc)) :
    record.readMembers .closed seen start ((spelling, doc) :: rest) =
      record.readMembers .closed (name :: seen) next rest := by
  rw [readMembers, hKey]
  simp only [faulty, Except.mapError, bind, Except.bind, hField, if_neg hSeen, hTake]

theorem lookup_of_nodup {fields done rest : List (String × (Doc → α → Except Problem α))}
    {name : String} {take : Doc → α → Except Problem α}
    (hFields : fields = done ++ (name, take) :: rest) (hNames : (fields.map (·.1)).Nodup) :
    fields.lookup name = some take ∧ name ∉ done.map (·.1) := by
  have hNotDone : name ∉ done.map (·.1) := by
    rw [hFields, List.map_append, List.map_cons, List.nodup_append] at hNames
    obtain ⟨_, _, hApart⟩ := hNames
    exact fun hDone => hApart name hDone name List.mem_cons_self rfl
  have hNone : done.lookup name = none := by
    rw [List.lookup_eq_none_iff]
    rintro field hField
    rw [bne_iff_ne]
    rintro rfl
    exact hNotDone (List.mem_map_of_mem hField)
  refine ⟨?_, hNotDone⟩
  rw [hFields, List.lookup_append, hNone, List.lookup_cons_self]
  rfl

/-- The fields read before are the ones that have been seen. -/
theorem readMembers_of_fills {record : Record α} (hNames : (record.fields.map (·.1)).Nodup)
    {fields : List (String × (Doc → α → Except Problem α))} {members : List (String × Value)}
    {start result : α} (hFills : Fills fields members start result)
    {done : List (String × (Doc → α → Except Problem α))} (hFields : record.fields = done ++ fields)
    {docs : List (Spelling × Doc)} (hDocs : List.Forall₂ Doc.HoldsMember docs members) :
    record.readMembers .closed (done.map (·.1)).reverse start docs = .ok result := by
  induction hFills generalizing done docs with
  | none thing =>
    cases hDocs
    refine readMembers_nil (fun field hField => ?_) thing
    rw [hFields, List.append_nil] at hField
    exact List.mem_reverse.mpr (List.mem_map_of_mem hField)
  | @more name take value fields members start next result hTake _ ih =>
    cases hDocs with
    | cons hMember hRest =>
      obtain ⟨hKey, hValue⟩ := hMember
      obtain ⟨hLookup, hSeen⟩ := lookup_of_nodup hFields hNames
      have hSeen : name ∉ (done.map (·.1)).reverse := List.mem_reverse.not.mpr hSeen
      have hFields : record.fields = (done ++ [(name, take)]) ++ fields := by
        rw [hFields, List.append_assoc, List.singleton_append]
      have hOthers := ih hFields hRest
      rw [List.map_append, List.reverse_append] at hOthers
      rw [readMembers_cons hKey hLookup hSeen (hTake _ hValue)]
      exact hOthers

end Record

theorem restores_record {record : Record α} (hNames : (record.fields.map (·.1)).Nodup)
    {members : List (String × Value)} {start result : α}
    (hFills : Record.Fills record.fields members start result) :
    Restores (record.read start) (.object members) result := by
  intro doc hHolds
  obtain ⟨docs, rfl, hDocs⟩ := hHolds.exists_members
  exact Record.readMembers_of_fills hNames hFills (List.nil_append _).symm hDocs

end Statechart.Json
