import Statechart.MarkIV.Json
import Statechart.Proofs.Fallible
import Statechart.Proofs.Json.Document

/-!
# Events read from objects

An object is read as an event exactly if it records that event: the type stands in it once with the
kind of the event, and for a click each of the two flags once. The order of the members, the layout
of the text and members of other names do not matter. The members are read up to the end before the
flags are looked for, so the type may stand after them.
-/

namespace Statechart

namespace Json

/-- Among the members there is one of that name, and it has that value. -/
def Once (members : List (String × Value)) (name : String) (value : Value) : Prop :=
  members.filter (·.1 = name) = [(name, value)]

theorem once_cons_self (name : String) (value other : Value) (members : List (String × Value)) :
    Once ((name, value) :: members) name other ↔
      value = other ∧ ∀ member ∈ members, member.1 ≠ name := by
  rw [Once, List.filter_cons_of_pos (by simp), List.cons.injEq, List.filter_eq_nil_iff]
  simp

theorem once_cons_of_ne {key name : String} (hName : key ≠ name) (value other : Value)
    (members : List (String × Value)) :
    Once ((key, value) :: members) name other ↔ Once members name other := by
  rw [Once, Once, List.filter_cons_of_neg (by simpa using hName)]

theorem filter_of_forall_ne {name : String} {members : List (String × Value)}
    (hMembers : ∀ member ∈ members, member.1 ≠ name) : members.filter (·.1 ≠ name) = members :=
  List.filter_eq_self.mpr fun member hMember => decide_eq_true (hMembers member hMember)

theorem once_filter {name other : String} (hName : name ≠ other) (members : List (String × Value))
    (value : Value) : Once (members.filter (·.1 ≠ other)) name value ↔ Once members name value := by
  rw [Once, Once, List.filter_filter]
  have hSame : ∀ member ∈ members,
      (decide (member.1 = name) && decide (member.1 ≠ other)) = decide (member.1 = name) := by
    intro member _
    by_cases hMember : member.1 = name <;> simp [hMember, hName]
  rw [List.filter_congr hSame]

theorem Once.exists_mem {name : String} {value : Value} {members : List (String × Value)}
    (hOnce : Once members name value) : ∃ member ∈ members, member.1 = name := by
  have hKept : (name, value) ∈ members.filter (·.1 = name) := by
    rw [hOnce]
    exact List.mem_singleton_self _
  exact ⟨_, (List.mem_filter.mp hKept).1, rfl⟩

end Json

namespace MarkIV.Event

open Json (Value Doc Problem Spelling Once once_cons_self once_cons_of_ne once_filter
  filter_of_forall_ne)

/-- The members tell the event and nothing against it. -/
structure RecordedIn (event : Event) (members : List (String × Value)) : Prop where
  kind : Once members "type" (.string event.kind)
  flags : ∀ reservoirEmpty potEmpty, event = .brewClicked reservoirEmpty potEmpty →
    Once members "reservoirEmpty" (.bool reservoirEmpty) ∧ Once members "potEmpty" (.bool potEmpty)

/-- The members lack the type or a flag of a click, or their type is not a kind of event. -/
def Lacking (members : List (String × Value)) : Prop :=
  (∀ member ∈ members, member.1 ≠ "type") ∨
    (∃ name, ("type", .string name) ∈ members ∧ ∀ event : Event, name ≠ event.kind) ∨
    (("type", .string "BREW_CLICKED") ∈ members ∧
      ((∀ member ∈ members, member.1 ≠ "reservoirEmpty") ∨
        ∀ member ∈ members, member.1 ≠ "potEmpty"))

/-! ## Flags -/

/-- One flag is given, be it among the ones taken before or among the members. -/
def Given (taken : Option Bool) (name : String) (members : List (String × Value)) (flag : Bool) :
    Prop :=
  (taken.map fun flag => (name, Value.bool flag)).toList ++ members.filter (·.1 = name) =
    [(name, .bool flag)]

theorem given_none (name : String) (members : List (String × Value)) (flag : Bool) :
    Given none name members flag ↔ Once members name (.bool flag) :=
  Iff.rfl

theorem given_nil (taken : Option Bool) (name : String) (flag : Bool) :
    Given taken name [] flag ↔ taken = some flag := by
  cases taken <;> simp [Given]

theorem given_cons_of_ne {name other : String} (hName : other ≠ name) (taken : Option Bool)
    (value : Value) (members : List (String × Value)) (flag : Bool) :
    Given taken name ((other, value) :: members) flag ↔ Given taken name members flag := by
  rw [Given, Given, List.filter_cons_of_neg (by simpa using hName)]

theorem given_cons_self (taken : Option Bool) (name : String) (value : Value)
    (members : List (String × Value)) (flag : Bool) :
    Given taken name ((name, value) :: members) flag ↔
      taken = none ∧ ∃ first, value = .bool first ∧ Given (some first) name members flag := by
  rw [Given, List.filter_cons_of_pos (by simp)]
  cases taken with
  | some taken => exact iff_of_false nofun nofun
  | none =>
    constructor
    · intro hGiven
      obtain ⟨hMember, hRest⟩ := List.cons.inj hGiven
      have hValue : value = .bool flag := congrArg Prod.snd hMember
      exact ⟨rfl, flag, hValue, congrArg (List.cons (name, Value.bool flag)) hRest⟩
    · rintro ⟨_, first, rfl, hGiven⟩
      exact hGiven

theorem flag?_eq_ok_iff {value : Value} {flag : Bool} :
    flag? value = .ok flag ↔ value = .bool flag := by
  unfold flag?
  split
  · rw [Except.ok.injEq, Value.bool.injEq]
  · next hBool => exact iff_of_false nofun fun hValue => hBool flag hValue

/-- A flag that has been taken must not be met again. -/
theorem takeFlag_eq_ok_iff {taken : Option Bool} {value : Value} {problem : Problem}
    {rest : Bool → Except Problem Event} {event : Event} :
    (if taken.isSome then .error problem else flag? value >>= rest) = .ok event ↔
      taken = none ∧ ∃ flag, value = .bool flag ∧ rest flag = .ok event := by
  cases taken with
  | some taken => exact iff_of_false nofun nofun
  | none =>
    show flag? value >>= rest = .ok event ↔ _
    simp only [bind_eq_ok_iff, flag?_eq_ok_iff, true_and]

theorem clickOfMembers_nil (reservoirEmpty potEmpty : Option Bool) (event : Event) :
    clickOfMembers reservoirEmpty potEmpty [] = .ok event ↔
      ∃ reservoir pot, event = .brewClicked reservoir pot ∧
        reservoirEmpty = some reservoir ∧ potEmpty = some pot := by
  cases reservoirEmpty <;> cases potEmpty <;> simp [clickOfMembers, eq_comm]

section Click

variable (reservoirEmpty potEmpty : Option Bool) (rest : List (String × Value))

theorem clickOfMembers_reservoir (value : Value) :
    clickOfMembers reservoirEmpty potEmpty (("reservoirEmpty", value) :: rest) =
      if reservoirEmpty.isSome then .error (.mismatch (.duplicateField "reservoirEmpty"))
      else flag? value >>= fun flag => clickOfMembers (some flag) potEmpty rest := by
  rw [clickOfMembers, if_pos rfl]
  cases reservoirEmpty <;> rfl

theorem clickOfMembers_pot (value : Value) :
    clickOfMembers reservoirEmpty potEmpty (("potEmpty", value) :: rest) =
      if potEmpty.isSome then .error (.mismatch (.duplicateField "potEmpty"))
      else flag? value >>= fun flag => clickOfMembers reservoirEmpty (some flag) rest := by
  rw [clickOfMembers, if_neg (by decide), if_pos rfl]
  cases potEmpty <;> rfl

theorem clickOfMembers_other {name : String} (hReservoir : name ≠ "reservoirEmpty")
    (hPot : name ≠ "potEmpty") (value : Value) :
    clickOfMembers reservoirEmpty potEmpty ((name, value) :: rest) =
      clickOfMembers reservoirEmpty potEmpty rest := by
  rw [clickOfMembers, if_neg hReservoir, if_neg hPot]

end Click

theorem clickOfMembers_eq_ok_iff (reservoirEmpty potEmpty : Option Bool)
    (members : List (String × Value)) (event : Event) :
    clickOfMembers reservoirEmpty potEmpty members = .ok event ↔
      ∃ reservoir pot, event = .brewClicked reservoir pot ∧
        Given reservoirEmpty "reservoirEmpty" members reservoir ∧
        Given potEmpty "potEmpty" members pot := by
  induction members generalizing reservoirEmpty potEmpty with
  | nil => simp only [clickOfMembers_nil, given_nil]
  | cons member rest ih =>
    obtain ⟨name, value⟩ := member
    by_cases hReservoir : name = "reservoirEmpty"
    · subst hReservoir
      have hPot : "reservoirEmpty" ≠ "potEmpty" := by decide
      rw [clickOfMembers_reservoir, takeFlag_eq_ok_iff]
      simp only [given_cons_self, given_cons_of_ne hPot, ih]
      constructor
      · rintro ⟨hNone, first, hValue, reservoir, pot, hEvent, hGiven, hOther⟩
        exact ⟨reservoir, pot, hEvent, ⟨hNone, first, hValue, hGiven⟩, hOther⟩
      · rintro ⟨reservoir, pot, hEvent, ⟨hNone, first, hValue, hGiven⟩, hOther⟩
        exact ⟨hNone, first, hValue, reservoir, pot, hEvent, hGiven, hOther⟩
    · by_cases hPot : name = "potEmpty"
      · subst hPot
        rw [clickOfMembers_pot, takeFlag_eq_ok_iff]
        simp only [given_cons_self, given_cons_of_ne hReservoir, ih]
        constructor
        · rintro ⟨hNone, first, hValue, reservoir, pot, hEvent, hOther, hGiven⟩
          exact ⟨reservoir, pot, hEvent, hOther, hNone, first, hValue, hGiven⟩
        · rintro ⟨reservoir, pot, hEvent, hOther, hNone, first, hValue, hGiven⟩
          exact ⟨hNone, first, hValue, reservoir, pot, hEvent, hOther, hGiven⟩
      · rw [clickOfMembers_other _ _ _ hReservoir hPot]
        simp only [given_cons_of_ne hReservoir, given_cons_of_ne hPot]
        exact ih reservoirEmpty potEmpty

/-! ## The type -/

/-- What the type of an event says about the rest of its record. -/
def form : Event → Form
  | brewClicked .. => .click
  | event => .signal event

theorem lookup_forms_eq_some_iff (name : String) (found : Form) :
    forms.lookup name = some found ↔ ∃ event : Event, name = event.kind ∧ found = event.form := by
  constructor
  · intro hLookup
    obtain ⟨earlier, later, hForms, _⟩ := List.lookup_eq_some_iff.mp hLookup
    have hMem : (name, found) ∈ forms := hForms ▸ List.mem_append_right _ List.mem_cons_self
    simp only [forms, List.mem_cons, Prod.mk.injEq, List.not_mem_nil, or_false] at hMem
    rcases hMem with ⟨rfl, rfl⟩ | ⟨rfl, rfl⟩ | ⟨rfl, rfl⟩ | ⟨rfl, rfl⟩ | ⟨rfl, rfl⟩
    · exact ⟨.brewClicked false false, rfl, rfl⟩
    · exact ⟨.reservoirEmptied, rfl, rfl⟩
    · exact ⟨.potPartial, rfl, rfl⟩
    · exact ⟨.potRemoved, rfl, rfl⟩
    · exact ⟨.potEmptied, rfl, rfl⟩
  · rintro ⟨event, rfl, rfl⟩
    cases event <;> rfl

theorem named_eq_ok_iff {α : Type} {known : List (String × α)} {name : String} {result : α} :
    Json.named known name = .ok result ↔ known.lookup name = some result := by
  rw [Json.named]
  split
  · next value hLookup => rw [hLookup, Except.ok.injEq, Option.some.injEq]
  · next hLookup => exact iff_of_false nofun (by rw [hLookup]; nofun)

theorem tag_eq_ok_iff {doc : Doc} {value : Value} (hHolds : doc.Holds value)
    (hPlain : value.IsPlain) (found : Form) :
    doc.tag forms = .ok found ↔
      ∃ event : Event, value = .string event.kind ∧ found = event.form := by
  obtain ⟨scalar, rfl, hRead⟩ := hHolds.exists_scalar hPlain
  cases Json.Scalar.denotes_of_read hRead with
  | @string spelling text hSpelling =>
    have hTag : (Doc.scalar (.string spelling)).tag forms = Json.named forms text := by
      rw [Doc.tag, hSpelling]
      rfl
    rw [hTag, named_eq_ok_iff, lookup_forms_eq_some_iff]
    simp only [Value.string.injEq]
  | _ =>
    refine iff_of_false nofun ?_
    rintro ⟨event, ⟨⟩, _⟩

/-! ## Members -/

theorem read_of_holds {doc : Doc} {value : Value} (hHolds : doc.Holds value)
    (hPlain : value.IsPlain) (depth : Nat) : doc.read depth = .ok value := by
  obtain ⟨scalar, rfl, hRead⟩ := hHolds.exists_scalar hPlain
  exact hRead

theorem readMembers_type {spelling : Spelling} (hKey : spelling.read = .ok "type") (doc : Doc)
    (rest : List (Spelling × Doc)) : readMembers .closed none ((spelling, doc) :: rest) =
      doc.tag forms >>= fun found => readMembers .closed (some found) rest := by
  rw [readMembers, hKey]
  rfl

theorem readMembers_type_twice {spelling : Spelling} (hKey : spelling.read = .ok "type") (doc : Doc)
    (rest : List (Spelling × Doc)) (found : Form) :
    readMembers .closed (some found) ((spelling, doc) :: rest) =
      .error (.mismatch (.duplicateField "type")) := by
  rw [readMembers, hKey]
  rfl

theorem readMembers_other {spelling : Spelling} {key : String} (hKey : spelling.read = .ok key)
    (hType : key ≠ "type") {doc : Doc} {value : Value} (hValue : doc.read memberDepth = .ok value)
    (rest : List (Spelling × Doc)) (found : Option Form) :
    readMembers .closed found ((spelling, doc) :: rest) =
      (readMembers .closed found rest).map fun (form, others) => (form, (key, value) :: others) := by
  rw [readMembers, hKey]
  show (if key = "type" then _ else _) = _
  rw [if_neg hType, hValue]
  cases readMembers .closed found rest <;> rfl

section Members

variable {docs : List (Spelling × Doc)} {members : List (String × Value)}

/-- Once there is a type, the other members are taken as they stand. -/
theorem readMembers_some_eq_ok_iff (hDocs : List.Forall₂ Doc.HoldsMember docs members)
    (hPlain : ∀ member ∈ members, member.2.IsPlain) (found : Form)
    (answer : Form × List (String × Value)) :
    readMembers .closed (some found) docs = .ok answer ↔
      (∀ member ∈ members, member.1 ≠ "type") ∧ answer = (found, members) := by
  induction hDocs generalizing answer with
  | nil => simp [readMembers, Json.Ending.check, eq_comm, pure, Except.pure, bind, Except.bind]
  | @cons doc member docs members hMember _ ih =>
    obtain @⟨spelling, key, doc, value, hKey, hHolds⟩ := hMember
    have hRest := fun other hOther => hPlain other (List.mem_cons_of_mem _ hOther)
    by_cases hType : key = "type"
    · subst hType
      rw [readMembers_type_twice hKey]
      exact iff_of_false nofun fun h => h.1 _ List.mem_cons_self rfl
    · rw [readMembers_other hKey hType (read_of_holds hHolds (hPlain _ List.mem_cons_self) _),
        map_eq_ok_iff]
      simp only [ih hRest, List.forall_mem_cons]
      constructor
      · rintro ⟨_, ⟨hOthers, rfl⟩, rfl⟩
        exact ⟨⟨hType, hOthers⟩, rfl⟩
      · rintro ⟨⟨_, hOthers⟩, rfl⟩
        exact ⟨_, ⟨hOthers, rfl⟩, rfl⟩

/-- Without a type so far, it is found among the members, and what stands before it is kept. -/
theorem readMembers_none_eq_ok_iff (hDocs : List.Forall₂ Doc.HoldsMember docs members)
    (hPlain : ∀ member ∈ members, member.2.IsPlain) (answer : Form × List (String × Value)) :
    readMembers .closed none docs = .ok answer ↔
      ∃ event : Event, Once members "type" (.string event.kind) ∧
        answer = (event.form, members.filter (·.1 ≠ "type")) := by
  induction hDocs generalizing answer with
  | nil => exact iff_of_false nofun fun ⟨_, hOnce, _⟩ => by cases hOnce
  | @cons doc member docs members hMember hDocs ih =>
    obtain @⟨spelling, key, doc, value, hKey, hHolds⟩ := hMember
    have hRest := fun other hOther => hPlain other (List.mem_cons_of_mem _ hOther)
    have hValue : value.IsPlain := hPlain (key, value) List.mem_cons_self
    by_cases hType : key = "type"
    · subst hType
      rw [readMembers_type hKey, bind_eq_ok_iff, List.filter_cons_of_neg (by simp)]
      simp only [tag_eq_ok_iff hHolds hValue, readMembers_some_eq_ok_iff hDocs hRest,
        once_cons_self]
      constructor
      · rintro ⟨_, ⟨event, hKind, rfl⟩, hOthers, rfl⟩
        exact ⟨event, ⟨hKind, hOthers⟩, by rw [filter_of_forall_ne hOthers]⟩
      · rintro ⟨event, ⟨hKind, hOthers⟩, rfl⟩
        exact ⟨_, ⟨event, hKind, rfl⟩, hOthers, by rw [filter_of_forall_ne hOthers]⟩
    · rw [readMembers_other hKey hType (read_of_holds hHolds hValue _), map_eq_ok_iff,
        List.filter_cons_of_pos (by simpa using hType)]
      simp only [ih hRest, once_cons_of_ne hType]
      constructor
      · rintro ⟨_, ⟨event, hOnce, rfl⟩, rfl⟩
        exact ⟨event, hOnce, rfl⟩
      · rintro ⟨event, hOnce, rfl⟩
        exact ⟨_, ⟨event, hOnce, rfl⟩, rfl⟩

theorem ofMembers_form_eq_ok_iff (typed event : Event) (others : List (String × Value)) :
    typed.form.ofMembers others = .ok event ↔ event.kind = typed.kind ∧
      ∀ reservoirEmpty potEmpty, event = .brewClicked reservoirEmpty potEmpty →
        Once others "reservoirEmpty" (.bool reservoirEmpty) ∧
          Once others "potEmpty" (.bool potEmpty) := by
  have hSignal : ∀ signal : Event, (∀ reservoir pot, signal ≠ .brewClicked reservoir pot) →
      ((.ok signal : Except Problem Event) = .ok event ↔ event.kind = signal.kind ∧
        ∀ reservoirEmpty potEmpty, event = .brewClicked reservoirEmpty potEmpty →
          Once others "reservoirEmpty" (.bool reservoirEmpty) ∧
            Once others "potEmpty" (.bool potEmpty)) := by
    intro signal hClick
    constructor
    · rintro ⟨⟩
      exact ⟨rfl, fun reservoir pot hEvent => absurd hEvent (hClick reservoir pot)⟩
    · rintro ⟨hKind, _⟩
      cases signal with
      | brewClicked reservoir pot => exact absurd rfl (hClick reservoir pot)
      | _ =>
        cases event <;> first | rfl | exact absurd hKind (by simp [kind])
  cases typed with
  | brewClicked =>
    rw [form, Form.ofMembers, clickOfMembers_eq_ok_iff]
    simp only [given_none]
    constructor
    · rintro ⟨reservoir, pot, rfl, hReservoir, hPot⟩
      refine ⟨rfl, ?_⟩
      rintro _ _ ⟨⟩
      exact ⟨hReservoir, hPot⟩
    · rintro ⟨hKind, hFlags⟩
      cases event with
      | brewClicked reservoir pot => exact ⟨reservoir, pot, rfl, hFlags reservoir pot rfl⟩
      | _ => exact absurd hKind (by simp [kind])
  | _ => exact hSignal _ nofun

/-- An object is read as the event that it records. -/
theorem ofDoc_object_eq_ok_iff (hDocs : List.Forall₂ Doc.HoldsMember docs members)
    (hPlain : ∀ member ∈ members, member.2.IsPlain) (event : Event) :
    ofDoc (.object docs .closed) = .ok event ↔ event.RecordedIn members := by
  have hOfDoc : ofDoc (.object docs .closed) =
      readMembers .closed none docs >>= fun (found, others) => found.ofMembers others := by
    rw [ofDoc]
  have hReservoir : "reservoirEmpty" ≠ "type" := by decide
  have hPot : "potEmpty" ≠ "type" := by decide
  rw [hOfDoc, bind_eq_ok_iff]
  simp only [readMembers_none_eq_ok_iff hDocs hPlain]
  constructor
  · rintro ⟨_, ⟨typed, hOnce, rfl⟩, hEvent⟩
    obtain ⟨hKind, hFlags⟩ := (ofMembers_form_eq_ok_iff _ _ _).mp hEvent
    simp only [once_filter hReservoir, once_filter hPot] at hFlags
    exact ⟨hKind ▸ hOnce, hFlags⟩
  · rintro ⟨hOnce, hFlags⟩
    refine ⟨_, ⟨event, hOnce, rfl⟩, (ofMembers_form_eq_ok_iff _ _ _).mpr ⟨rfl, ?_⟩⟩
    simp only [once_filter hReservoir, once_filter hPot]
    exact hFlags

end Members

theorem kind_of_recordedIn {event : Event} {members : List (String × Value)}
    (hRecorded : event.RecordedIn members) {value : Value} (hType : ("type", value) ∈ members) :
    value = .string event.kind := by
  have hKept : ("type", value) ∈ members.filter (·.1 = "type") :=
    List.mem_filter.mpr ⟨hType, by simp⟩
  rw [hRecorded.kind, List.mem_singleton] at hKept
  exact congrArg Prod.snd hKept

theorem not_recordedIn_of_lacking {members : List (String × Value)} (hLacking : Lacking members)
    (event : Event) : ¬ event.RecordedIn members := by
  intro hRecorded
  rcases hLacking with hNoType | ⟨name, hName, hKinds⟩ | ⟨hClick, hFlag⟩
  · obtain ⟨member, hMember, hType⟩ := Json.Once.exists_mem hRecorded.kind
    exact hNoType member hMember hType
  · have hKind := kind_of_recordedIn hRecorded hName
    exact hKinds event (Value.string.inj hKind)
  · have hKind : "BREW_CLICKED" = event.kind :=
      Value.string.inj (kind_of_recordedIn hRecorded hClick)
    cases event with
    | brewClicked reservoir pot =>
      obtain ⟨hReservoir, hPot⟩ := hRecorded.flags reservoir pot rfl
      obtain ⟨given, hGiven, hGivenName⟩ := Json.Once.exists_mem hReservoir
      obtain ⟨other, hOther, hOtherName⟩ := Json.Once.exists_mem hPot
      rcases hFlag with hNone | hNone
      · exact hNone given hGiven hGivenName
      · exact hNone other hOther hOtherName
    | _ => exact absurd hKind (by simp [kind])

theorem ofText_eq_ok_iff {members : List (String × Value)} {text : String}
    (hText : (Value.object members).PaddedAs text.toList)
    (hPlain : ∀ member ∈ members, member.2.IsPlain) (event : Event) :
    ofText text = .ok event ↔ event.RecordedIn members := by
  obtain ⟨doc, hHolds, hRead⟩ := Json.exists_ofText_eq hText
  obtain ⟨docs, rfl, hDocs⟩ := hHolds.exists_members
  rw [ofText, hRead]
  exact ofDoc_object_eq_ok_iff hDocs hPlain event

/-! ## Texts -/

theorem isWritten_toValue (event : Event) : event.toValue.IsWritten := by
  refine Value.isWritten_object fun member hMember => ?_
  rcases List.mem_cons.mp hMember with rfl | hFlag
  · exact Value.isWritten_string event.kind
  · cases event with
    | brewClicked reservoir pot =>
      simp only [List.mem_cons, List.not_mem_nil, or_false] at hFlag
      rcases hFlag with rfl | rfl
      · exact .bool reservoir
      · exact .bool pot
    | _ => cases hFlag

theorem ofText_toValue_text (event : Event) : ofText event.toValue.text = .ok event := by
  refine (ofText_eq_ok_iff event.isWritten_toValue.paddedAs_text ?_ event).mpr ⟨?_, ?_⟩
  · cases event <;> simp [Value.IsPlain]
  · cases event <;> rfl
  · rintro reservoir pot rfl
    exact ⟨rfl, rfl⟩

/-- Any text of an object whose members have plain values is read as an event exactly if the members
record it: blanks, spellings, the order of the members and further members are no matter. If they
lack the type or a flag of a click, or the type is no kind of event, it is not read. What an event
is written as is read as that event. -/
theorem records_read_whatever_layout {members : List (String × Value)} {text : String}
    (hText : (Value.object members).PaddedAs text.toList)
    (hPlain : ∀ member ∈ members, member.2.IsPlain) :
    (∀ event, ofText text = .ok event ↔ event.RecordedIn members) ∧
      (Lacking members → ∃ problem, ofText text = .error problem) ∧
      ∀ event : Event, ofText event.toValue.text = .ok event := by
  refine ⟨ofText_eq_ok_iff hText hPlain, fun hLacking => ?_, ofText_toValue_text⟩
  cases hRead : ofText text with
  | error problem => exact ⟨problem, rfl⟩
  | ok event =>
    have hRecorded := (ofText_eq_ok_iff hText hPlain event).mp hRead
    exact absurd hRecorded (not_recordedIn_of_lacking hLacking event)

/-- A click whose type stands after a flag and is spelled with an escape. -/
def scattered : String :=
  "\n\x7b \"potEmpty\" :\ttrue ,\"n\":-5,\"\\u0074ype\": \"BREW_CLICKED\",\"reservoirEmpty\":false\x7d "

def scatteredMembers : List (String × Value) :=
  [("potEmpty", .bool true), ("n", .ofInt (-5)), ("type", .string "BREW_CLICKED"),
    ("reservoirEmpty", .bool false)]

theorem scattered_is_read : (Value.object scatteredMembers).PaddedAs scattered.toList ∧
    (∀ member ∈ scatteredMembers, member.2.IsPlain) ∧
    ofText scattered = .ok (.brewClicked false true) := by
  have hPot : Value.MemberWrittenAs "potEmpty" (.bool true) " \"potEmpty\" :\ttrue ".toList :=
    @Value.MemberWrittenAs.intro _ _ [' '] _ [' '] _ (by decide) (Value.quotedAs_quote "potEmpty")
      (by decide) (@Value.PaddedAs.intro _ ['\t'] _ [' '] (by decide) (.bool true) (by decide))
  have hNumber : Value.MemberWrittenAs "n" (.ofInt (-5)) "\"n\":-5".toList :=
    (Value.isWritten_ofInt (by decide) (by decide)).member "n"
  have hType : Value.MemberWrittenAs "type" (.string "BREW_CLICKED")
      "\"\\u0074ype\": \"BREW_CLICKED\"".toList := by
    have hUnit : Json.UnitEscape 0x74 "\\u0074".toList :=
      @Json.UnitEscape.intro 0 0 7 4 _ _ _ _ (.inl rfl) (.inl rfl) (.inl rfl) (.inl rfl)
    have hKey : Json.QuotedAs "type" "\"\\u0074ype\"".toList :=
      @Json.QuotedAs.intro "type" _
        (@Json.Spells.unit 't' _ _ _ _ rfl hUnit (Value.spells_flatMap_escape "ype".toList))
    exact @Value.MemberWrittenAs.intro _ _ [] _ [] _ (by decide) hKey (by decide)
      (@Value.PaddedAs.intro _ [' '] _ [] (by decide) (Value.isWritten_string _) (by decide))
  have hReservoir : Value.MemberWrittenAs "reservoirEmpty" (.bool false)
      "\"reservoirEmpty\":false".toList :=
    Value.IsWritten.member (.bool false) "reservoirEmpty"
  have hText : (Value.object scatteredMembers).PaddedAs scattered.toList :=
    @Value.PaddedAs.intro _ ['\n'] _ [' '] (by decide)
      (.object (.more hPot (.more hNumber (.more hType (.one hReservoir))))) (by decide)
  have hPlain : ∀ member ∈ scatteredMembers, member.2.IsPlain := by
    simp [scatteredMembers, Value.IsPlain, Value.ofInt]
  obtain ⟨hRead, _⟩ := records_read_whatever_layout hText hPlain
  refine ⟨hText, hPlain, (hRead _).mpr ⟨rfl, ?_⟩⟩
  rintro _ _ ⟨⟩
  exact ⟨rfl, rfl⟩

end MarkIV.Event

end Statechart
