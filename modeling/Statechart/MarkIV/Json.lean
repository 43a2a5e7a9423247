import Statechart.Json.Read
import Statechart.MarkIV.Policy

/-!
# The Mark IV in documents

An event is an object whose member `type` names its kind, wherever it stands; a click has two more
members, and other members are passed over once they have been read. An event may also be an
array of its kind and its fields. Actions and pots are their names, the register is its byte.
-/

namespace Statechart.MarkIV

open Json (Value Doc Problem Ending Spelling)

namespace Event

def toValue (event : Event) : Value :=
  .object (("type", .string event.kind) :: match event with
    | brewClicked reservoirEmpty potEmpty =>
      [("reservoirEmpty", .bool reservoirEmpty), ("potEmpty", .bool potEmpty)]
    | _ => [])

inductive Form
  | click
  | signal (event : Event)

def forms : List (String × Form) :=
  [("BREW_CLICKED", .click), ("RESERVOIR_EMPTIED", .signal .reservoirEmptied),
    ("POT_PARTIAL", .signal .potPartial), ("POT_REMOVED", .signal .potRemoved),
    ("POT_EMPTIED", .signal .potEmptied)]

def expected : String := "internally tagged enum Mark4Event"

def expectedClick : String := "struct variant Mark4Event::BrewClicked with 2 elements"

def flag? : Value → Except Problem Bool
  | .bool value => .ok value
  | value => .error (Json.wrongType value.found "a boolean")

def clickOfMembers (reservoirEmpty potEmpty : Option Bool) :
    List (String × Value) → Except Problem Event
  | [] =>
    match reservoirEmpty, potEmpty with
    | none, _ => .error (.mismatch (.missingField "reservoirEmpty"))
    | _, none => .error (.mismatch (.missingField "potEmpty"))
    | some reservoirEmpty, some potEmpty => .ok (.brewClicked reservoirEmpty potEmpty)
  | (name, value) :: rest => do
    if name = "reservoirEmpty" then
      if reservoirEmpty.isSome then throw (.mismatch (.duplicateField name))
      clickOfMembers (some (← flag? value)) potEmpty rest
    else if name = "potEmpty" then
      if potEmpty.isSome then throw (.mismatch (.duplicateField name))
      clickOfMembers reservoirEmpty (some (← flag? value)) rest
    else clickOfMembers reservoirEmpty potEmpty rest

def Form.ofMembers (members : List (String × Value)) : Form → Except Problem Event
  | .click => clickOfMembers none none members
  | .signal event => .ok event

def tooLong (length fields : Nat) : Problem :=
  .mismatch (.length length (toString fields ++ " elements in sequence"))

def Form.ofItems : Form → List Value → Except Problem Event
  | .signal event, [] => .ok event
  | .signal _, items => .error (tooLong items.length 0)
  | .click, [] => .error (.mismatch (.length 0 expectedClick))
  | .click, first :: rest => do
    let reservoirEmpty ← flag? first
    match rest with
    | [] => throw (.mismatch (.length 1 expectedClick))
    | second :: rest =>
      let potEmpty ← flag? second
      if rest.isEmpty then return .brewClicked reservoirEmpty potEmpty
      else throw (tooLong (rest.length + 2) 2)

def memberDepth : Nat := Doc.depthLimit - 1

/-- Reads the members of an object up to its end: the form that the type gives, and the members
beside the type in their order. -/
def readMembers (ending : Ending) (form : Option Form) :
    List (Spelling × Doc) → Except Problem (Form × List (String × Value))
  | [] => do
    ending.check
    match form with
    | none => throw (.mismatch (.missingField "type"))
    | some form => return (form, [])
  | (key, doc) :: rest => do
    let name ← Json.faulty key.read
    if name = "type" then
      if form.isSome then throw (.mismatch (.duplicateField name))
      readMembers ending (some (← doc.tag forms)) rest
    else
      let value ← doc.read memberDepth
      let (form, members) ← readMembers ending form rest
      return (form, (name, value) :: members)

def ofDoc : Doc → Except Problem Event
  | .object members ending => do
    let (form, members) ← readMembers ending none members
    form.ofMembers members
  | .array [] ending => do
    ending.check
    throw (.mismatch (.missingField "type"))
  | .array (first :: rest) ending => do
    let form ← first.tag forms
    let items ← Doc.readItems memberDepth rest
    ending.check
    form.ofItems items
  | doc => .error (doc.reject expected)

def ofText (text : String) : Except Problem Event :=
  Json.ofText ofDoc text

end Event

def Action.toValue (action : Action) : Value :=
  .string action.name

def Action.ofDoc : Doc → Except Problem Action :=
  Doc.variant (Action.all.map fun action => (action.name, action))

def Pot.toValue (pot : Pot) : Value :=
  .string pot.name

def Pot.ofDoc : Doc → Except Problem Pot :=
  Doc.variant (Pot.all.map fun pot => (pot.name, pot))

def Policy.contextToValue (_ : Context) : Value :=
  .null

def Policy.contextOfDoc (doc : Doc) : Except Problem Context :=
  doc.unit "unit struct Mark4Context"

def Register.toValue (register : Register) : Value :=
  .ofInt register.bits.toNat

def Register.ofDoc (doc : Doc) : Except Problem Register :=
  return ⟨BitVec.ofNat 8 (← doc.natural 255 "u8")⟩

end Statechart.MarkIV
