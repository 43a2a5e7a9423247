import Statechart.Json.Read

/-!
# Records

Things with named fields. A record is written as an object, and read from an object, whose
members may stand in any order and where members of other names are passed over, or from an array
of the fields in their order.
-/

namespace Statechart.Json

/-- How a record is read: what it is called, and for each field in order how its value is taken
into the record. -/
structure Record (α : Type) where
  name : String
  fields : List (String × (Doc → α → Except Problem α))

namespace Record

variable {α : Type}

def expected (record : Record α) : String :=
  "struct " ++ record.name

def expectedLength (record : Record α) : String :=
  let count := record.fields.length
  record.expected ++ " with " ++ toString count ++
    if count = 1 then " element" else " elements"

def readMembers (record : Record α) (ending : Ending) (seen : List String) (partly : α) :
    List (Spelling × Doc) → Except Problem α
  | [] => do
    ending.check
    match record.fields.find? fun (name, _) => name ∉ seen with
    | some (name, _) => throw (.mismatch (.missingField name))
    | none => return partly
  | (key, value) :: rest => do
    let name ← faulty key.read
    match record.fields.lookup name with
    | none => do
      value.skim
      readMembers record ending seen partly rest
    | some take => do
      if name ∈ seen then throw (.mismatch (.duplicateField name))
      let partly ← take value partly
      readMembers record ending (name :: seen) partly rest

def readItems (record : Record α) (ending : Ending) (partly : α) :
    List (String × (Doc → α → Except Problem α)) → List Doc → Except Problem α
  | [], [] => do
    ending.check
    return partly
  | [], _ :: _ => .error .malformed
  | left, [] => do
    ending.check
    throw (.mismatch (.length (record.fields.length - left.length) record.expectedLength))
  | (_, take) :: left, item :: rest => do
    let partly ← take item partly
    readItems record ending partly left rest

def read (record : Record α) (start : α) : Doc → Except Problem α
  | .object members ending => record.readMembers ending [] start members
  | .array items ending => record.readItems ending start record.fields items
  | doc => .error (doc.reject record.expected)

end Record

end Statechart.Json
