import Statechart.Json.Doc
import Statechart.Json.Problem
import Statechart.Json.Value

/-!
# Reading documents

A document is read from left to right as the kind of thing that is expected, and the first
problem on the way is the answer. A part that nobody asks for is passed over: its strings may then
hold lone surrogates, its numbers may be out of range, and it may be nested to any depth.
-/

namespace Statechart.Json

variable {α : Type}

def faulty (result : Except Fault α) : Except Problem α :=
  result.mapError .ofFault

def wrongType (found expected : String) : Problem :=
  .mismatch (.type found expected)

def named (known : List (String × α)) (name : String) : Except Problem α :=
  match known.lookup name with
  | some value => .ok value
  | none => .error (.mismatch (.variant name (known.map (·.1))))

namespace Scalar

def read : Scalar → Except Problem Value
  | null => .ok .null
  | bool value => .ok (.bool value)
  | number numeral =>
    match numeral.read with
    | none => .error .malformed
    | some value => .ok (.number value)
  | string spelling => (faulty spelling.read).map .string

end Scalar

namespace Ending

def check : Ending → Except Problem Unit
  | closed => .ok ()
  | broken fault | noKey fault => .error (.ofFault fault)

end Ending

namespace Doc

def skimSpelling (spelling : Spelling) : Except Problem Unit :=
  match spelling.fault with
  | none => .ok ()
  | some fault => .error (.ofSkimmed fault)

mutual

def skim : Doc → Except Problem Unit
  | scalar (.string spelling) => skimSpelling spelling
  | scalar _ => .ok ()
  | array items ending => do
    skimItems items
    ending.check
  | object members ending => do
    skimMembers members
    ending.check
  | broken fault => .error (.ofSkimmed fault)

def skimItems : List Doc → Except Problem Unit
  | [] => .ok ()
  | item :: rest => do
    skim item
    skimItems rest

def skimMembers : List (Spelling × Doc) → Except Problem Unit
  | [] => .ok ()
  | (key, value) :: rest => do
    skimSpelling key
    skim value
    skimMembers rest

end

def depthLimit : Nat := 127

mutual

def read (depth : Nat) : Doc → Except Problem Value
  | scalar value => value.read
  | array items ending => do
    if depth = 0 then throw .malformed
    let items ← readItems (depth - 1) items
    ending.check
    return .array items
  | object members ending => do
    if depth = 0 then throw .malformed
    let members ← readMembers (depth - 1) members
    ending.check
    return .object members
  | broken fault => .error (.ofFault fault)

def readItems (depth : Nat) : List Doc → Except Problem (List Value)
  | [] => .ok []
  | item :: rest => do
    let value ← read depth item
    let values ← readItems depth rest
    return value :: values

def readMembers (depth : Nat) : List (Spelling × Doc) → Except Problem (List (String × Value))
  | [] => .ok []
  | (key, value) :: rest => do
    let key ← faulty key.read
    let value ← read depth value
    let values ← readMembers depth rest
    return (key, value) :: values

end

/-- Why a document is not what is expected. A value without parts is read first. -/
def reject (expected : String) : Doc → Problem
  | scalar value =>
    match value.read with
    | .ok value => wrongType value.found expected
    | .error problem => problem
  | array _ _ => wrongType "sequence" expected
  | object _ _ => wrongType "map" expected
  | broken fault => .ofFault fault

def string : Doc → Except Problem String
  | scalar (.string spelling) => faulty spelling.read
  | doc => .error (doc.reject "a string")

def natural (bound : Nat) (expected : String) : Doc → Except Problem Nat
  | scalar (.number numeral) =>
    match numeral.read with
    | none => .error .malformed
    | some (.integer value) =>
      if 0 ≤ value ∧ value ≤ bound then .ok value.toNat
      else .error (.mismatch (.value (Value.found (.ofInt value)) expected))
    | some (.real negative magnitude) =>
      .error (wrongType (Value.found (.number (.real negative magnitude))) expected)
  | doc => .error (doc.reject expected)

def unit (expected : String) : Doc → Except Problem Unit
  | scalar .null => .ok ()
  | doc => .error (doc.reject expected)

def list (item : Doc → Except Problem α) : Doc → Except Problem (List α)
  | array items ending => do
    let items ← items.mapM item
    ending.check
    return items
  | doc => .error (doc.reject "a sequence")

def variantName : String := "variant identifier"

def tag (known : List (String × α)) : Doc → Except Problem α
  | scalar (.string spelling) => do
    named known (← faulty spelling.read)
  | doc => .error (doc.reject variantName)

/-- One of several things, as its name or as an object whose only member has that name and
holds a null. -/
def variant (known : List (String × α)) : Doc → Except Problem α
  | scalar (.string spelling) => do
    named known (← faulty spelling.read)
  | object [] ending => do
    ending.check
    throw .malformed
  | object ((key, value) :: rest) ending => do
    let result ← named known (← faulty key.read)
    value.unit "unit"
    match rest, ending with
    | [], .closed => return result
    | [], .broken fault => throw (.ofFault fault)
    | _, _ => throw .malformed
  | broken .truncated => .error .truncated
  | _ => .error .malformed

end Doc

def ofText (read : Doc → Except Problem α) (text : String) : Except Problem α := do
  let document := Document.ofText text
  let result ← read document.doc
  if document.trailing then throw .malformed
  return result

end Statechart.Json
