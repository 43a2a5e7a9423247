import Statechart.Json.Numeral
import Statechart.Json.Spelling

/-!
# Tokens

A text is split into tokens by one pass over its characters. The mode says what has been read
of the token at hand; a character either goes into it, ends it, or is a fault, after which
nothing more is read. White space is the space, the tab, the line feed and the carriage return.
-/

namespace Statechart.Json

inductive Scalar
  | null
  | bool (value : Bool)
  | number (numeral : Numeral)
  | string (spelling : Spelling)
  deriving DecidableEq, Repr

inductive Token
  | scalar (scalar : Scalar)
  | openArray
  | closeArray
  | openObject
  | closeObject
  | comma
  | colon
  | fault (fault : Fault)
  deriving DecidableEq, Repr

namespace Token

/-- What has been read of a number: which part is at hand, and whether it still lacks a digit. -/
inductive Phase
  | sign
  | zero
  | whole
  | point
  | fraction
  | mark
  | exponentSign
  | exponent
  deriving DecidableEq, Repr

def Phase.isComplete : Phase → Bool
  | zero | whole | fraction | exponent => true
  | sign | point | mark | exponentSign => false

inductive Mode
  | ready
  | word (letter : Char) (left : List Char) (value : Scalar)
  | number (numeral : Numeral) (phase : Phase)
  | string (pieces : List Piece)
  | escape (pieces : List Piece)
  | hex (pieces : List Piece) (left code : Nat)
  | stopped
  deriving DecidableEq, Repr

def isBlank (c : Char) : Bool :=
  c = ' ' || c = '\t' || c = '\n' || c = '\r'

def hexDigit? (c : Char) : Option Nat :=
  if c.isDigit then some (c.toNat - '0'.toNat)
  else if 'a' ≤ c ∧ c ≤ 'f' then some (c.toNat - 'a'.toNat + 10)
  else if 'A' ≤ c ∧ c ≤ 'F' then some (c.toNat - 'A'.toNat + 10)
  else none

def escaped? : Char → Option Char
  | '"' => some '"'
  | '\\' => some '\\'
  | '/' => some '/'
  | 'b' => some '\x08'
  | 'f' => some '\x0c'
  | 'n' => some '\n'
  | 'r' => some '\r'
  | 't' => some '\t'
  | _ => none

def spelled (pieces : List Piece) (fault : Option Fault) : Token :=
  .scalar (.string ⟨pieces.reverse, fault⟩)

/-- Whether fewer bytes than the four digits of an escape are left. -/
def lacksEscape (rest : List Char) : Bool :=
  (rest.take 4).foldl (fun bytes c => bytes + c.utf8Size) 0 < 4

def begin (c : Char) : List Token × Mode :=
  if isBlank c then ([], .ready)
  else match c with
    | '[' => ([.openArray], .ready)
    | ']' => ([.closeArray], .ready)
    | '\x7b' => ([.openObject], .ready)
    | '\x7d' => ([.closeObject], .ready)
    | ',' => ([.comma], .ready)
    | ':' => ([.colon], .ready)
    | '"' => ([], .string [])
    | 'n' => ([], .word 'u' ['l', 'l'] .null)
    | 't' => ([], .word 'r' ['u', 'e'] (.bool true))
    | 'f' => ([], .word 'a' ['l', 's', 'e'] (.bool false))
    | '-' => ([], .number ⟨true, [], [], none⟩ .sign)
    | '0' => ([], .number ⟨false, ['0'], [], none⟩ .zero)
    | _ =>
      if c.isDigit then ([], .number ⟨false, [c], [], none⟩ .whole)
      else ([.fault .malformed], .stopped)

def extend (numeral : Numeral) (phase : Phase) (c : Char) : Option (Numeral × Phase) :=
  match phase with
  | .sign =>
    if c = '0' then some ({ numeral with whole := [c] }, .zero)
    else if c.isDigit then some ({ numeral with whole := [c] }, .whole)
    else none
  | .zero =>
    if c = '.' then some (numeral, .point)
    else if c = 'e' ∨ c = 'E' then some (numeral, .mark)
    else none
  | .whole =>
    if c.isDigit then some ({ numeral with whole := numeral.whole ++ [c] }, .whole)
    else if c = '.' then some (numeral, .point)
    else if c = 'e' ∨ c = 'E' then some (numeral, .mark)
    else none
  | .point =>
    if c.isDigit then some ({ numeral with fraction := [c] }, .fraction) else none
  | .fraction =>
    if c.isDigit then some ({ numeral with fraction := numeral.fraction ++ [c] }, .fraction)
    else if c = 'e' ∨ c = 'E' then some (numeral, .mark)
    else none
  | .mark =>
    if c = '+' ∨ c = '-' then
      some ({ numeral with exponent := some (c = '-', []) }, .exponentSign)
    else if c.isDigit then some ({ numeral with exponent := some (false, [c]) }, .exponent)
    else none
  | .exponentSign | .exponent =>
    if c.isDigit then
      let exponent := numeral.exponent.map fun (negative, digits) => (negative, digits ++ [c])
      some ({ numeral with exponent := exponent }, .exponent)
    else none

/-- What one character does, with the characters after it at hand. -/
def next (mode : Mode) (c : Char) (rest : List Char) : List Token × Mode :=
  match mode with
  | .ready => begin c
  | .word letter left value =>
    if c = letter then
      match left with
      | [] => ([.scalar value], .ready)
      | letter :: left => ([], .word letter left value)
    else ([.fault .malformed], .stopped)
  | .number numeral phase =>
    match extend numeral phase c with
    | some (numeral, phase) => ([], .number numeral phase)
    | none =>
      if phase.isComplete ∧ ¬(phase = .zero ∧ c.isDigit) then
        let (tokens, mode) := begin c
        (.scalar (.number numeral) :: tokens, mode)
      else ([.fault .malformed], .stopped)
  | .string pieces =>
    if c = '"' then ([spelled pieces none], .ready)
    else if c = '\\' then ([], .escape pieces)
    else if c.toNat < 0x20 then ([spelled pieces (some .malformed)], .stopped)
    else ([], .string (.char c :: pieces))
  | .escape pieces =>
    if c = 'u' then
      if lacksEscape rest then ([spelled pieces (some .truncated)], .stopped)
      else ([], .hex pieces 4 0)
    else match escaped? c with
      | some c => ([], .string (.char c :: pieces))
      | none => ([spelled pieces (some .malformed)], .stopped)
  | .hex pieces left code =>
    match hexDigit? c with
    | none => ([spelled pieces (some .malformed)], .stopped)
    | some digit =>
      let code := 16 * code + digit
      if left ≤ 1 then ([], .string (.unit code :: pieces)) else ([], .hex pieces (left - 1) code)
  | .stopped => ([], .stopped)

def finish : Mode → List Token
  | .ready | .stopped => []
  | .word .. => [.fault .truncatedWord]
  | .number numeral phase =>
    if phase.isComplete then [.scalar (.number numeral)] else [.fault .truncatedNumber]
  | .string pieces | .escape pieces | .hex pieces _ _ => [spelled pieces (some .truncated)]

def scanFrom (mode : Mode) : List Char → List Token
  | [] => finish mode
  | c :: rest =>
    let (tokens, mode) := next mode c rest
    tokens ++ scanFrom mode rest

def scan (text : List Char) : List Token :=
  scanFrom .ready text

end Token

end Statechart.Json
