import Statechart.Decimal.Text
import Statechart.Json.Numeral
import Statechart.Text.Flag
import Statechart.Text.Quoted

/-!
# Values

What a document denotes, how it is written, and how it is called in a message. Writing leaves out
all white space and escapes only what must not stand in a string as it is.
-/

namespace Statechart.Json

namespace Number

def text : Number → String
  | integer value => toString value
  | real negative magnitude =>
    (if negative then "-" else "") ++ magnitude.shortest.text Decimal.plain

end Number

inductive Value
  | null
  | bool (value : Bool)
  | number (number : Number)
  | string (text : String)
  | array (items : List Value)
  | object (members : List (String × Value))

namespace Value

def escape (c : Char) : List Char :=
  match c with
  | '"' => ['\\', '"']
  | '\\' => ['\\', '\\']
  | '\x08' => ['\\', 'b']
  | '\t' => ['\\', 't']
  | '\n' => ['\\', 'n']
  | '\x0c' => ['\\', 'f']
  | '\r' => ['\\', 'r']
  | _ =>
    if c.toNat < 0x20 then
      ['\\', 'u', '0', '0'] ++ (Nat.toDigits 16 c.toNat).leftpad 2 '0'
    else [c]

def quote (text : String) : List Char :=
  '"' :: text.toList.flatMap escape ++ ['"']

mutual

def characters : Value → List Char
  | null => "null".toList
  | bool value => (Flag.text value).toList
  | number value => value.text.toList
  | string text => quote text
  | array items => '[' :: itemCharacters items ++ [']']
  | object members => '\x7b' :: memberCharacters members ++ ['\x7d']

def itemCharacters : List Value → List Char
  | [] => []
  | [item] => characters item
  | item :: rest => characters item ++ ',' :: itemCharacters rest

def memberCharacters : List (String × Value) → List Char
  | [] => []
  | [(key, value)] => quote key ++ ':' :: characters value
  | (key, value) :: rest => quote key ++ ':' :: characters value ++ ',' :: memberCharacters rest

end

def text (value : Value) : String :=
  String.ofList value.characters

def ofInt (value : Int) : Value :=
  .number (.integer value)

def ofTexts (texts : List String) : Value :=
  .array (texts.map .string)

def found : Value → String
  | null => "null"
  | bool value => "boolean `" ++ Flag.text value ++ "`"
  | number (.integer value) => "integer `" ++ toString value ++ "`"
  | number (.real negative magnitude) =>
    "floating point `" ++ (Number.real negative magnitude).text ++ "`"
  | string text => "string " ++ Quoted.quote text
  | array _ => "sequence"
  | object _ => "map"

end Value

end Statechart.Json
