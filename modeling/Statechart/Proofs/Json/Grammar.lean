import Mathlib.Data.List.Forall2
import Statechart.Json.Value

/-!
# The grammar of documents

Which texts denote a value, whatever their layout: blanks may stand around every value, key and
mark, and a character of a string may be written raw, with a short escape, or as the escapes of its
code units of sixteen bits. Numbers are the integers that fit in 64 bits, signed or not; minus zero
is written like an integer and denotes a fraction. What a value is written as is one of its texts.
-/

namespace Statechart.Json

/-! ## Strings -/

/-- The code units of sixteen bits that encode a character. -/
def codeUnits (c : Char) : List Nat :=
  if c.toNat < 0x10000 then [c.toNat]
  else [0xd800 + (c.toNat - 0x10000) / 0x400, 0xdc00 + (c.toNat - 0x10000) % 0x400]

def IsHexDigit (value : Nat) (digit : Char) : Prop :=
  "0123456789abcdef".toList[value]? = some digit ∨ "0123456789ABCDEF".toList[value]? = some digit

instance (value : Nat) (digit : Char) : Decidable (IsHexDigit value digit) :=
  inferInstanceAs (Decidable (_ ∨ _))

inductive UnitEscape : Nat → List Char → Prop
  | intro {a b c d : Nat} {w x y z : Char} (hFirst : IsHexDigit a w) (hSecond : IsHexDigit b x)
      (hThird : IsHexDigit c y) (hFourth : IsHexDigit d z) :
      UnitEscape (0x1000 * a + 0x100 * b + 0x10 * c + d) ['\\', 'u', w, x, y, z]

/-- The letters that stand for a character after a backslash. -/
def shortEscapes : List (Char × Char) :=
  [('"', '"'), ('\\', '\\'), ('/', '/'), ('b', '\x08'), ('f', '\x0c'), ('n', '\n'), ('r', '\r'),
    ('t', '\t')]

/-- The characters of a string, and what may stand for them between the quotes. -/
inductive Spells : List Char → List Char → Prop
  | nil : Spells [] []
  | raw {c : Char} {characters text : List Char} (hPrintable : 0x20 ≤ c.toNat) (hQuote : c ≠ '"')
      (hBackslash : c ≠ '\\') (hRest : Spells characters text) : Spells (c :: characters) (c :: text)
  | short {letter c : Char} {characters text : List Char} (hEscape : (letter, c) ∈ shortEscapes)
      (hRest : Spells characters text) : Spells (c :: characters) ('\\' :: letter :: text)
  | units {c : Char} {escapes : List (List Char)} {characters text : List Char}
      (hEscapes : List.Forall₂ UnitEscape (codeUnits c) escapes) (hRest : Spells characters text) :
      Spells (c :: characters) (escapes.flatten ++ text)

inductive QuotedAs : String → List Char → Prop
  | intro {string : String} {text : List Char} (hSpells : Spells string.toList text) :
      QuotedAs string ('"' :: text ++ ['"'])

theorem codeUnits_of_small {c : Char} (hSmall : c.toNat < 0x20) : codeUnits c = [c.toNat] :=
  if_pos (Nat.lt_trans hSmall (by decide))

theorem unitEscape_of_small {code : Nat} (hSmall : code < 0x20) :
    UnitEscape code (['\\', 'u', '0', '0'] ++ (Nat.toDigits 16 code).leftpad 2 '0') := by
  have hAll : ∀ code < 0x20, (Nat.toDigits 16 code).leftpad 2 '0' =
      [(code / 16).digitChar, (code % 16).digitChar] ∧
        IsHexDigit (code / 16) (code / 16).digitChar ∧
          IsHexDigit (code % 16) (code % 16).digitChar := by decide
  obtain ⟨hDigits, hThird, hFourth⟩ := hAll code hSmall
  have hZero : IsHexDigit 0 '0' := by decide
  have hCode : 0x1000 * 0 + 0x100 * 0 + 0x10 * (code / 16) + code % 16 = code := by omega
  have hUnit := UnitEscape.intro hZero hZero hThird hFourth
  rw [hCode] at hUnit
  rw [hDigits]
  exact hUnit

theorem Spells.unit {c : Char} {code : Nat} {escape characters text : List Char}
    (hUnits : codeUnits c = [code]) (hEscape : UnitEscape code escape)
    (hRest : Spells characters text) : Spells (c :: characters) (escape ++ text) := by
  have hEscapes : List.Forall₂ UnitEscape (codeUnits c) [escape] := by
    rw [hUnits]
    exact .cons hEscape .nil
  have hSpells := Spells.units hEscapes hRest
  rwa [List.flatten_singleton] at hSpells

/-! ## Values -/

def Blanks (text : List Char) : Prop :=
  ∀ c ∈ text, c ∈ [' ', '\t', '\n', '\r']

instance (text : List Char) : Decidable (Blanks text) :=
  List.decidableBAll (· ∈ [' ', '\t', '\n', '\r']) text

namespace Value

mutual

/-- The texts of a value that neither start nor end with a blank. -/
inductive WrittenAs : Value → List Char → Prop
  | null : WrittenAs .null "null".toList
  | bool (value : Bool) : WrittenAs (.bool value) (Flag.text value).toList
  | integer {value : Int} (hLeast : -0x8000000000000000 ≤ value)
      (hGreatest : value < 0x10000000000000000) :
      WrittenAs (.ofInt value) (toString value).toList
  | minusZero : WrittenAs (.number (.real true ⟨0, Binary64.leastExponent⟩)) ['-', '0']
  | string {string : String} {text : List Char} (hQuoted : QuotedAs string text) :
      WrittenAs (.string string) text
  | array {items : List Value} {text : List Char} (hItems : ItemsWrittenAs items text) :
      WrittenAs (.array items) ('[' :: text ++ [']'])
  | object {members : List (String × Value)} {text : List Char}
      (hMembers : MembersWrittenAs members text) :
      WrittenAs (.object members) ('\x7b' :: text ++ ['\x7d'])

/-- The texts of a value. -/
inductive PaddedAs : Value → List Char → Prop
  | intro {value : Value} {before text after : List Char} (hBefore : Blanks before)
      (hValue : WrittenAs value text) (hAfter : Blanks after) :
      PaddedAs value (before ++ text ++ after)

inductive ItemsWrittenAs : List Value → List Char → Prop
  | none {blanks : List Char} (hBlanks : Blanks blanks) : ItemsWrittenAs [] blanks
  | one {item : Value} {text : List Char} (hItem : PaddedAs item text) : ItemsWrittenAs [item] text
  | more {item next : Value} {rest : List Value} {text others : List Char}
      (hItem : PaddedAs item text) (hRest : ItemsWrittenAs (next :: rest) others) :
      ItemsWrittenAs (item :: next :: rest) (text ++ ',' :: others)

inductive MemberWrittenAs : String → Value → List Char → Prop
  | intro {key : String} {value : Value} {before name between text : List Char}
      (hBefore : Blanks before) (hKey : QuotedAs key name) (hBetween : Blanks between)
      (hValue : PaddedAs value text) :
      MemberWrittenAs key value (before ++ name ++ between ++ ':' :: text)

inductive MembersWrittenAs : List (String × Value) → List Char → Prop
  | none {blanks : List Char} (hBlanks : Blanks blanks) : MembersWrittenAs [] blanks
  | one {key : String} {value : Value} {text : List Char} (hMember : MemberWrittenAs key value text) :
      MembersWrittenAs [(key, value)] text
  | more {key : String} {value : Value} {next : String × Value} {rest : List (String × Value)}
      {text others : List Char} (hMember : MemberWrittenAs key value text)
      (hRest : MembersWrittenAs (next :: rest) others) :
      MembersWrittenAs ((key, value) :: next :: rest) (text ++ ',' :: others)

end

/-! ## Values as they are written -/

theorem spells_escape (c : Char) {characters text : List Char} (hRest : Spells characters text) :
    Spells (c :: characters) (escape c ++ text) := by
  unfold escape
  split
  case h_8 hQuote hBackslash _ _ _ _ _ =>
    split
    · next hSmall => exact .unit (codeUnits_of_small hSmall) (unitEscape_of_small hSmall) hRest
    · next hPrintable => exact .raw (Nat.le_of_not_lt hPrintable) hQuote hBackslash hRest
  all_goals exact .short (by decide) hRest

theorem spells_flatMap_escape (characters : List Char) :
    Spells characters (characters.flatMap escape) := by
  induction characters with
  | nil => exact .nil
  | cons c characters ih => exact spells_escape c ih

theorem quotedAs_quote (string : String) : QuotedAs string (quote string) :=
  .intro (spells_flatMap_escape string.toList)

/-- What the value is written as denotes it. -/
def IsWritten (value : Value) : Prop :=
  value.WrittenAs value.characters

theorem blanks_nil : Blanks [] :=
  fun _ => nofun

theorem IsWritten.padded {value : Value} (hValue : value.IsWritten) :
    value.PaddedAs value.characters := by
  have hPadded := PaddedAs.intro blanks_nil hValue blanks_nil
  rwa [List.nil_append, List.append_nil] at hPadded

theorem isWritten_string (string : String) : (Value.string string).IsWritten :=
  .string (quotedAs_quote string)

theorem isWritten_ofInt {value : Int} (hLeast : -0x8000000000000000 ≤ value)
    (hGreatest : value < 0x10000000000000000) : (ofInt value).IsWritten :=
  .integer hLeast hGreatest

theorem itemsWrittenAs {items : List Value} (hItems : ∀ item ∈ items, item.IsWritten) :
    ItemsWrittenAs items (itemCharacters items) := by
  induction items with
  | nil => exact .none blanks_nil
  | cons item rest ih =>
    have hItem := (hItems item List.mem_cons_self).padded
    have hRest := ih fun other hOther => hItems other (List.mem_cons_of_mem _ hOther)
    cases rest with
    | nil => exact .one hItem
    | cons next rest => exact .more hItem hRest

theorem isWritten_array {items : List Value} (hItems : ∀ item ∈ items, item.IsWritten) :
    (Value.array items).IsWritten :=
  .array (itemsWrittenAs hItems)

theorem isWritten_map {α : Type} {write : α → Value} {things : List α}
    (hThings : ∀ thing ∈ things, (write thing).IsWritten) :
    (Value.array (things.map write)).IsWritten := by
  refine isWritten_array fun item hItem => ?_
  obtain ⟨thing, hThing, rfl⟩ := List.mem_map.mp hItem
  exact hThings thing hThing

theorem IsWritten.member {value : Value} (hValue : value.IsWritten) (key : String) :
    MemberWrittenAs key value (quote key ++ ':' :: value.characters) := by
  have hMember := MemberWrittenAs.intro blanks_nil (quotedAs_quote key) blanks_nil hValue.padded
  rwa [List.nil_append, List.append_nil] at hMember

theorem membersWrittenAs {members : List (String × Value)}
    (hMembers : ∀ member ∈ members, member.2.IsWritten) :
    MembersWrittenAs members (memberCharacters members) := by
  induction members with
  | nil => exact .none blanks_nil
  | cons member rest ih =>
    obtain ⟨key, value⟩ := member
    have hMember := (hMembers (key, value) List.mem_cons_self).member key
    have hRest := ih fun other hOther => hMembers other (List.mem_cons_of_mem _ hOther)
    cases rest with
    | nil => exact .one hMember
    | cons next rest => exact .more hMember hRest

theorem isWritten_object {members : List (String × Value)}
    (hMembers : ∀ member ∈ members, member.2.IsWritten) : (Value.object members).IsWritten :=
  .object (membersWrittenAs hMembers)

theorem IsWritten.paddedAs_text {value : Value} (hValue : value.IsWritten) :
    value.PaddedAs value.text.toList := by
  rw [text, String.toList_ofList]
  exact hValue.padded

end Value

end Statechart.Json
