import Statechart.Json.Token
import Statechart.Proofs.Json.Grammar

/-!
# Scanning what the grammar allows

A word, a number or a string of the grammar is scanned into one token that is read as its value,
and scanning goes on after it. A number is told by what follows, so nothing may follow that could
be a part of it.
-/

namespace Statechart.Json

theorem hexDigit?_of_isHexDigit {value : Nat} {digit : Char} (hDigit : IsHexDigit value digit) :
    Token.hexDigit? digit = some value := by
  have hAll : ∀ digits ∈ ["0123456789abcdef".toList, "0123456789ABCDEF".toList],
      digits.length = 16 ∧
        ∀ index < 16, digits[index]?.bind Token.hexDigit? = some index := by decide
  have hOne : ∀ digits ∈ ["0123456789abcdef".toList, "0123456789ABCDEF".toList],
      digits[value]? = some digit → Token.hexDigit? digit = some value := by
    intro digits hDigits hGet
    obtain ⟨hLength, hDigit⟩ := hAll digits hDigits
    obtain ⟨hValue, _⟩ := List.getElem?_eq_some_iff.mp hGet
    have hHex := hDigit value (hLength ▸ hValue)
    rwa [hGet] at hHex
  rcases hDigit with hLower | hUpper
  · exact hOne _ (by simp) hLower
  · exact hOne _ (by simp) hUpper

theorem escaped?_of_mem {letter c : Char} (hEscape : (letter, c) ∈ shortEscapes) :
    letter ≠ 'u' ∧ Token.escaped? letter = some c := by
  have hAll : ∀ escape ∈ shortEscapes,
      escape.1 ≠ 'u' ∧ Token.escaped? escape.1 = some escape.2 := by decide
  exact hAll _ hEscape

/-! ## Strings -/

namespace Spelling

theorem characters_unit {code : Nat} (hHigh : isHigh code = false) (hLow : isLow code = false)
    (fault : Option Fault) (rest : List Piece) :
    characters fault (.unit code :: rest) =
      (characters fault rest).map (Char.ofNat code :: ·) := by
  rw [characters.eq_def]
  simp [hHigh, hLow]

theorem characters_pair {high low : Nat} (hHigh : isHigh high = true) (hLow : isLow low = true)
    (fault : Option Fault) (rest : List Piece) :
    characters fault (.unit high :: .unit low :: rest) =
      (characters fault rest).map (pair high low :: ·) := by
  rw [characters.eq_def]
  simp [hHigh, hLow]

/-- A character is no surrogate, so it is one code unit or a surrogate pair. -/
theorem characters_codeUnits (c : Char) (fault : Option Fault) (rest : List Piece) :
    characters fault ((codeUnits c).map .unit ++ rest) =
      (characters fault rest).map (c :: ·) := by
  have hValid : c.toNat < 0xd800 ∨ 0xdfff < c.toNat ∧ c.toNat < 0x110000 := c.valid
  rw [codeUnits]
  split
  · next hSmall =>
    have hHigh : isHigh c.toNat = false := by simp [isHigh]; omega
    have hLow : isLow c.toNat = false := by simp [isLow]; omega
    rw [List.map_singleton, List.singleton_append, characters_unit hHigh hLow, Char.ofNat_toNat]
  · next hLarge =>
    have hHigh : isHigh (0xd800 + (c.toNat - 0x10000) / 0x400) = true := by simp [isHigh]; omega
    have hLow : isLow (0xdc00 + (c.toNat - 0x10000) % 0x400) = true := by simp [isLow]; omega
    have hPair : pair (0xd800 + (c.toNat - 0x10000) / 0x400)
        (0xdc00 + (c.toNat - 0x10000) % 0x400) = c :=
      (congrArg Char.ofNat (by omega)).trans c.ofNat_toNat
    exact (characters_pair hHigh hLow fault rest).trans (by rw [hPair])

end Spelling

namespace Token

theorem scanFrom_of_next {mode after : Mode} {c : Char} {rest : List Char} {tokens : List Token}
    (hNext : next mode c rest = (tokens, after)) :
    scanFrom mode (c :: rest) = tokens ++ scanFrom after rest := by
  rw [scanFrom, hNext]

theorem lacksEscape_eq_false (w x y z : Char) (rest : List Char) :
    lacksEscape (w :: x :: y :: z :: rest) = false := by
  have hw := w.utf8Size_pos
  have hx := x.utf8Size_pos
  have hy := y.utf8Size_pos
  have hz := z.utf8Size_pos
  simp [lacksEscape]
  omega

theorem scanFrom_unit {code : Nat} {text : List Char} (hUnit : UnitEscape code text)
    (read : List Piece) (rest : List Char) :
    scanFrom (.string read) (text ++ rest) = scanFrom (.string (.unit code :: read)) rest := by
  cases hUnit with
  | @intro a b c d w x y z hFirst hSecond hThird hFourth =>
    have hCode : 0x10 * (0x10 * (0x10 * (0x10 * 0 + a) + b) + c) + d =
        0x1000 * a + 0x100 * b + 0x10 * c + d := by omega
    rw [← hCode]
    simp [scanFrom, next, lacksEscape_eq_false, hexDigit?_of_isHexDigit hFirst,
      hexDigit?_of_isHexDigit hSecond, hexDigit?_of_isHexDigit hThird,
      hexDigit?_of_isHexDigit hFourth]

theorem scanFrom_units {codes : List Nat} {escapes : List (List Char)}
    (hEscapes : List.Forall₂ UnitEscape codes escapes) (read : List Piece) (rest : List Char) :
    scanFrom (.string read) (escapes.flatten ++ rest) =
      scanFrom (.string ((codes.map .unit).reverse ++ read)) rest := by
  induction hEscapes generalizing read with
  | nil => rfl
  | @cons code text codes escapes hUnit _ ih =>
    rw [List.flatten_cons, List.append_assoc, scanFrom_unit hUnit, ih, List.map_cons,
      List.reverse_cons, List.append_assoc, List.singleton_append]

theorem scanFrom_raw {c : Char} (hPrintable : 0x20 ≤ c.toNat) (hQuote : c ≠ '"')
    (hBackslash : c ≠ '\\') (read : List Piece) (rest : List Char) :
    scanFrom (.string read) (c :: rest) = scanFrom (.string (.char c :: read)) rest := by
  have hNext : next (.string read) c rest = ([], .string (.char c :: read)) := by
    rw [next, if_neg hQuote, if_neg hBackslash, if_neg (Nat.not_lt.mpr hPrintable)]
  exact scanFrom_of_next hNext

theorem scanFrom_short {letter c : Char} (hEscape : (letter, c) ∈ shortEscapes)
    (read : List Piece) (rest : List Char) :
    scanFrom (.string read) ('\\' :: letter :: rest) =
      scanFrom (.string (.char c :: read)) rest := by
  obtain ⟨hUnit, hShort⟩ := escaped?_of_mem hEscape
  have hNext : next (.escape read) letter rest = ([], .string (.char c :: read)) := by
    rw [next, if_neg hUnit, hShort]
  calc scanFrom (.string read) ('\\' :: letter :: rest)
      = scanFrom (.escape read) (letter :: rest) := rfl
    _ = scanFrom (.string (.char c :: read)) rest := scanFrom_of_next hNext

theorem exists_pieces {characters text : List Char} (hSpells : Spells characters text) :
    ∃ pieces, Spelling.characters none pieces = .ok characters ∧ ∀ read rest,
      scanFrom (.string read) (text ++ '"' :: rest) =
        spelled (pieces.reverse ++ read) none :: scanFrom .ready rest := by
  induction hSpells with
  | nil => exact ⟨[], rfl, fun read rest => rfl⟩
  | @raw c characters text hPrintable hQuote hBackslash _ ih =>
    obtain ⟨pieces, hCharacters, hScan⟩ := ih
    refine ⟨.char c :: pieces, by rw [Spelling.characters, hCharacters]; rfl, ?_⟩
    intro read rest
    rw [List.cons_append, scanFrom_raw hPrintable hQuote hBackslash, hScan, List.reverse_cons,
      List.append_assoc, List.singleton_append]
  | @short letter c characters text hEscape _ ih =>
    obtain ⟨pieces, hCharacters, hScan⟩ := ih
    refine ⟨.char c :: pieces, by rw [Spelling.characters, hCharacters]; rfl, ?_⟩
    intro read rest
    rw [List.cons_append, List.cons_append, scanFrom_short hEscape, hScan, List.reverse_cons,
      List.append_assoc, List.singleton_append]
  | @units c escapes characters text hEscapes _ ih =>
    obtain ⟨pieces, hCharacters, hScan⟩ := ih
    refine ⟨(codeUnits c).map .unit ++ pieces, ?_, ?_⟩
    · rw [Spelling.characters_codeUnits, hCharacters]
      rfl
    · intro read rest
      rw [List.append_assoc, scanFrom_units hEscapes, hScan, List.reverse_append,
        List.append_assoc]

theorem exists_scan_quoted {string : String} {text : List Char} (hQuoted : QuotedAs string text) :
    ∃ spelling : Spelling, spelling.read = .ok string ∧ ∀ rest,
      scanFrom .ready (text ++ rest) = .scalar (.string spelling) :: scanFrom .ready rest := by
  cases hQuoted with
  | @intro text hSpells =>
    obtain ⟨pieces, hCharacters, hScan⟩ := exists_pieces hSpells
    refine ⟨⟨pieces, none⟩, ?_, ?_⟩
    · rw [Spelling.read, hCharacters]
      exact congrArg Except.ok String.ofList_toList
    · intro rest
      have hBody := hScan [] rest
      rw [spelled, List.append_nil, List.reverse_reverse] at hBody
      rw [← hBody, List.append_assoc]
      rfl

/-! ## Words and numbers -/

theorem scanFrom_null (rest : List Char) :
    scanFrom .ready ("null".toList ++ rest) = .scalar .null :: scanFrom .ready rest :=
  rfl

theorem scanFrom_bool (value : Bool) (rest : List Char) :
    scanFrom .ready ((Flag.text value).toList ++ rest) =
      .scalar (.bool value) :: scanFrom .ready rest := by
  cases value <;> rfl

/-- What follows a number cannot be a part of it. -/
def EndsNumber (rest : List Char) : Prop :=
  ∀ c ∈ rest.head?, c.isDigit = false ∧ c ≠ '.' ∧ c ≠ 'e' ∧ c ≠ 'E'

theorem scanFrom_ended {rest : List Char} (hRest : EndsNumber rest) {phase : Phase}
    (hPhase : phase = .zero ∨ phase = .whole) (numeral : Numeral) :
    scanFrom (.number numeral phase) rest = .scalar (.number numeral) :: scanFrom .ready rest := by
  cases rest with
  | nil => rcases hPhase with rfl | rfl <;> rfl
  | cons c rest =>
    obtain ⟨hDigit, hPoint, hLower, hUpper⟩ := hRest c rfl
    have hExtend : extend numeral phase c = none := by
      rcases hPhase with rfl | rfl <;> simp [extend, hDigit, hPoint, hLower, hUpper]
    have hComplete : phase.isComplete = true := by rcases hPhase with rfl | rfl <;> rfl
    have hNext : next (.number numeral phase) c rest =
        (.scalar (.number numeral) :: (begin c).1, (begin c).2) := by
      rw [next, hExtend]
      simp [hComplete, hDigit]
    exact scanFrom_of_next hNext

theorem scanFrom_digits {digits : List Char} (hDigits : ∀ c ∈ digits, c.isDigit = true)
    {rest : List Char} (hRest : EndsNumber rest) (negative : Bool) (read : List Char) :
    scanFrom (.number ⟨negative, read, [], none⟩ .whole) (digits ++ rest) =
      .scalar (.number ⟨negative, read ++ digits, [], none⟩) :: scanFrom .ready rest := by
  induction digits generalizing read with
  | nil =>
    rw [List.append_nil]
    exact scanFrom_ended hRest (.inr rfl) _
  | cons c digits ih =>
    have hNext : next (.number ⟨negative, read, [], none⟩ .whole) c (digits ++ rest) =
        ([], .number ⟨negative, read ++ [c], [], none⟩ .whole) := by
      simp [next, extend, hDigits c List.mem_cons_self]
    rw [List.cons_append, scanFrom_of_next hNext, List.nil_append,
      ih (fun other hOther => hDigits other (List.mem_cons_of_mem _ hOther)), List.append_assoc,
      List.singleton_append]

theorem begin_of_isDigit {c : Char} (hDigit : c.isDigit = true) (hZero : c ≠ '0') :
    begin c = ([], .number ⟨false, [c], [], none⟩ .whole) := by
  have hAll : ∀ code < 58, 48 < code →
      begin (.ofNat code) = ([], .number ⟨false, [.ofNat code], [], none⟩ .whole) := by decide
  have hBounds : 48 ≤ c.toNat ∧ c.toNat ≤ 57 := by
    simpa [Char.isDigit, UInt32.le_iff_toNat_le] using hDigit
  have hCode : c.toNat ≠ 48 := fun h => hZero (Char.toNat_inj.mp h)
  have hBegin := hAll c.toNat (by omega) (by omega)
  rwa [c.ofNat_toNat] at hBegin

/-- How a number is met, before its digits. -/
def signed (negative : Bool) : Mode :=
  if negative then .number ⟨true, [], [], none⟩ .sign else .ready

theorem scanFrom_signed_zero {rest : List Char} (hRest : EndsNumber rest) (negative : Bool) :
    scanFrom (signed negative) ('0' :: rest) =
      .scalar (.number ⟨negative, ['0'], [], none⟩) :: scanFrom .ready rest := by
  have hNext : next (signed negative) '0' rest =
      ([], .number ⟨negative, ['0'], [], none⟩ .zero) := by cases negative <;> rfl
  exact (scanFrom_of_next hNext).trans (scanFrom_ended hRest (.inl rfl) _)

theorem scanFrom_signed {c : Char} {digits rest : List Char} (hZero : c ≠ '0')
    (hDigits : ∀ digit ∈ c :: digits, digit.isDigit = true) (hRest : EndsNumber rest)
    (negative : Bool) : scanFrom (signed negative) (c :: digits ++ rest) =
      .scalar (.number ⟨negative, c :: digits, [], none⟩) :: scanFrom .ready rest := by
  have hDigit := hDigits c List.mem_cons_self
  have hNext : next (signed negative) c (digits ++ rest) =
      ([], .number ⟨negative, [c], [], none⟩ .whole) := by
    cases negative with
    | true => simp [signed, next, extend, hDigit, hZero]
    | false => exact begin_of_isDigit hDigit hZero
  exact (scanFrom_of_next hNext).trans
    (scanFrom_digits (fun digit hMem => hDigits digit (List.mem_cons_of_mem _ hMem)) hRest _ _)

theorem head_toDigits_ne_zero {number : Nat} (hNumber : 0 < number) :
    ∀ c ∈ (Nat.toDigits 10 number).head?, c ≠ '0' := by
  induction number using Nat.strongRecOn with
  | ind number ih =>
    by_cases hSmall : number < 10
    · rw [Nat.toDigits_of_lt_base hSmall]
      rintro c ⟨⟩
      have hAll : ∀ digit < 10, 0 < digit → Nat.digitChar digit ≠ '0' := by decide
      exact hAll number hSmall hNumber
    · rw [Nat.toDigits_of_base_le (by decide) (Nat.le_of_not_lt hSmall)]
      intro c hHead
      have hFewer := ih (number / 10) (by omega) (by omega)
      cases hDigits : Nat.toDigits 10 (number / 10) with
      | nil => exact absurd hDigits Nat.toDigits_ne_nil
      | cons first more =>
        rw [hDigits] at hFewer hHead
        exact hFewer c hHead

theorem scanFrom_toDigits {rest : List Char} (hRest : EndsNumber rest) (negative : Bool)
    (number : Nat) : scanFrom (signed negative) (Nat.toDigits 10 number ++ rest) =
      .scalar (.number ⟨negative, Nat.toDigits 10 number, [], none⟩) :: scanFrom .ready rest := by
  rcases Nat.eq_zero_or_pos number with rfl | hNumber
  · exact scanFrom_signed_zero hRest negative
  · have hZero := head_toDigits_ne_zero hNumber
    have hDigits : ∀ c ∈ Nat.toDigits 10 number, c.isDigit = true :=
      fun c hMem => Nat.isDigit_of_mem_toDigits (by decide) (by decide) hMem
    cases hText : Nat.toDigits 10 number with
    | nil => exact absurd hText Nat.toDigits_ne_nil
    | cons c digits =>
      rw [hText] at hZero hDigits
      exact scanFrom_signed (hZero c rfl) hDigits hRest negative

end Token

/-- The digits of a number of 64 bits are read as that number. -/
theorem read_toDigits {number : Nat} (hNumber : number < 0x10000000000000000) :
    Numeral.read ⟨false, Nat.toDigits 10 number, [], none⟩ = some (.integer number) := by
  have hValue : Digits.value (Nat.toDigits 10 number) = number :=
    Nat.ofDigitChars_toDigits (by decide) (by decide)
  have hBound : number ≤ Numeral.greatestSignificand := Nat.le_of_lt_succ hNumber
  simp [Numeral.read, Numeral.isWhole, hValue, hBound]

theorem read_toDigits_negative {number : Nat} (hPositive : 0 < number)
    (hNumber : number ≤ 0x8000000000000000) :
    Numeral.read ⟨true, Nat.toDigits 10 number, [], none⟩ = some (.integer (-number)) := by
  have hValue : Digits.value (Nat.toDigits 10 number) = number :=
    Nat.ofDigitChars_toDigits (by decide) (by decide)
  have hBound : number ≤ Numeral.greatestNegative := hNumber
  simp [Numeral.read, Numeral.isWhole, hValue, hBound, hPositive]

theorem toList_repr (number : Nat) : number.repr.toList = Nat.toDigits 10 number := by
  rw [Nat.repr_eq_ofList_toDigits, String.toList_ofList]

theorem exists_scan_integer {value : Int} (hLeast : -0x8000000000000000 ≤ value)
    (hGreatest : value < 0x10000000000000000) :
    ∃ numeral : Numeral, numeral.read = some (.integer value) ∧ ∀ rest, Token.EndsNumber rest →
      Token.scanFrom .ready ((toString value).toList ++ rest) =
        .scalar (.number numeral) :: Token.scanFrom .ready rest := by
  cases value with
  | ofNat number =>
    have hText : (toString (Int.ofNat number)).toList = Nat.toDigits 10 number :=
      toList_repr number
    have hNumber : number < 0x10000000000000000 := Int.ofNat_lt.mp hGreatest
    refine ⟨_, read_toDigits hNumber, fun rest hRest => ?_⟩
    rw [hText]
    exact Token.scanFrom_toDigits hRest false number
  | negSucc number =>
    have hText : (toString (Int.negSucc number)).toList = '-' :: Nat.toDigits 10 (number + 1) :=
      String.toList_append.trans (congrArg _ (toList_repr (number + 1)))
    have hNumber : number + 1 ≤ 0x8000000000000000 := by omega
    refine ⟨_, read_toDigits_negative (Nat.succ_pos number) hNumber, fun rest hRest => ?_⟩
    rw [hText]
    exact Token.scanFrom_toDigits hRest true (number + 1)

theorem read_minusZero : Numeral.read ⟨true, ['0'], [], none⟩ =
    some (.real true ⟨0, Binary64.leastExponent⟩) :=
  rfl

end Statechart.Json
