import Statechart.Proofs.Timestamp.Calendar
import Statechart.Timestamp.Text

/-!
# Timestamps read from what they are written as

The text of a moment is read as that moment, for every moment that has a valid date and, within
leap seconds, a time of day. Each reader takes the text that the writer makes of its part, whatever
stands after it; a year and a fraction have no fixed width, so no digit may follow.
-/

namespace Statechart

namespace Digits

theorem toList_padded (width number : Nat) :
    (padded 10 width number).toList = (Nat.toDigits 10 number).leftpad width '0' :=
  String.toList_ofList

theorem isDigit_of_mem_padded {width number : Nat} {c : Char}
    (hMem : c ∈ (padded 10 width number).toList) : c.isDigit = true := by
  rw [toList_padded, List.leftpad, List.mem_append, List.mem_replicate] at hMem
  rcases hMem with ⟨_, rfl⟩ | hMem
  · rfl
  · exact Nat.isDigit_of_mem_toDigits (by decide) (by decide) hMem

theorem value_replicate_zero (count : Nat) : value (List.replicate count '0') = 0 := by
  induction count with
  | zero => rfl
  | succ count ih => exact ih

theorem value_padded (width number : Nat) : value (padded 10 width number).toList = number := by
  have hZeros : Nat.ofDigitChars 10
      (List.replicate (width - (Nat.toDigits 10 number).length) '0') 0 = 0 :=
    value_replicate_zero _
  rw [toList_padded, List.leftpad, value, Nat.ofDigitChars_append, hZeros,
    Nat.ofDigitChars_toDigits (by decide) (by decide)]

theorem padded_ne_nil (width number : Nat) : (padded 10 width number).toList ≠ [] := by
  rw [toList_padded, List.leftpad]
  exact List.append_ne_nil_of_right_ne_nil _ Nat.toDigits_ne_nil

theorem isDigit_head_padded {width number : Nat} {rest : List Char} {c : Char}
    (hHead : c ∈ ((padded 10 width number).toList ++ rest).head?) : c.isDigit = true := by
  cases hDigits : (padded 10 width number).toList with
  | nil => exact absurd hDigits (padded_ne_nil width number)
  | cons first more =>
    rw [hDigits] at hHead
    obtain rfl : first = c := Option.some.inj hHead
    exact isDigit_of_mem_padded (hDigits ▸ List.mem_cons_self)

theorem length_padded {width number : Nat} (hWidth : 0 < width) (hNumber : number < 10 ^ width) :
    (padded 10 width number).toList.length = width := by
  have hDigits : (Nat.toDigits 10 number).length ≤ width :=
    (Nat.length_toDigits_le_iff (by decide) hWidth).mpr hNumber
  rw [toList_padded, List.leftpad, List.length_append, List.length_replicate]
  omega

end Digits

namespace Timestamp.Reader

open Digits (padded value_padded length_padded padded_ne_nil isDigit_of_mem_padded
  isDigit_head_padded)

theorem isBlank_of_isDigit {c : Char} (hDigit : c.isDigit = true) : Blank.isBlank c = false := by
  obtain ⟨hLeast, hGreatest⟩ := Char.isDigit_iff_toNat.mp hDigit
  have hLeast : 48 ≤ c.toNat := hLeast
  have hGreatest : c.toNat ≤ 57 := hGreatest
  simp [Blank.isBlank, Blank.ranges]
  omega

theorem run_skipBlanks {text : List Char} (hText : ∀ c ∈ text.head?, Blank.isBlank c = false) :
    skipBlanks.run text = some ((), text) := by
  cases text with
  | nil => rfl
  | cons c rest =>
    have hBlank := hText c rfl
    simp [skipBlanks, hBlank]

theorem run_char {test : Char → Bool} {c : Char} (hTest : test c = true) (rest : List Char) :
    (char test).run (c :: rest) = some (c, rest) := by
  simp [char, hTest]

theorem run_separator {c : Char} (hBlank : Blank.isBlank c = false) (rest : List Char) :
    (separator c).run (c :: rest) = some ((), rest) := by
  have hSkip : skipBlanks.run (c :: rest) = some ((), c :: rest) :=
    run_skipBlanks fun _ hHead => Option.some.inj hHead ▸ hBlank
  simp [separator, hSkip, run_char]

/-- What follows a run of digits is not one more. -/
def EndsDigits (rest : List Char) : Prop :=
  ∀ c ∈ rest.head?, c.isDigit = false

theorem takeWhile_of_endsDigits {rest : List Char} (hRest : EndsDigits rest) :
    rest.takeWhile Char.isDigit = [] := by
  cases rest with
  | nil => rfl
  | cons c rest => simp [hRest c rfl]

theorem run_digits {found : List Char} (hDigits : ∀ c ∈ found, c.isDigit = true)
    (hFound : found ≠ []) {most : Nat} (hLength : found.length ≤ most) {rest : List Char}
    (hEnd : found.length = most ∨ EndsDigits rest) :
    (digits most).run (found ++ rest) = some (found, rest) := by
  have hTaken : (rest.take (most - found.length)).takeWhile Char.isDigit = [] := by
    rcases hEnd with hEnd | hEnd
    · rw [hEnd, Nat.sub_self]
      rfl
    · refine takeWhile_of_endsDigits fun c hHead => ?_
      cases hLeft : most - found.length with
      | zero => rw [hLeft] at hHead; cases hHead
      | succ left =>
        rw [hLeft] at hHead
        cases rest with
        | nil => cases hHead
        | cons other rest => exact hEnd c hHead
  have hRead : ((found ++ rest).take most).takeWhile Char.isDigit = found := by
    rw [List.take_append, List.take_of_length_le hLength, List.takeWhile_append_of_pos hDigits,
      hTaken, List.append_nil]
  have hSome : found.isEmpty = false := by simpa using hFound
  simp only [digits, StateT.run_bind, StateT.run_get, Option.pure_def, Option.bind_eq_bind,
    Option.bind_some, hRead, hSome, Bool.false_eq_true, if_false, StateT.run_modify,
    StateT.run_pure, List.drop_left]

theorem run_padded {width number most : Nat} {rest : List Char}
    (hLength : (padded 10 width number).toList.length ≤ most)
    (hEnd : (padded 10 width number).toList.length = most ∨ EndsDigits rest) :
    (digits most).run ((padded 10 width number).toList ++ rest) =
      some ((padded 10 width number).toList, rest) :=
  run_digits (fun _ => isDigit_of_mem_padded) (padded_ne_nil width number) hLength hEnd

theorem run_skipBlanks_padded (width number : Nat) (rest : List Char) :
    skipBlanks.run ((padded 10 width number).toList ++ rest) =
      some ((), (padded 10 width number).toList ++ rest) :=
  run_skipBlanks fun _ hHead => isBlank_of_isDigit (isDigit_head_padded hHead)

theorem run_number {least greatest number : Nat} (hLeast : least ≤ number)
    (hGreatest : number ≤ greatest) (hTwo : number < 100) (rest : List Char) :
    (Reader.number least greatest).run ((padded 10 2 number).toList ++ rest) =
      some (number, rest) := by
  have hLength : (padded 10 2 number).toList.length = 2 := length_padded (by decide) hTwo
  have hDigits : (digits 2).run ((padded 10 2 number).toList ++ rest) =
      some ((padded 10 2 number).toList, rest) :=
    run_padded (Nat.le_of_eq hLength) (.inl hLength)
  simp [Reader.number, run_skipBlanks_padded, hDigits, value_padded, hLeast, hGreatest]

/-! ## The date -/

theorem run_year_of_sign (negative : Bool) (text : List Char) :
    Reader.year.run ((if negative then '-' else '+') :: text) =
      ((digits text.length).run text).map fun (found, rest) =>
        (if negative then -Digits.value found else Digits.value found, rest) := by
  have hBlank : ∀ c ∈ ((if negative then '-' else '+') :: text).head?,
      Blank.isBlank c = false := by
    rintro _ ⟨⟩
    cases negative <;> decide
  rw [Reader.year, StateT.run_bind, run_skipBlanks hBlank]
  cases negative <;>
  · show ((digits text.length).run text).bind _ = _
    cases (digits text.length).run text <;> rfl

theorem run_year_of_isDigit {c : Char} (hDigit : c.isDigit = true) (text : List Char) :
    Reader.year.run (c :: text) =
      ((digits 4).run (c :: text)).map fun (found, rest) => (↑(Digits.value found), rest) := by
  have hMinus : c ≠ '-' := by rintro rfl; cases hDigit
  have hPlus : c ≠ '+' := by rintro rfl; cases hDigit
  have hBlank : ∀ other ∈ (c :: text).head?, Blank.isBlank other = false := by
    rintro _ ⟨⟩
    exact isBlank_of_isDigit hDigit
  rw [Reader.year, StateT.run_bind, run_skipBlanks hBlank]
  simp [hMinus, hPlus]

theorem run_year (year : Int) {rest : List Char} (hRest : EndsDigits rest) :
    Reader.year.run ((yearText year).toList ++ rest) = some (year, rest) := by
  rw [yearText]
  split
  · next hFour =>
    have hLength : (padded 10 4 year.toNat).toList.length = 4 :=
      length_padded (by decide) (by omega)
    have hDigits : (digits 4).run ((padded 10 4 year.toNat).toList ++ rest) =
        some ((padded 10 4 year.toNat).toList, rest) :=
      run_padded (Nat.le_of_eq hLength) (.inl hLength)
    have hValue : ((Digits.value (padded 10 4 year.toNat).toList : Nat) : Int) = year := by
      rw [value_padded]
      omega
    cases hText : (padded 10 4 year.toNat).toList with
    | nil => exact absurd hText (padded_ne_nil 4 year.toNat)
    | cons c more =>
      have hDigit : c.isDigit = true := isDigit_of_mem_padded (hText ▸ List.mem_cons_self)
      rw [hText] at hDigits hValue
      rw [List.cons_append, run_year_of_isDigit hDigit, ← List.cons_append, hDigits]
      exact congrArg (fun year => some (year, rest)) hValue
  · have hLength : (padded 10 4 year.natAbs).toList.length ≤
        ((padded 10 4 year.natAbs).toList ++ rest).length := by
      rw [List.length_append]
      exact Nat.le_add_right _ _
    have hText : ((if year < 0 then "-" else "+") ++ padded 10 4 year.natAbs).toList ++ rest =
        (if decide (year < 0) then '-' else '+') :: ((padded 10 4 year.natAbs).toList ++ rest) := by
      split <;> simp_all
    have hValue : (if decide (year < 0) then -(Digits.value (padded 10 4 year.natAbs).toList : Int)
        else Digits.value (padded 10 4 year.natAbs).toList) = year := by
      rw [value_padded]
      simp only [decide_eq_true_eq]
      omega
    rw [hText, run_year_of_sign, run_padded hLength (.inr hRest)]
    exact congrArg (fun year => some (year, rest)) hValue

theorem run_date {date : Date} (hDate : date.isValid = true) (rest : List Char) :
    Reader.date.run ((yearText date.year).toList ++ '-' :: ((padded 10 2 date.month).toList ++
      '-' :: ((padded 10 2 date.day).toList ++ rest))) = some (date, rest) := by
  obtain ⟨hMonth, hMonths, hDay, hDays⟩ := Date.bounds_of_isValid hDate
  have hEnd : EndsDigits ('-' :: ((padded 10 2 date.month).toList ++
      '-' :: ((padded 10 2 date.day).toList ++ rest))) := by
    rintro _ ⟨⟩
    rfl
  have hHyphen : Blank.isBlank '-' = false := by decide
  rw [Reader.date, StateT.run_bind, run_year date.year hEnd]
  simp [run_separator hHyphen, run_number hMonth hMonths (by omega),
    run_number hDay hDays (by omega)]

/-! ## The time -/

theorem run_fraction_digits {width number : Nat} (hWidth : 0 < width) (hWidths : width ≤ 9)
    (hNumber : number < 10 ^ width) {rest : List Char} (hRest : EndsDigits rest) :
    Reader.fraction.run ('.' :: (padded 10 width number).toList ++ rest) =
      some (number * 10 ^ (9 - width), rest) := by
  have hLength := length_padded hWidth hNumber
  have hDigits := run_padded (hLength.trans_le hWidths) (.inr hRest)
  have hPassed : rest.dropWhile Char.isDigit = rest := by
    cases rest with
    | nil => rfl
    | cons c rest => simp [hRest c rfl]
  simp [Reader.fraction, hDigits, hPassed, value_padded, hLength]

theorem exists_fractionText_eq {nano : Nat} (hZero : nano ≠ 0) (hNano : nano < nanosPerSecond) :
    ∃ width number, 0 < width ∧ width ≤ 9 ∧ number < 10 ^ width ∧
      number * 10 ^ (9 - width) = nano ∧ fractionText nano = "." ++ padded 10 width number := by
  have hNano : nano < 1000000000 := hNano
  rw [fractionText, if_neg hZero]
  split
  · exact ⟨3, nano / 1000000, by decide, by decide, by omega, by omega, rfl⟩
  · split
    · exact ⟨6, nano / 1000, by decide, by decide, by omega, by omega, rfl⟩
    · exact ⟨9, nano, by decide, by decide, by omega, by omega, rfl⟩

theorem run_fraction {nano : Nat} (hNano : nano < nanosPerSecond) (rest : List Char) :
    Reader.fraction.run ((fractionText nano).toList ++ 'Z' :: rest) = some (nano, 'Z' :: rest) := by
  by_cases hZero : nano = 0
  · subst hZero
    rfl
  · obtain ⟨width, number, hWidth, hWidths, hNumber, hValue, hText⟩ :=
      exists_fractionText_eq hZero hNano
    have hEnd : EndsDigits ('Z' :: rest) := by
      rintro _ ⟨⟩
      rfl
    have hRead := run_fraction_digits hWidth hWidths hNumber hEnd
    rw [hValue] at hRead
    rw [hText, String.toList_append]
    exact hRead

/-- The characters of a time of day, up to the letter after it. -/
def timeText (second extra nano : Nat) : List Char :=
  (padded 10 2 (second / 3600)).toList ++ ':' :: ((padded 10 2 (second / 60 % 60)).toList ++
    ':' :: ((padded 10 2 (second % 60 + extra)).toList ++ (fractionText nano).toList))

theorem run_time {second extra nano : Nat} (hSecond : second < secondsPerDay)
    (hExtra : extra = 0 ∨ extra = 1 ∧ second % 60 = 59) (hNano : nano < nanosPerSecond)
    (rest : List Char) : Reader.time.run (timeText second extra nano ++ 'Z' :: rest) =
      some ((second, extra * nanosPerSecond + nano), 'Z' :: rest) := by
  have hSecond : second < 86400 := hSecond
  have hColon : Blank.isBlank ':' = false := by decide
  have hHours : second / 3600 ≤ 23 := by omega
  have hMinutes : second / 60 % 60 ≤ 59 := by omega
  have hSeconds : second % 60 + extra ≤ 60 := by omega
  have hSum : second / 3600 * 3600 + second / 60 % 60 * 60 + second % 60 = second := by omega
  rw [timeText, Reader.time]
  simp only [List.append_assoc, List.cons_append, StateT.run_bind, run_separator hColon,
    run_number (Nat.zero_le _) hHours (by omega), run_number (Nat.zero_le _) hMinutes (by omega),
    run_number (Nat.zero_le _) hSeconds (by omega), run_fraction hNano, Option.bind_eq_bind,
    Option.bind_some]
  rcases hExtra with rfl | ⟨rfl, hLast⟩
  · rw [if_neg (by omega), Nat.add_zero, hSum, Nat.zero_mul, Nat.zero_add]
    rfl
  · rw [hLast] at hSum ⊢
    rw [if_pos rfl, hSum, Nat.one_mul]
    rfl

/-! ## The moment -/

theorem run_offset (rest : List Char) : Reader.offset.run ('Z' :: rest) = some (0, rest) := by
  rw [Reader.offset, StateT.run_bind, run_skipBlanks (by rintro _ ⟨⟩; decide)]
  rfl

theorem run_timestamp {date : Date} (hDate : date.isValid = true) {second extra nano : Nat}
    (hSecond : second < secondsPerDay) (hExtra : extra = 0 ∨ extra = 1 ∧ second % 60 = 59)
    (hNano : nano < nanosPerSecond)
    (hResult : (ofDate date second (extra * nanosPerSecond + nano)).date = date) :
    Reader.timestamp.run ((yearText date.year).toList ++ '-' :: ((padded 10 2 date.month).toList ++
        '-' :: ((padded 10 2 date.day).toList ++ 'T' :: (timeText second extra nano ++ ['Z'])))) =
      some (ofDate date second (extra * nanosPerSecond + nano), []) := by
  have hLetter := @run_char (fun c => c = 'T' || c = 't' || c = ' ') 'T' rfl
  have hEnd : skipBlanks.run [] = some ((), []) := rfl
  have hOffset : secondsPerDay ≠ 0 := by decide
  rw [Reader.timestamp]
  simp [run_date hDate, hLetter, run_time hSecond hExtra hNano, run_offset, hEnd, hDate, hOffset,
    hResult]

end Timestamp.Reader

namespace Timestamp

/-- The moment has a date in the range of the calendar, and its nanoseconds reach past a full second
only in the last second of a minute, where a leap second runs on. -/
structure IsProper (timestamp : Timestamp) : Prop where
  firstYear_le : Date.firstYear ≤ timestamp.date.year
  le_lastYear : timestamp.date.year ≤ Date.lastYear
  nano_lt : timestamp.nano < nanosPerSecond ∨
    timestamp.second % 60 = 59 ∧ timestamp.nano < 2 * nanosPerSecond

theorem ofDate_date (timestamp : Timestamp) :
    ofDate timestamp.date timestamp.secondOfDay timestamp.nano = timestamp := by
  have hDay : timestamp.day * secondsPerDay + timestamp.secondOfDay = timestamp.second := by
    rw [day, secondOfDay, secondsPerDay, Int.fdiv_eq_ediv_of_nonneg _ (by decide),
      Int.fmod_eq_emod_of_nonneg _ (by decide)]
    omega
  rw [ofDate, date, Date.toDays_ofDays, hDay]

theorem secondOfDay_lt (timestamp : Timestamp) : timestamp.secondOfDay < secondsPerDay := by
  rw [secondOfDay, secondsPerDay, Int.fmod_eq_emod_of_nonneg _ (by decide)]
  omega

theorem secondOfDay_mod (timestamp : Timestamp) :
    (timestamp.secondOfDay % 60 : Nat) = timestamp.second % 60 := by
  rw [secondOfDay, secondsPerDay, Int.fmod_eq_emod_of_nonneg _ (by decide)]
  omega

/-- The text of a moment, where the second of a leap second is counted on. -/
theorem exists_toList_text_eq {timestamp : Timestamp} (hProper : timestamp.IsProper) :
    ∃ extra nano, (extra = 0 ∨ extra = 1 ∧ timestamp.secondOfDay % 60 = 59) ∧
      nano < nanosPerSecond ∧ extra * nanosPerSecond + nano = timestamp.nano ∧
      timestamp.text.toList = (yearText timestamp.date.year).toList ++
        '-' :: ((Digits.padded 10 2 timestamp.date.month).toList ++
          '-' :: ((Digits.padded 10 2 timestamp.date.day).toList ++
            'T' :: (Reader.timeText timestamp.secondOfDay extra nano ++ ['Z']))) := by
  by_cases hLeap : timestamp.isLeap
  · have hFull : nanosPerSecond ≤ timestamp.nano := by simpa [isLeap] using hLeap
    obtain ⟨hSecond, hNano⟩ := hProper.nano_lt.resolve_left (Nat.not_lt.mpr hFull)
    have hLast : timestamp.secondOfDay % 60 = 59 := by
      have hMod := timestamp.secondOfDay_mod
      omega
    refine ⟨1, timestamp.nano - nanosPerSecond, .inr ⟨rfl, hLast⟩, by omega, by omega, ?_⟩
    simp [text, hLeap, Reader.timeText]
  · have hNano : timestamp.nano < nanosPerSecond := by simpa [isLeap] using hLeap
    refine ⟨0, timestamp.nano, .inl rfl, hNano, by omega, ?_⟩
    simp [text, hLeap, Reader.timeText]

theorem read?_text {timestamp : Timestamp} (hProper : timestamp.IsProper) :
    read? timestamp.text = some timestamp := by
  obtain ⟨extra, nano, hExtra, hNano, hWhole, hText⟩ := exists_toList_text_eq hProper
  have hDate : timestamp.date.isValid = true :=
    Date.isValid_ofDays hProper.firstYear_le hProper.le_lastYear
  have hMoment : ofDate timestamp.date timestamp.secondOfDay (extra * nanosPerSecond + nano) =
      timestamp := by
    rw [hWhole]
    exact timestamp.ofDate_date
  have hRead := Reader.run_timestamp hDate timestamp.secondOfDay_lt hExtra hNano
    (congrArg Timestamp.date hMoment)
  rw [read?, hText, hRead, hMoment]
  rfl

end Timestamp

end Statechart
