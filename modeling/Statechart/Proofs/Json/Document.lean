import Statechart.Json.Read
import Statechart.Proofs.Json.Scan

/-!
# Reading what the grammar allows

A text of a value is read into a document that holds the value, with nothing left over. The state
of the reading before a value is said by what it does with the tokens that begin one: the first
value of an array is met where the array might also end.
-/

namespace Statechart.Json

theorem Scalar.read_string {spelling : Spelling} {text : String}
    (hSpelling : spelling.read = .ok text) :
    Scalar.read (.string spelling) = .ok (.string text) := by
  rw [Scalar.read, hSpelling]
  rfl

/-- What the scalars are read as. -/
inductive Scalar.Denotes : Scalar → Value → Prop
  | null : Denotes .null .null
  | bool (value : Bool) : Denotes (.bool value) (.bool value)
  | number {numeral : Numeral} {number : Number} (hNumeral : numeral.read = some number) :
      Denotes (.number numeral) (.number number)
  | string {spelling : Spelling} {text : String} (hSpelling : spelling.read = .ok text) :
      Denotes (.string spelling) (.string text)

theorem Scalar.denotes_of_read {scalar : Scalar} {value : Value}
    (hRead : scalar.read = .ok value) : scalar.Denotes value := by
  cases scalar with
  | null =>
    cases hRead
    exact .null
  | bool flag =>
    cases hRead
    exact .bool flag
  | number numeral =>
    rw [Scalar.read] at hRead
    cases hNumeral : numeral.read with
    | none =>
      rw [hNumeral] at hRead
      cases hRead
    | some number =>
      rw [hNumeral] at hRead
      cases hRead
      exact .number hNumeral
  | string spelling =>
    rw [Scalar.read] at hRead
    cases hSpelling : spelling.read with
    | error fault =>
      rw [hSpelling] at hRead
      cases hRead
    | ok text =>
      rw [hSpelling] at hRead
      cases hRead
      exact .string hSpelling

theorem Scalar.exists_spelling {scalar : Scalar} {text : String}
    (hRead : scalar.read = .ok (.string text)) :
    ∃ spelling, scalar = .string spelling ∧ spelling.read = .ok text := by
  cases denotes_of_read hRead with
  | string hSpelling => exact ⟨_, rfl, hSpelling⟩

theorem Scalar.exists_numeral {scalar : Scalar} {number : Number}
    (hRead : scalar.read = .ok (.number number)) :
    ∃ numeral, scalar = .number numeral ∧ numeral.read = some number := by
  cases denotes_of_read hRead with
  | number hNumeral => exact ⟨_, rfl, hNumeral⟩

/-- The value has no parts: it is a string, a boolean, a null or a number. -/
def Value.IsPlain : Value → Prop
  | .array _ | .object _ => False
  | _ => True

theorem Scalar.isPlain_of_read {scalar : Scalar} {value : Value}
    (hRead : scalar.read = .ok value) : value.IsPlain := by
  cases denotes_of_read hRead <;> trivial

namespace Doc

mutual

/-- The document is whole and holds the value. -/
inductive Holds : Doc → Value → Prop
  | scalar {scalar : Scalar} {value : Value} (hRead : scalar.read = .ok value) :
      Holds (.scalar scalar) value
  | array {docs : List Doc} {items : List Value} (hItems : List.Forall₂ Holds docs items) :
      Holds (.array docs .closed) (.array items)
  | object {docs : List (Spelling × Doc)} {members : List (String × Value)}
      (hMembers : List.Forall₂ HoldsMember docs members) :
      Holds (.object docs .closed) (.object members)

inductive HoldsMember : Spelling × Doc → String × Value → Prop
  | intro {spelling : Spelling} {key : String} {doc : Doc} {value : Value}
      (hKey : spelling.read = .ok key) (hValue : Holds doc value) :
      HoldsMember (spelling, doc) (key, value)

end

theorem Holds.exists_scalar {doc : Doc} {value : Value} (hHolds : doc.Holds value)
    (hPlain : value.IsPlain) : ∃ scalar, doc = .scalar scalar ∧ scalar.read = .ok value := by
  cases hHolds with
  | scalar hRead => exact ⟨_, rfl, hRead⟩
  | array => exact hPlain.elim
  | object => exact hPlain.elim

theorem Holds.exists_items {doc : Doc} {items : List Value} (hHolds : doc.Holds (.array items)) :
    ∃ docs, doc = .array docs .closed ∧ List.Forall₂ Holds docs items := by
  cases hHolds with
  | scalar hRead => exact (Scalar.isPlain_of_read hRead).elim
  | array hItems => exact ⟨_, rfl, hItems⟩

theorem Holds.exists_members {doc : Doc} {members : List (String × Value)}
    (hHolds : doc.Holds (.object members)) :
    ∃ docs, doc = .object docs .closed ∧ List.Forall₂ HoldsMember docs members := by
  cases hHolds with
  | scalar hRead => exact (Scalar.isPlain_of_read hRead).elim
  | object hMembers => exact ⟨_, rfl, hMembers⟩

/-- Reads on through the tokens of a text. -/
def follow (reading : Reading) (text : List Char) : Reading :=
  (Token.scan text).foldl take reading

/-! ## One token -/

theorem follow_blank {c : Char} (hBlank : c ∈ [' ', '\t', '\n', '\r']) (reading : Reading)
    (rest : List Char) : follow reading (c :: rest) = follow reading rest := by
  have hNext : Token.next .ready c rest = ([], .ready) := by
    simp only [List.mem_cons, List.not_mem_nil, or_false] at hBlank
    rcases hBlank with rfl | rfl | rfl | rfl <;> rfl
  rw [follow, follow, Token.scan, Token.scanFrom_of_next hNext]
  rfl

theorem follow_blanks {blanks : List Char} (hBlanks : Blanks blanks) (reading : Reading)
    (rest : List Char) : follow reading (blanks ++ rest) = follow reading rest := by
  induction blanks with
  | nil => rfl
  | cons c blanks ih =>
    rw [List.cons_append, follow_blank (hBlanks c List.mem_cons_self),
      ih fun other hOther => hBlanks other (List.mem_cons_of_mem _ hOther)]

theorem follow_of_scan {text rest : List Char} {token : Token}
    (hScan : Token.scanFrom .ready text = token :: Token.scanFrom .ready rest) (reading : Reading) :
    follow reading text = follow (take reading token) rest := by
  rw [follow, Token.scan, hScan]
  rfl

theorem endsNumber_of_blanks {blanks rest : List Char} (hBlanks : Blanks blanks)
    (hRest : Token.EndsNumber rest) : Token.EndsNumber (blanks ++ rest) := by
  cases blanks with
  | nil => exact hRest
  | cons c blanks =>
    rintro _ ⟨⟩
    have hBlank := hBlanks c List.mem_cons_self
    simp only [List.mem_cons, List.not_mem_nil, or_false] at hBlank
    rcases hBlank with rfl | rfl | rfl | rfl <;> decide

theorem endsNumber_mark {c : Char} (hMark : c ∈ [',', ']', '\x7d']) (rest : List Char) :
    Token.EndsNumber (c :: rest) := by
  rintro _ ⟨⟩
  simp only [List.mem_cons, List.not_mem_nil, or_false] at hMark
  rcases hMark with rfl | rfl | rfl <;> decide

/-- The marks and their tokens. -/
inductive Mark : Char → Token → Prop
  | openArray : Mark '[' .openArray
  | closeArray : Mark ']' .closeArray
  | openObject : Mark '\x7b' .openObject
  | closeObject : Mark '\x7d' .closeObject
  | comma : Mark ',' .comma
  | colon : Mark ':' .colon

theorem follow_mark {c : Char} {token : Token} (hMark : Mark c token) (reading : Reading)
    (rest : List Char) : follow reading (c :: rest) = follow (take reading token) rest := by
  cases hMark <;> exact follow_of_scan rfl reading

/-! ## Values -/

/-- A value may be next, and what comes before and after it is around it. -/
def AwaitsValue (reading : Reading) (outer : List Frame) : Prop :=
  ∀ token, token ≠ .closeArray → take reading token = takeValue outer token

theorem awaitsValue_value (outer : List Frame) : AwaitsValue (.value outer) outer :=
  fun _ _ => rfl

theorem awaitsValue_item (outer : List Frame) :
    AwaitsValue (.item outer) (.array [] :: outer) := by
  intro token hToken
  cases token with
  | closeArray => exact absurd rfl hToken
  | _ => rfl

/-- A key may be next, and the members read so far stand before it. -/
def AwaitsKey (reading : Reading) (read : List (Spelling × Doc)) (outer : List Frame) : Prop :=
  ∀ key, take reading (.scalar (.string key)) = .colon read key outer

/-- From wherever a value may be next, the text leads to where the document has been supplied. -/
def IsRead (doc : Doc) (text : List Char) : Prop :=
  ∀ reading outer rest, AwaitsValue reading outer → Token.EndsNumber rest →
    follow reading (text ++ rest) = follow (supply doc outer) rest

/-- From wherever an item may be next, and the end of the array too if the text has no items, the
text and the closing mark lead to where the array has been supplied. -/
def AreRead (docs : List Doc) (text : List Char) : Prop :=
  ∀ reading read outer rest, AwaitsValue reading (.array read :: outer) →
    (docs = [] → take reading .closeArray = supply (.array read.reverse .closed) outer) →
    follow reading (text ++ ']' :: rest) =
      follow (supply (.array (read.reverse ++ docs) .closed) outer) rest

/-- From wherever a key may be next, the text of a member leads to where it has been taken. -/
def IsReadMember (doc : Spelling × Doc) (text : List Char) : Prop :=
  ∀ reading read outer rest, AwaitsKey reading read outer → Token.EndsNumber rest →
    follow reading (text ++ rest) = follow (.afterMember (doc :: read) outer) rest

def AreReadMembers (docs : List (Spelling × Doc)) (text : List Char) : Prop :=
  ∀ reading read outer rest, AwaitsKey reading read outer →
    (docs = [] → take reading .closeObject = supply (.object read.reverse .closed) outer) →
    follow reading (text ++ '\x7d' :: rest) =
      follow (supply (.object (read.reverse ++ docs) .closed) outer) rest

theorem isRead_scalar {scalar : Scalar} {text : List Char}
    (hScan : ∀ rest, Token.EndsNumber rest → Token.scanFrom .ready (text ++ rest) =
      .scalar scalar :: Token.scanFrom .ready rest) : IsRead (.scalar scalar) text := by
  intro reading outer rest hReading hRest
  rw [follow_of_scan (hScan rest hRest), hReading (.scalar scalar) (by simp)]
  rfl

theorem IsRead.padded {doc : Doc} {before text after : List Char} (hBefore : Blanks before)
    (hRead : IsRead doc text) (hAfter : Blanks after) : IsRead doc (before ++ text ++ after) := by
  intro reading outer rest hReading hRest
  rw [List.append_assoc, List.append_assoc, follow_blanks hBefore,
    hRead _ _ _ hReading (endsNumber_of_blanks hAfter hRest), follow_blanks hAfter]

/-! ## Arrays -/

theorem areRead_none {blanks : List Char} (hBlanks : Blanks blanks) : AreRead [] blanks := by
  intro reading read outer rest _ hEnd
  rw [follow_blanks hBlanks, follow_mark .closeArray, hEnd rfl, List.append_nil]

theorem IsRead.one {doc : Doc} {text : List Char} (hRead : IsRead doc text) :
    AreRead [doc] text := by
  intro reading read outer rest hReading _
  rw [hRead _ _ _ hReading (endsNumber_mark (by simp) rest), follow_mark .closeArray,
    ← List.reverse_cons]
  rfl

theorem IsRead.more {doc next : Doc} {docs : List Doc} {text others : List Char}
    (hRead : IsRead doc text) (hOthers : AreRead (next :: docs) others) :
    AreRead (doc :: next :: docs) (text ++ ',' :: others) := by
  intro reading read outer rest hReading _
  rw [List.append_assoc, List.cons_append,
    hRead _ _ _ hReading (endsNumber_mark (by simp) _), follow_mark .comma]
  have hRest := hOthers _ (doc :: read) outer rest (awaitsValue_value _) nofun
  rw [List.reverse_cons, List.append_assoc, List.singleton_append] at hRest
  exact hRest

theorem AreRead.array {docs : List Doc} {text : List Char} (hDocs : AreRead docs text) :
    IsRead (.array docs .closed) ('[' :: text ++ [']']) := by
  intro reading outer rest hReading _
  rw [List.cons_append, List.cons_append, List.append_assoc, follow_mark .openArray,
    hReading .openArray nofun]
  exact hDocs (.item outer) [] outer rest (awaitsValue_item outer) fun _ => rfl

/-! ## Objects -/

theorem IsRead.member {spelling : Spelling} {doc : Doc} {before name between text : List Char}
    (hBefore : Blanks before)
    (hName : ∀ rest, Token.scanFrom .ready (name ++ rest) =
      .scalar (.string spelling) :: Token.scanFrom .ready rest)
    (hBetween : Blanks between) (hRead : IsRead doc text) :
    IsReadMember (spelling, doc) (before ++ name ++ between ++ ':' :: text) := by
  intro reading read outer rest hReading hRest
  rw [List.append_assoc, List.append_assoc, List.append_assoc, follow_blanks hBefore,
    follow_of_scan (hName _), hReading spelling, follow_blanks hBetween, List.cons_append,
    follow_mark .colon]
  exact hRead _ _ _ (awaitsValue_value _) hRest

theorem areReadMembers_none {blanks : List Char} (hBlanks : Blanks blanks) :
    AreReadMembers [] blanks := by
  intro reading read outer rest _ hEnd
  rw [follow_blanks hBlanks, follow_mark .closeObject, hEnd rfl, List.append_nil]

theorem IsReadMember.one {doc : Spelling × Doc} {text : List Char} (hRead : IsReadMember doc text) :
    AreReadMembers [doc] text := by
  intro reading read outer rest hReading _
  rw [hRead _ _ _ _ hReading (endsNumber_mark (by simp) rest), follow_mark .closeObject,
    ← List.reverse_cons]
  rfl

theorem IsReadMember.more {doc next : Spelling × Doc} {docs : List (Spelling × Doc)}
    {text others : List Char} (hRead : IsReadMember doc text)
    (hOthers : AreReadMembers (next :: docs) others) :
    AreReadMembers (doc :: next :: docs) (text ++ ',' :: others) := by
  intro reading read outer rest hReading _
  rw [List.append_assoc, List.cons_append,
    hRead _ _ _ _ hReading (endsNumber_mark (by simp) _), follow_mark .comma]
  have hRest := hOthers (.nextKey (doc :: read) outer) (doc :: read) outer rest (fun _ => rfl) nofun
  rw [List.reverse_cons, List.append_assoc, List.singleton_append] at hRest
  exact hRest

theorem AreReadMembers.object {docs : List (Spelling × Doc)} {text : List Char}
    (hDocs : AreReadMembers docs text) :
    IsRead (.object docs .closed) ('\x7b' :: text ++ ['\x7d']) := by
  intro reading outer rest hReading _
  rw [List.cons_append, List.cons_append, List.append_assoc, follow_mark .openObject,
    hReading .openObject nofun]
  exact hDocs (.key outer) [] outer rest (fun _ => rfl) fun _ => rfl

/-! ## The grammar -/

mutual

theorem exists_read_written : ∀ {value : Value} {text : List Char}, value.WrittenAs text →
    ∃ doc, Holds doc value ∧ IsRead doc text
  | _, _, .null => ⟨_, .scalar rfl, isRead_scalar fun rest _ => Token.scanFrom_null rest⟩
  | _, _, .bool value =>
    ⟨_, .scalar rfl, isRead_scalar fun rest _ => Token.scanFrom_bool value rest⟩
  | _, _, .integer hLeast hGreatest => by
    obtain ⟨numeral, hRead, hScan⟩ := exists_scan_integer hLeast hGreatest
    exact ⟨_, .scalar (by rw [Scalar.read, hRead]; rfl), isRead_scalar hScan⟩
  | _, _, .minusZero =>
    ⟨_, .scalar (by rw [Scalar.read, read_minusZero]), isRead_scalar fun _ hRest =>
      Token.scanFrom_signed_zero hRest true⟩
  | _, _, .string hQuoted => by
    obtain ⟨spelling, hRead, hScan⟩ := Token.exists_scan_quoted hQuoted
    exact ⟨_, .scalar (Scalar.read_string hRead), isRead_scalar fun rest _ => hScan rest⟩
  | _, _, .array hItems => by
    obtain ⟨docs, hHolds, hRead⟩ := exists_read_items hItems
    exact ⟨_, .array hHolds, hRead.array⟩
  | _, _, .object hMembers => by
    obtain ⟨docs, hHolds, hRead⟩ := exists_read_members hMembers
    exact ⟨_, .object hHolds, hRead.object⟩

theorem exists_read_padded : ∀ {value : Value} {text : List Char}, value.PaddedAs text →
    ∃ doc, Holds doc value ∧ IsRead doc text
  | _, _, .intro hBefore hValue hAfter => by
    obtain ⟨doc, hHolds, hRead⟩ := exists_read_written hValue
    exact ⟨doc, hHolds, hRead.padded hBefore hAfter⟩

theorem exists_read_items : ∀ {items : List Value} {text : List Char},
    Value.ItemsWrittenAs items text → ∃ docs, List.Forall₂ Holds docs items ∧ AreRead docs text
  | _, _, .none hBlanks => ⟨[], .nil, areRead_none hBlanks⟩
  | _, _, .one hItem => by
    obtain ⟨doc, hHolds, hRead⟩ := exists_read_padded hItem
    exact ⟨[doc], .cons hHolds .nil, hRead.one⟩
  | _, _, .more hItem hRest => by
    obtain ⟨doc, hHolds, hRead⟩ := exists_read_padded hItem
    obtain ⟨docs, hOthers, hReadOthers⟩ := exists_read_items hRest
    cases hOthers with
    | cons hNext hOthers =>
      exact ⟨_, .cons hHolds (.cons hNext hOthers), hRead.more hReadOthers⟩

theorem exists_read_member : ∀ {key : String} {value : Value} {text : List Char},
    Value.MemberWrittenAs key value text →
      ∃ doc, HoldsMember doc (key, value) ∧ IsReadMember doc text
  | _, _, _, .intro hBefore hKey hBetween hValue => by
    obtain ⟨spelling, hSpelling, hName⟩ := Token.exists_scan_quoted hKey
    obtain ⟨doc, hHolds, hRead⟩ := exists_read_padded hValue
    exact ⟨_, .intro hSpelling hHolds, hRead.member hBefore hName hBetween⟩

theorem exists_read_members : ∀ {members : List (String × Value)} {text : List Char},
    Value.MembersWrittenAs members text →
      ∃ docs, List.Forall₂ HoldsMember docs members ∧ AreReadMembers docs text
  | _, _, .none hBlanks => ⟨[], .nil, areReadMembers_none hBlanks⟩
  | _, _, .one hMember => by
    obtain ⟨doc, hHolds, hRead⟩ := exists_read_member hMember
    exact ⟨[doc], .cons hHolds .nil, hRead.one⟩
  | _, _, .more hMember hRest => by
    obtain ⟨doc, hHolds, hRead⟩ := exists_read_member hMember
    obtain ⟨docs, hOthers, hReadOthers⟩ := exists_read_members hRest
    cases hOthers with
    | cons hNext hOthers =>
      exact ⟨_, .cons hHolds (.cons hNext hOthers), hRead.more hReadOthers⟩

end

end Doc

/-- What reads the document of a value reads any text of that value. -/
theorem exists_ofText_eq {value : Value} {text : String} (hText : value.PaddedAs text.toList) :
    ∃ doc, doc.Holds value ∧ ∀ {α : Type} (read : Doc → Except Problem α),
      ofText read text = read doc := by
  obtain ⟨doc, hHolds, hRead⟩ := Doc.exists_read_padded hText
  have hWhole := hRead (.value []) [] [] (Doc.awaitsValue_value []) nofun
  rw [List.append_nil] at hWhole
  have hDocument : Document.ofText text = ⟨doc, false⟩ := by
    rw [Document.ofText, Document.ofTokens]
    exact congrArg Document.ofReading hWhole
  refine ⟨doc, hHolds, fun read => ?_⟩
  rw [ofText, hDocument]
  cases hResult : read doc <;> rfl

end Statechart.Json
