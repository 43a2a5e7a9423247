import Statechart.Json.Token

/-!
# Documents as far as they can be read

The tree that a text describes. Where the text breaks off, the tree does too: every array and
object around the fault keeps the parts that were read, in order, and ends broken. Whoever reads
the tree from left to right meets the fault where the text has it.
-/

namespace Statechart.Json

inductive Ending
  | closed
  | broken (fault : Fault)
  /-- Where a key must stand there is something else, or the text ends. -/
  | noKey (fault : Fault)
  deriving DecidableEq, Repr

inductive Doc
  | scalar (scalar : Scalar)
  | array (items : List Doc) (ending : Ending)
  | object (members : List (Spelling × Doc)) (ending : Ending)
  | broken (fault : Fault)

namespace Doc

/-- An array or an object around the value that is being read; the newest part comes first. -/
inductive Frame
  | array (items : List Doc)
  | member (members : List (Spelling × Doc)) (key : Spelling)

/-- What may come next, and what has been read around it. -/
inductive Reading
  | value (outer : List Frame)
  | item (outer : List Frame)
  | afterItem (items : List Doc) (outer : List Frame)
  | key (outer : List Frame)
  | nextKey (members : List (Spelling × Doc)) (outer : List Frame)
  | colon (members : List (Spelling × Doc)) (key : Spelling) (outer : List Frame)
  | afterMember (members : List (Spelling × Doc)) (outer : List Frame)
  | complete (doc : Doc)
  -- Whatever comes next, the document was at its end or broken off before.
  | trailing (doc : Doc)
  | stopped (doc : Doc)

def supply (doc : Doc) : List Frame → Reading
  | [] => .complete doc
  | .array items :: outer => .afterItem (doc :: items) outer
  | .member members key :: outer => .afterMember ((key, doc) :: members) outer

def abandon (fault : Fault) (doc : Doc) : List Frame → Doc
  | [] => doc
  | .array items :: outer =>
    abandon fault (array (doc :: items).reverse (.broken fault)) outer
  | .member members key :: outer =>
    abandon fault (object ((key, doc) :: members).reverse (.broken fault)) outer

/-- What is left when the text cannot be read past a fault. -/
def breakOff (fault : Fault) : Reading → Doc
  | .value outer => abandon fault (broken fault) outer
  | .item outer => abandon fault (array [] (.broken fault)) outer
  | .afterItem items outer => abandon fault (array items.reverse (.broken fault)) outer
  | .key outer => abandon fault (object [] (.noKey fault)) outer
  | .nextKey members outer => abandon fault (object members.reverse (.noKey fault)) outer
  | .colon members key outer =>
    abandon fault (object ((key, broken fault) :: members).reverse (.broken fault)) outer
  | .afterMember members outer => abandon fault (object members.reverse (.broken fault)) outer
  | .complete doc | .trailing doc | .stopped doc => doc

def takeValue (outer : List Frame) : Token → Reading
  | .scalar value => supply (.scalar value) outer
  | .openArray => .item outer
  | .openObject => .key outer
  | .fault fault => .stopped (breakOff fault (.value outer))
  | .closeArray | .closeObject | .comma | .colon =>
    .stopped (breakOff .malformed (.value outer))

def takeKey (members : List (Spelling × Doc)) (outer : List Frame) : Token → Reading
  | .scalar (.string key) => .colon members key outer
  | _ => .stopped (abandon .malformed (object members.reverse (.noKey .malformed)) outer)

def take (reading : Reading) (token : Token) : Reading :=
  match reading, token with
  | .value outer, token => takeValue outer token
  | .item outer, .closeArray => supply (array [] .closed) outer
  | .item outer, token => takeValue (.array [] :: outer) token
  | .afterItem items outer, .comma => .value (.array items :: outer)
  | .afterItem items outer, .closeArray => supply (array items.reverse .closed) outer
  | .key outer, .closeObject => supply (object [] .closed) outer
  | .key outer, token => takeKey [] outer token
  | .nextKey members outer, token => takeKey members outer token
  | .colon members key outer, .colon => .value (.member members key :: outer)
  | .afterMember members outer, .comma => .nextKey members outer
  | .afterMember members outer, .closeObject => supply (object members.reverse .closed) outer
  | .complete doc, _ => .trailing doc
  | .trailing doc, _ => .trailing doc
  | .stopped doc, _ => .stopped doc
  | reading, _ => .stopped (breakOff .malformed reading)

end Doc

structure Document where
  doc : Doc
  trailing : Bool

namespace Document

def ofReading : Doc.Reading → Document
  | .trailing doc => ⟨doc, true⟩
  | reading => ⟨Doc.breakOff .truncated reading, false⟩

def ofTokens (tokens : List Token) : Document :=
  ofReading (tokens.foldl Doc.take (.value []))

def ofText (text : String) : Document :=
  ofTokens (Token.scan text.toList)

end Document

end Statechart.Json
