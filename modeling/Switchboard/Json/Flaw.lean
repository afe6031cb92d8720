/-!
What can be wrong with a text that should be a JSON value, and where. A reader stops with the
number of bytes that were left; `Stop.locate` turns that into a line and a column.
-/

namespace Switchboard.Json

inductive Flaw
  | endInArray
  | endInObject
  | endInString
  | endInValue
  | colonExpected
  | arrayCommaExpected
  | objectCommaExpected
  | wordExpected
  | valueExpected
  | badEscape
  | badNumber
  | numberOutOfRange
  | controlInString
  | keyNotString
  | loneSurrogate
  | trailingComma
  | trailingCharacters
  | cutSurrogate
  | tooDeep
  deriving DecidableEq, Repr

def Flaw.message : Flaw → String
  | endInArray => "EOF while parsing a list"
  | endInObject => "EOF while parsing an object"
  | endInString => "EOF while parsing a string"
  | endInValue => "EOF while parsing a value"
  | colonExpected => "expected `:`"
  | arrayCommaExpected => "expected `,` or `]`"
  | objectCommaExpected => "expected `,` or `\x7d`"
  | wordExpected => "expected ident"
  | valueExpected => "expected value"
  | badEscape => "invalid escape"
  | badNumber => "invalid number"
  | numberOutOfRange => "number out of range"
  | controlInString => "control character (\\u0000-\\u001F) found while parsing a string"
  | keyNotString => "key must be a string"
  | loneSurrogate => "lone leading surrogate in hex escape"
  | trailingComma => "trailing comma"
  | trailingCharacters => "trailing characters"
  | cutSurrogate => "unexpected end of hex escape"
  | tooDeep => "recursion limit exceeded"

def byteLength (cs : List Char) : Nat := cs.foldl (fun n c => n + c.utf8Size) 0

structure Stop where
  flaw : Flaw
  left : Nat
  deriving DecidableEq, Repr

namespace Stop

def atEnd (flaw : Flaw) : Stop := ⟨flaw, 0⟩

/-- In front of `rest`. -/
def before (flaw : Flaw) (rest : List Char) : Stop := ⟨flaw, byteLength rest⟩

def past (flaw : Flaw) (rest : List Char) : Stop := ⟨flaw, byteLength rest - 1⟩

end Stop

structure ReadError where
  flaw : Flaw
  line : Nat
  column : Nat
  deriving DecidableEq, Repr

def ReadError.message (e : ReadError) : String :=
  s!"{e.flaw.message} at line {e.line} column {e.column}"

def position (line column budget : Nat) : List Char → Nat × Nat
  | [] => (line, column)
  | c :: cs =>
    if budget < c.utf8Size then (line, column + budget)
    else if c = '\n' then position (line + 1) 0 (budget - 1) cs
    else position line (column + c.utf8Size) (budget - c.utf8Size) cs

def Stop.locate (stop : Stop) (text : List Char) : ReadError :=
  let (line, column) := position 1 0 (byteLength text - stop.left) text
  ⟨stop.flaw, line, column⟩

end Switchboard.Json
