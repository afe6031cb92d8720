import Switchboard.Json.Reader
import Switchboard.Json.Writer
import Switchboard.Proofs.Json.Members

/-!
The grammar of JSON: which text denotes which value. How a text is read plays no part in it; only
what digits amount to as a double is taken from there. At most as many brackets are open at a time
as the index of `Denotes` says, and a numeral beyond the largest double denotes nothing.
-/

namespace Switchboard.Json

/-! ### White space -/

def Blank (cs : List Char) : Prop := ∀ c ∈ cs, isSpace c = true

abbrev Gap := { cs : List Char // Blank cs }

/-! ### Numbers -/

abbrev Figures := { ds : List Char // ds ≠ [] ∧ ∀ c ∈ ds, c.isDigit = true }

structure Exponent where
  mark : Char
  sign? : Option Char
  figures : Figures
  marked : mark = 'e' ∨ mark = 'E'
  signed : ∀ c ∈ sign?, c = '+' ∨ c = '-'

namespace Exponent

def text (e : Exponent) : List Char := e.mark :: (e.sign?.toList ++ e.figures.val)

/-- The power of ten on top of what `shift` stands for. One that does not fit into 31 bits leaves
zero, or is out of range. -/
def number? (e : Exponent) (negative : Bool) (significand : Nat) (shift : Int) : Option Number :=
  let power := takeDigits exponentLimit 0 0 e.figures.val
  if power.rest = [] then
    float? negative significand
      (if e.sign? = some '-' then shift - power.value else shift + power.value)
  else if significand ≠ 0 ∧ e.sign? ≠ some '-' then none
  else some (.float (if negative then -0.0 else 0.0))

end Exponent

def scaled? (negative : Bool) (significand : Nat) (shift : Int) :
    Option Exponent → Option Number
  | none => float? negative significand shift
  | some e => e.number? negative significand shift

def wordNumber (negative : Bool) (n : Nat) : Number :=
  if negative then if n = 0 ∨ Nat.pow 2 63 < n then .float (-n.toUInt64.toFloat) else .int (-n)
  else .int n

/-- A whole number that fits into a word is exact. Otherwise as many leading digits count as fit
into one, and the others of the whole part move the decimal point. -/
def number? (negative : Bool) (whole : Digits) (fraction? : Option Figures)
    (exponent? : Option Exponent) : Option Number :=
  match fraction? with
  | some f =>
    let all := takeDigits wordLimit whole.value 0 f.val
    scaled? negative all.value (whole.rest.length - all.count) exponent?
  | none =>
    if whole.rest = [] ∧ exponent?.isNone then some (wordNumber negative whole.value)
    else scaled? negative whole.value whole.rest.length exponent?

structure Numeral where
  negative : Bool
  whole : Figures
  fraction? : Option Figures
  exponent? : Option Exponent
  lead : whole.val.head? = some '0' → whole.val = ['0']

namespace Numeral

def sign (n : Numeral) : List Char := if n.negative then ['-'] else []

def fractionText (fraction? : Option Figures) : List Char :=
  fraction?.elim [] fun f => '.' :: f.val

def exponentText (exponent? : Option Exponent) : List Char := exponent?.elim [] Exponent.text

def text (n : Numeral) : List Char :=
  n.sign ++ (n.whole.val ++ (fractionText n.fraction? ++ exponentText n.exponent?))

def number? (n : Numeral) : Option Number :=
  Json.number? n.negative (takeDigits wordLimit 0 0 n.whole.val) n.fraction? n.exponent?

end Numeral

/-! ### Strings -/

def Hex (digits : List Char) (n : Nat) : Prop :=
  ∃ a b c d, digits.map Text.hexValue? = [some a, some b, some c, some d] ∧
    n = ((a * 16 + b) * 16 + c) * 16 + d

/-- How a character may be spelled between quotes. Surrogates come in pairs only. -/
inductive Glyph : List Char → Char → Prop
  | plain {c : Char} (quote : c ≠ '"') (backslash : c ≠ '\\') (printable : 0x20 ≤ c.toNat) :
    Glyph [c] c
  | escaped {mark c : Char} (stands : escaped? mark = some c) : Glyph ['\\', mark] c
  | point {digits : List Char} {n : Nat} (hex : Hex digits n) (scalar : n < 0xD800 ∨ 0xDFFF < n) :
    Glyph ('\\' :: 'u' :: digits) (Char.ofNat n)
  | pair {digits more : List Char} {lead trail : Nat} (hex : Hex digits lead)
    (leads : 0xD800 ≤ lead ∧ lead ≤ 0xDBFF) (again : Hex more trail)
    (trails : 0xDC00 ≤ trail ∧ trail ≤ 0xDFFF) :
    Glyph ('\\' :: 'u' :: (digits ++ '\\' :: 'u' :: more))
      (Char.ofNat (0x10000 + (lead - 0xD800) * 1024 + (trail - 0xDC00)))

inductive Spells : List Char → List Char → Prop
  | nil : Spells [] []
  | cons {glyph spelling cs : List Char} {c : Char} (first : Glyph glyph c)
    (later : Spells spelling cs) : Spells (glyph ++ spelling) (c :: cs)

/-! ### Values -/

structure Item where
  before : Gap
  body : List Char
  behind : Gap
  value : Json

def Item.text (i : Item) : List Char := i.before.val ++ (i.body ++ i.behind.val)

structure Member extends Item where
  front : Gap
  spelling : List Char
  key : String
  gap : Gap
  spells : Spells spelling key.toList

namespace Member

def text (m : Member) : List Char :=
  m.front.val ++ '"' :: (m.spelling ++ '"' :: (m.gap.val ++ ':' :: m.toItem.text))

def entry (m : Member) : String × Json := (m.key, m.value)

end Member

/-- The values of texts in which at most so many brackets are open at a time. -/
inductive Denotes : Nat → List Char → Json → Prop
  | null {depth : Nat} : Denotes depth ['n', 'u', 'l', 'l'] .null
  | yes {depth : Nat} : Denotes depth ['t', 'r', 'u', 'e'] (.bool true)
  | no {depth : Nat} : Denotes depth ['f', 'a', 'l', 's', 'e'] (.bool false)
  | number {depth : Nat} {n : Numeral} {x : Number} (inRange : n.number? = some x) :
    Denotes depth n.text (.number x)
  | string {depth : Nat} {spelling cs : List Char} (spells : Spells spelling cs) :
    Denotes depth ('"' :: (spelling ++ ['"'])) (.string (String.ofList cs))
  | emptyArray {depth : Nat} (gap : Gap) :
    Denotes (depth + 1) ('[' :: (gap.val ++ [']'])) (.array [])
  | array {depth : Nat} {items : List Item} (filled : items ≠ [])
    (each : ∀ i ∈ items, Denotes depth i.body i.value) :
    Denotes (depth + 1) (bracketed '[' ']' (items.map Item.text)) (.array (items.map Item.value))
  | emptyObject {depth : Nat} (gap : Gap) :
    Denotes (depth + 1) ('\x7b' :: (gap.val ++ ['\x7d'])) (.object [])
  | object {depth : Nat} {members : List Member} {ordered : List (String × Json)}
    (filled : members ≠ []) (each : ∀ m ∈ members, Denotes depth m.body m.value)
    (settled : Settled (members.map Member.entry) ordered) :
    Denotes (depth + 1) (bracketed '\x7b' '\x7d' (members.map Member.text)) (.object ordered)

def IsText (text : String) (value : Json) : Prop :=
  ∃ item : Item, text.toList = item.text ∧ item.value = value ∧ Denotes 127 item.body value

end Switchboard.Json
