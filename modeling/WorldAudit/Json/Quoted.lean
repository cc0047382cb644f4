import WorldAudit.Json.Fault
/-!
# Quoted — strings in JSON text
-/
namespace WorldAudit
namespace Json

/-- Where a string may go on. -/
inductive QuotedPart where
  | plain
  /-- After a backslash. -/
  | escape
  /-- Inside the four bytes of a code unit: how many have been read, their value, and whether they are digits. -/
  | unit (bytes value : Nat) (digits : Bool)
  /-- A second code unit has to follow: before its backslash … -/
  | pair
  /-- … and after it. -/
  | pairEscape
deriving Repr, DecidableEq

/-- A string begun: the characters read, latest first, and the leading surrogate read, if any. -/
structure Quoted where
  part : QuotedPart
  chars : List Char
  leading : Option Nat
deriving Repr, DecidableEq

def Quoted.start : Quoted := ⟨.plain, [], none⟩

def Quoted.text (q : Quoted) : String := String.ofList q.chars.reverse

inductive QuotedStep where
  | more (q : Quoted)
  /-- The character closes the string. -/
  | close
  | fault (fault : Fault)

def hexDigit? (c : Char) : Option Nat :=
  if c.isDigit then some (c.toNat - '0'.toNat)
  else if 'a' ≤ c ∧ c ≤ 'f' then some (c.toNat - 'a'.toNat + 10)
  else if 'A' ≤ c ∧ c ≤ 'F' then some (c.toNat - 'A'.toNat + 10)
  else none

def isLeading (unit : Nat) : Bool := 0xD800 ≤ unit && unit ≤ 0xDBFF
def isTrailing (unit : Nat) : Bool := 0xDC00 ≤ unit && unit ≤ 0xDFFF

/-- The character of a single-letter escape. -/
def shortEscape? : Char → Option Char
  | '"' => some '"'
  | '\\' => some '\\'
  | '/' => some '/'
  | 'b' => some '\x08'
  | 'f' => some '\x0c'
  | 'n' => some '\n'
  | 'r' => some '\r'
  | 't' => some '\t'
  | _ => none

/-- Takes a code unit whose last byte is byte `i`. -/
def Quoted.pushUnit (q : Quoted) (i unit : Nat) : QuotedStep :=
  match q.leading with
  | some leading =>
    if isTrailing unit then
      let code := 0x10000 + (leading - 0xD800) * 0x400 + (unit - 0xDC00)
      .more ⟨.plain, Char.ofNat code :: q.chars, none⟩
    else .fault ⟨.loneSurrogate, i⟩
  | none =>
    if isTrailing unit then .fault ⟨.loneSurrogate, i⟩
    else if isLeading unit then .more ⟨.pair, q.chars, some unit⟩
    else .more ⟨.plain, Char.ofNat unit :: q.chars, none⟩

/-- What the character `c` after `i` bytes does to a string. -/
def Quoted.step (q : Quoted) (i : Nat) (c : Char) : QuotedStep :=
  match q.part with
  | .plain =>
    if c = '"' then .close
    else if c = '\\' then .more { q with part := .escape }
    else if c < ' ' then .fault ⟨.controlCharacter, i + 1⟩
    else .more { q with chars := c :: q.chars }
  | .escape =>
    if c = 'u' then .more { q with part := .unit 0 0 true }
    else match shortEscape? c with
      | some d => .more { q with part := .plain, chars := d :: q.chars }
      | none => .fault ⟨.badEscape, i + 1⟩
  | .unit bytes value digits =>
    let total := bytes + c.utf8Size
    let (value, digits) := match hexDigit? c with
      | some d => (16 * value + d, digits)
      | none => (value, false)
    if total < 4 then .more { q with part := .unit total value digits }
    else if digits then q.pushUnit (i + 1) value
    else .fault ⟨.badEscape, i - bytes + 4⟩
  | .pair => if c = '\\' then .more { q with part := .pairEscape } else .fault ⟨.unfinishedPair, i + 1⟩
  | .pairEscape =>
    if c = 'u' then .more { q with part := .unit 0 0 true } else .fault ⟨.unfinishedPair, i + 1⟩

end Json
end WorldAudit
