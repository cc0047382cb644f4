import WorldAudit.Json.Numeral
import WorldAudit.Json.Quoted
import WorldAudit.Text.Position
/-!
# Read — JSON text to values

The reader walks over the text once.  Its mode says what may come next; the arrays and objects still open lie on a
stack, innermost first.  Of a key that is repeated the last value counts.
-/
namespace WorldAudit
namespace Json

/-- An array or object still open. -/
inductive Frame where
  /-- The elements read, latest first. -/
  | array (elements : List Value)
  /-- An object whose next key is due. -/
  | object (fields : Fields)
  /-- An object whose value for `key` is due. -/
  | member (fields : Fields) (key : String)

/-- What may come next. -/
inductive Mode where
  | start
  | firstElement
  | element
  | elementEnd
  | firstKey
  | key
  | colon
  | memberValue
  | memberEnd
  | word (rest : List Char) (value : Value)
  | keyText (q : Quoted)
  | stringText (q : Quoted)
  | numeral (n : Numeral)
  | done (value : Value)

structure State where
  /-- The bytes read so far. -/
  bytes : Nat
  stack : List Frame
  mode : Mode

def State.initial : State := ⟨0, [], .start⟩

/-- The greatest number of arrays and objects open at once. -/
def maxDepth : Nat := 127

/-- The white space that may stand between the parts of a text. -/
def isLayout (c : Char) : Bool := c == ' ' || c == '\t' || c == '\n' || c == '\r'

/-- Puts a finished value into the array or object around it. -/
def finished (value : Value) : List Frame → List Frame × Mode
  | .array elements :: stack => (.array (value :: elements) :: stack, .elementEnd)
  | .member fields key :: stack => (.object (Catalog.insert key value fields) :: stack, .memberEnd)
  | stack => (stack, .done value)

/-- Opens an array or object, unless too many are open. -/
def opened (i : Nat) (frame : Frame) (mode : Mode) (stack : List Frame) : Except Fault (List Frame × Mode) :=
  if maxDepth ≤ stack.length then .error ⟨.tooDeep, i + 1⟩ else .ok (frame :: stack, mode)

/-- The value that starts with `c` after `i` bytes. -/
def valueStart (i : Nat) (c : Char) (stack : List Frame) : Except Fault (List Frame × Mode) :=
  if c = 'n' then .ok (stack, .word "ull".toList .null)
  else if c = 't' then .ok (stack, .word "rue".toList (.bool true))
  else if c = 'f' then .ok (stack, .word "alse".toList (.bool false))
  else if c = '"' then .ok (stack, .stringText .start)
  else if c = '-' then .ok (stack, .numeral (.start true .sign 0))
  else if c = '0' then .ok (stack, .numeral (.start false .zero 0))
  else if c.isDigit then .ok (stack, .numeral (.start false .whole (digitOf c)))
  else if c = '[' then opened i (.array []) .firstElement stack
  else if c = '\x7b' then opened i (.object []) .firstKey stack
  else .error ⟨.valueExpected, i + 1⟩

/-- Closes the innermost array. -/
def closeArray : List Frame → List Frame × Mode
  | .array elements :: stack => finished (.array elements.reverse) stack
  | stack => (stack, .elementEnd)

/-- Closes the innermost object. -/
def closeObject : List Frame → List Frame × Mode
  | .object fields :: stack => finished (.object fields) stack
  | stack => (stack, .memberEnd)

/-- Gives the key read to the innermost object. -/
def keyed (key : String) : List Frame → List Frame
  | .object fields :: stack => .member fields key :: stack
  | stack => stack

/-- What `c` after `i` bytes does between values. -/
def between (i : Nat) (c : Char) (stack : List Frame) (mode : Mode) : Except Fault (List Frame × Mode) :=
  if isLayout c then .ok (stack, mode)
  else match mode with
    | .firstElement => if c = ']' then .ok (closeArray stack) else valueStart i c stack
    | .element => if c = ']' then .error ⟨.trailingComma, i + 1⟩ else valueStart i c stack
    | .elementEnd =>
      if c = ']' then .ok (closeArray stack)
      else if c = ',' then .ok (stack, .element)
      else .error ⟨.elementEndExpected, i + 1⟩
    | .firstKey =>
      if c = '\x7d' then .ok (closeObject stack)
      else if c = '"' then .ok (stack, .keyText .start)
      else .error ⟨.keyExpected, i + 1⟩
    | .key =>
      if c = '\x7d' then .error ⟨.trailingComma, i + 1⟩
      else if c = '"' then .ok (stack, .keyText .start)
      else .error ⟨.keyExpected, i + 1⟩
    | .colon => if c = ':' then .ok (stack, .memberValue) else .error ⟨.colonExpected, i + 1⟩
    | .memberEnd =>
      if c = '\x7d' then .ok (closeObject stack)
      else if c = ',' then .ok (stack, .key)
      else .error ⟨.memberEndExpected, i + 1⟩
    | .done _ => .error ⟨.trailingText, i + 1⟩
    | _ => valueStart i c stack

/-- The value of a numeral that ends after `i` bytes. -/
def numeralEnd (i : Nat) (n : Numeral) (stack : List Frame) : Except Fault (List Frame × Mode) :=
  match n.value? with
  | some value => .ok (finished value stack)
  | none => .error ⟨.numberTooGreat, i⟩

/-- What the character `c` after `i` bytes does. -/
def move (i : Nat) (c : Char) (stack : List Frame) : Mode → Except Fault (List Frame × Mode)
  | .word [] value => between i c (finished value stack).1 (finished value stack).2
  | .word (w :: rest) value =>
    if c ≠ w then .error ⟨.wordExpected, i + 1⟩
    else if rest.isEmpty then .ok (finished value stack)
    else .ok (stack, .word rest value)
  | .keyText q =>
    match q.step i c with
    | .more q => .ok (stack, .keyText q)
    | .close => .ok (keyed q.text stack, .colon)
    | .fault fault => .error fault
  | .stringText q =>
    match q.step i c with
    | .more q => .ok (stack, .stringText q)
    | .close => .ok (finished (.string q.text) stack)
    | .fault fault => .error fault
  | .numeral n =>
    match n.step c with
    | .more n => .ok (stack, .numeral n)
    | .fault cause => .error ⟨cause, i + 1⟩
    | .stop => do
      let (stack, mode) ← numeralEnd i n stack
      between i c stack mode
  | mode => between i c stack mode

/-- What the end of the text after `i` bytes does. -/
def ending (i : Nat) : Mode → Except Fault Value
  | .done value => .ok value
  | .firstElement | .elementEnd => .error ⟨.endInArray, i⟩
  | .firstKey | .colon | .memberEnd => .error ⟨.endInObject, i⟩
  | .keyText _ | .stringText _ => .error ⟨.endInString, i⟩
  | _ => .error ⟨.endInValue, i⟩

/-- A complete numeral at the end of the text is a value. -/
def settle (i : Nat) (stack : List Frame) : Mode → Except Fault Mode
  | .numeral n => if n.complete then (numeralEnd i n stack).map (·.2) else .ok (.numeral n)
  | mode => .ok mode

/-- Reads the rest of a text. -/
def State.read (s : State) : List Char → Except Fault Value
  | [] => settle s.bytes s.stack s.mode >>= ending s.bytes
  | c :: cs =>
    match move s.bytes c s.stack s.mode with
    | .error fault => .error fault
    | .ok (stack, mode) => read ⟨s.bytes + c.utf8Size, stack, mode⟩ cs

/-- The value that a text writes. -/
def read (text : String) : Except Fault Value := State.initial.read text.toList

/-- The place in `text` at which a fault showed. -/
def Fault.position (fault : Fault) (text : String) : Text.Position := Text.positionAt text.toList fault.bytes

/-- The message of a fault in `text`, with its place. -/
def Fault.message (fault : Fault) (text : String) : String :=
  let place := fault.position text
  s!"{fault.cause.message} at line {place.line} column {place.column}"

/-- The offset in `text` of the byte at fault. -/
def Fault.offset (fault : Fault) (text : String) : Nat :=
  let place := fault.position text
  Text.offsetOf text.toList place.line place.column

end Json
end WorldAudit
