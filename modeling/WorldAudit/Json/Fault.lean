/-!
# Fault — why a text is not JSON
-/
namespace WorldAudit
namespace Json

inductive Cause where
  | endInValue
  | endInArray
  | endInObject
  | endInString
  | valueExpected
  | wordExpected
  | elementEndExpected
  | memberEndExpected
  | colonExpected
  | keyExpected
  | trailingComma
  | trailingText
  | tooDeep
  | badNumber
  | numberTooGreat
  | controlCharacter
  | badEscape
  | loneSurrogate
  | unfinishedPair
deriving Repr, DecidableEq

def Cause.message : Cause → String
  | .endInValue => "EOF while parsing a value"
  | .endInArray => "EOF while parsing a list"
  | .endInObject => "EOF while parsing an object"
  | .endInString => "EOF while parsing a string"
  | .valueExpected => "expected value"
  | .wordExpected => "expected ident"
  | .elementEndExpected => "expected `,` or `]`"
  | .memberEndExpected => "expected `,` or `\x7d`"
  | .colonExpected => "expected `:`"
  | .keyExpected => "key must be a string"
  | .trailingComma => "trailing comma"
  | .trailingText => "trailing characters"
  | .tooDeep => "recursion limit exceeded"
  | .badNumber => "invalid number"
  | .numberTooGreat => "number out of range"
  | .controlCharacter => "control character (\\u0000-\\u001F) found while parsing a string"
  | .badEscape => "invalid escape"
  | .loneSurrogate => "lone leading surrogate in hex escape"
  | .unfinishedPair => "unexpected end of hex escape"

/-- A cause and the number of bytes read when it showed, the offending one included. -/
structure Fault where
  cause : Cause
  bytes : Nat
deriving Repr, DecidableEq

end Json
end WorldAudit
