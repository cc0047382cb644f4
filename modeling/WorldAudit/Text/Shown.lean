import WorldAudit.Text.HiddenTable
/-!
# Shown — texts in quotes, for messages

A text is shown so that every character of it can be seen: quotes and backslashes are escaped, and characters that
cannot be shown stand as their code.
-/
namespace WorldAudit
namespace Text

def isHidden (c : Char) : Bool := inRuns c.toNat hiddenRuns

/-- A character of a text in quotes. -/
def shownChar (c : Char) : List Char :=
  match c with
  | '\x00' => ['\\', '0']
  | '\t' => ['\\', 't']
  | '\n' => ['\\', 'n']
  | '\r' => ['\\', 'r']
  | '"' => ['\\', '"']
  | '\\' => ['\\', '\\']
  | _ => if isHidden c then '\\' :: 'u' :: '\x7b' :: (Nat.toDigits 16 c.toNat ++ ['\x7d']) else [c]

example : isHidden (Char.ofNat 0x3164) = true := by decide +kernel
example : isHidden (Char.ofNat 0xFF9E) = false := by decide +kernel

def shown (s : String) : String := "\"" ++ String.ofList (s.toList.flatMap shownChar) ++ "\""

end Text
end WorldAudit
