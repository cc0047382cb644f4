import WorldAudit.Text.CaseTable
/-!
# Lower — lower case of a text

Lower case follows the default algorithm: every code point by its own map, the dotted capital I into two code points,
and capital sigma into its final form at the end of a word.  Beside it stands the comparison that folds the letters
A to Z only.
-/
namespace WorldAudit
namespace Text

/-- The code point that `runs` sends `n` to; `n` itself outside them. -/
def shiftCode (n : Nat) : List CaseRun → Nat
  | [] => n
  | r :: rest =>
    if n < r.first then n
    else if n ≤ r.last then
      if (n - r.first) % r.stride = 0 then ((n : Int) + r.shift).toNat else n
    else shiftCode n rest

/-- The lower case of one character whose lower case is one character. -/
def lowerChar (c : Char) : Char := Char.ofNat (shiftCode c.toNat lowerRuns)

def isCased (c : Char) : Bool := inRuns c.toNat casedRuns

def isIgnorable (c : Char) : Bool := inRuns c.toNat ignorableRuns

/-- Whether the first character that case does not ignore is a cased one. -/
def startsCased : List Char → Bool
  | [] => false
  | c :: cs => if isIgnorable c then startsCased cs else isCased c

def dottedCapitalI : Char := '\u0130'
def capitalSigma : Char := '\u03a3'
def smallSigma : Char := '\u03c3'
def finalSigma : Char := '\u03c2'

/-- The lower case of a text that stands after a word (`after`) or not: sigma is final when a cased character
precedes it and none follows, case-ignorable ones skipped. -/
def lowerFrom (after : Bool) : List Char → List Char
  | [] => []
  | c :: cs =>
    let rest := lowerFrom (if isIgnorable c then after else isCased c) cs
    if c = capitalSigma then
      (if after && !startsCased cs then finalSigma else smallSigma) :: rest
    else if c = dottedCapitalI then 'i' :: '\u0307' :: rest
    else lowerChar c :: rest

def lowerChars (cs : List Char) : List Char := lowerFrom false cs

/-- The lower case of a text. -/
def lower (s : String) : String := String.ofList (lowerChars s.toList)

/-- Whether two texts are equal up to the case of the letters A to Z. -/
def equalFold (a b : String) : Bool := a.toList.map Char.toLower == b.toList.map Char.toLower

@[simp] theorem toList_lower (s : String) : (lower s).toList = lowerChars s.toList := String.toList_ofList

@[simp] theorem lower_empty : lower "" = "" := rfl

end Text
end WorldAudit
