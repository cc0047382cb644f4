import WorldAudit.Text.Ranges
/-!
# Blank — white space and trimming

White space is the property of that name: the five controls from tab to carriage return, the next-line control, and
the space separators and line separators of every script.
-/
namespace WorldAudit
namespace Text

/-- The code points with the property White_Space. -/
def blankRuns : List (Nat × Nat) :=
  [(0x9, 0xD), (0x20, 0x20), (0x85, 0x85), (0xA0, 0xA0), (0x1680, 0x1680), (0x2000, 0x200A), (0x2028, 0x2029),
   (0x202F, 0x202F), (0x205F, 0x205F), (0x3000, 0x3000)]

def isBlank (c : Char) : Bool := inRuns c.toNat blankRuns

/-- The text without the white space at its two ends. -/
def trim (cs : List Char) : List Char :=
  ((cs.dropWhile isBlank).reverse.dropWhile isBlank).reverse

/-- Whether nothing but white space is left. -/
def allBlank (cs : List Char) : Bool := cs.all isBlank

@[simp] theorem trim_nil : trim [] = [] := rfl

end Text
end WorldAudit
