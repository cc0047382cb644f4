/-!
# Position — bytes, lines and columns of a text

A text is counted in the bytes of its UTF-8 form.  Lines and columns are counted from one; a column is the number of
bytes since the last line feed.
-/
namespace WorldAudit
namespace Text

def byteCount : List Char → Nat
  | [] => 0
  | c :: cs => c.utf8Size + byteCount cs

/-- The offset at which the line with `lines` lines before it starts; the end of the text when it has no such line. -/
def lineStart (lines : Nat) : List Char → Nat
  | [] => 0
  | c :: cs =>
    if lines = 0 then 0
    else c.utf8Size + lineStart (if c = '\n' then lines - 1 else lines) cs

/-- The offset of a line and column, at most the end of the text. -/
def offsetOf (cs : List Char) (line column : Nat) : Nat :=
  min (lineStart (line - 1) cs + (column - 1)) (byteCount cs)

/-- A place in a text: its line, and the bytes of that line up to it. -/
structure Position where
  line : Nat
  column : Nat
deriving Repr, DecidableEq

/-- The place that `bytes` further bytes lead to from `start`. -/
def Position.advance (start : Position) (bytes : Nat) : List Char → Position
  | [] => start
  | c :: cs =>
    if bytes = 0 then start
    else if bytes < c.utf8Size then { start with column := start.column + bytes }
    else if c = '\n' then advance ⟨start.line + 1, 0⟩ (bytes - c.utf8Size) cs
    else advance { start with column := start.column + c.utf8Size } (bytes - c.utf8Size) cs

/-- The place after the first `bytes` bytes. -/
def positionAt (cs : List Char) (bytes : Nat) : Position := Position.advance ⟨1, 0⟩ bytes cs

@[simp] theorem byteCount_nil : byteCount [] = 0 := rfl

@[simp] theorem byteCount_cons (c : Char) (cs : List Char) : byteCount (c :: cs) = c.utf8Size + byteCount cs := rfl

theorem byteCount_append (xs ys : List Char) : byteCount (xs ++ ys) = byteCount xs + byteCount ys := by
  induction xs with
  | nil => rw [List.nil_append, byteCount_nil, Nat.zero_add]
  | cons x xs ih => rw [List.cons_append, byteCount_cons, byteCount_cons, ih, Nat.add_assoc]

end Text
end WorldAudit
