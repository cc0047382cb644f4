import WorldAudit.Json.Read
import WorldAudit.Proofs.Text.Position
/-!
# Location — where a text that is no JSON is at fault

A fault counts the bytes that had been read when it showed, and never more than there are (`read_error_le`); in an escape
it counts from the start of the code unit, whose bytes the reader has read (`Mode.Within`).  So the line and column of a
fault are those of the last byte read, and its offset is that byte's own, unless it is a line feed (`shown_of_read`).
-/
namespace WorldAudit
namespace Json

/-- The bytes of a code unit that have been read are among the `i` bytes read. -/
def Quoted.Within (i : Nat) (q : Quoted) : Prop :=
  match q.part with
  | .unit bytes _ _ => bytes ≤ i
  | _ => True

def QuotedStep.Within (i : Nat) : QuotedStep → Prop
  | .more q => q.Within i
  | .close => True
  | .fault shown => shown.bytes ≤ i

def Mode.Within (i : Nat) : Mode → Prop
  | .keyText q | .stringText q => q.Within i
  | _ => True

/-- **What a character leads to** counts at most `i` bytes. -/
def MoveWithin (i : Nat) : Except Fault (List Frame × Mode) → Prop
  | .ok moved => moved.2.Within i
  | .error fault => fault.bytes ≤ i

/-! ## One character -/

section Moves

variable {i : Nat} {c : Char} {mode : Mode} {q : Quoted}

theorem Quoted.pushUnit_within {j : Nat} (h : i ≤ j) (unit : Nat) : (q.pushUnit i unit).Within j := by
  unfold pushUnit
  grind [QuotedStep.Within, Quoted.Within]

theorem Quoted.step_within (hq : q.Within i) : (q.step i c).Within (i + c.utf8Size) := by
  have hsize := c.utf8Size_pos
  unfold Quoted.Within at hq
  unfold step
  grind [QuotedStep.Within, Quoted.Within, Quoted.pushUnit_within]

theorem finished_within (value : Value) (stack : List Frame) : (finished value stack).2.Within i := by
  unfold finished
  split <;> trivial

theorem closeArray_within (stack : List Frame) : (closeArray stack).2.Within i := by
  unfold closeArray
  split
  · exact finished_within _ _
  · trivial

theorem closeObject_within (stack : List Frame) : (closeObject stack).2.Within i := by
  unfold closeObject
  split
  · exact finished_within _ _
  · trivial

theorem valueStart_within (stack : List Frame) : MoveWithin (i + c.utf8Size) (valueStart i c stack) := by
  have hsize := c.utf8Size_pos
  unfold valueStart opened
  grind [MoveWithin, Mode.Within, Quoted.Within, Quoted.start]

theorem between_within (hmode : mode.Within (i + c.utf8Size)) (stack : List Frame) :
    MoveWithin (i + c.utf8Size) (between i c stack mode) := by
  have hsize := c.utf8Size_pos
  unfold between
  grind [MoveWithin, Mode.Within, Quoted.Within, Quoted.start, closeArray_within, closeObject_within, valueStart_within]

/-- **A character leads to nothing that counts more than the bytes up to its end.** -/
theorem move_within (hmode : mode.Within i) (stack : List Frame) :
    MoveWithin (i + c.utf8Size) (move i c stack mode) := by
  have hsize := c.utf8Size_pos
  cases mode with
  | word rest value =>
    cases rest with
    | nil => exact between_within (finished_within _ _) _
    | cons w rest =>
      rw [move]
      split_ifs
      · exact Nat.add_le_add_left hsize i
      · exact finished_within _ _
      · trivial
  | keyText q =>
    have hstep := Quoted.step_within (c := c) hmode
    rw [move]
    cases hq : q.step i c <;> rw [hq] at hstep
    · exact hstep
    · trivial
    · exact hstep
  | stringText q =>
    have hstep := Quoted.step_within (c := c) hmode
    rw [move]
    cases hq : q.step i c <;> rw [hq] at hstep
    · exact hstep
    · exact finished_within _ _
    · exact hstep
  | numeral n =>
    rw [move]
    cases hn : n.step c with
    | more n => trivial
    | fault cause => exact Nat.add_le_add_left hsize i
    | stop =>
      -- the number has ended before the character, which is then read between values
      dsimp only [numeralEnd]
      cases n.value? with
      | none => exact Nat.le_add_right i _
      | some value => exact between_within (finished_within _ _) _
  | _ =>
    refine between_within ?_ stack
    trivial

end Moves

/-! ## A text -/

theorem ending_error {i : Nat} {mode : Mode} {fault : Fault} (h : ending i mode = .error fault) : fault.bytes = i := by
  cases mode <;> cases h <;> rfl

theorem settle_error {i : Nat} {stack : List Frame} {mode : Mode} {fault : Fault}
    (h : settle i stack mode = .error fault) : fault.bytes = i := by
  cases mode with
  | numeral n =>
    rw [settle, numeralEnd] at h
    split_ifs at h
    cases hvalue : n.value? with
    | none =>
      rw [hvalue] at h
      cases h
      rfl
    | some value =>
      rw [hvalue] at h
      cases h
  | _ => cases h

/-- **A fault shows after no more bytes than there are.** -/
theorem State.read_error_le {s : State} {cs : List Char} {fault : Fault} (hmode : s.mode.Within s.bytes)
    (h : s.read cs = .error fault) : fault.bytes ≤ s.bytes + Text.byteCount cs := by
  induction cs generalizing s with
  | nil =>
    rw [State.read] at h
    cases hsettle : settle s.bytes s.stack s.mode with
    | error shown =>
      rw [hsettle] at h
      cases h
      exact (settle_error hsettle).le
    | ok mode =>
      rw [hsettle] at h
      exact (ending_error h).le
  | cons c cs ih =>
    rw [State.read] at h
    have hmove := move_within (c := c) hmode s.stack
    cases hstep : move s.bytes c s.stack s.mode with
    | error shown =>
      rw [hstep] at h hmove
      cases h
      exact hmove.trans (Nat.add_le_add_left (Nat.le_add_right _ _) _)
    | ok moved =>
      rw [hstep] at h hmove
      have hrest := ih (s := ⟨s.bytes + c.utf8Size, moved.1, moved.2⟩) hmove h
      exact hrest.trans_eq (Nat.add_assoc _ _ _)

theorem read_error_le {text : String} {fault : Fault} (h : read text = .error fault) :
    fault.bytes ≤ text.utf8ByteSize := by
  rw [Text.utf8ByteSize_eq]
  have hmode : State.initial.mode.Within State.initial.bytes := trivial
  exact (State.read_error_le hmode h).trans_eq (Nat.zero_add _)

/-- **Where a fault is shown**: its line and column are those of the last byte read, which is in the text, and its offset
is that byte's own, or if it is a line feed the one behind it. -/
theorem shown_of_read {text : String} {fault : Fault} (h : read text = .error fault) :
    fault.bytes ≤ text.utf8ByteSize ∧
    fault.position text = Text.placeAfter ((Text.bytesOf text).take fault.bytes) ∧
    fault.offset text =
      if (Text.bytesOf text)[fault.bytes - 1]? = some Text.lineFeed then fault.bytes else fault.bytes - 1 := by
  have hle := read_error_le h
  have hposition := Text.positionAt_eq text.toList fault.bytes
  refine ⟨hle, ?_, ?_⟩
  · rw [Fault.position, hposition, Text.bytesOf_eq]
  · rw [Fault.offset, Fault.position, hposition, Text.bytesOf_eq]
    exact Text.offsetOf_placeAfter (hle.trans_eq (Text.utf8ByteSize_eq text))

/-- A line break inside a string is shown at the start of the next line. -/
example :
    read "[\"a\nb\"]" = .error ⟨.controlCharacter, 4⟩ ∧
    (⟨.controlCharacter, 4⟩ : Fault).position "[\"a\nb\"]" = ⟨2, 0⟩ ∧
    (⟨.controlCharacter, 4⟩ : Fault).offset "[\"a\nb\"]" = 4 :=
  ⟨rfl, rfl, rfl⟩

end Json
end WorldAudit
