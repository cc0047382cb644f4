import Mathlib.Data.List.DropRight
import WorldAudit.Text.Position
/-!
# Position — from a byte count to a line and column and back

After some bytes of a text the line is one more than the line feeds among them, and the column is the number of those
after the last (`placeAfter`); `positionAt` is at that place (`positionAt_eq`).  The offset of the place is that of the
last of the bytes, unless that is a line feed: then the place is at column zero of the next line, and the offset is that
of the byte behind the line feed (`offsetOf_placeAfter`).
-/
namespace WorldAudit
namespace Text

/-- The bytes of a text. -/
def bytesOf (text : String) : List UInt8 := text.toByteArray.data.toList

def lineFeed : UInt8 := 10

/-- **The place after some bytes**: its line is one more than their line feeds, its column the number of bytes after the
last of these. -/
def placeAfter (read : List UInt8) : Position :=
  ⟨1 + read.count lineFeed, (read.rtakeWhile (· ≠ lineFeed)).length⟩

/-! ## Bytes of characters -/

def encoded (cs : List Char) : List UInt8 := cs.flatMap String.utf8EncodeChar

@[simp] theorem encoded_nil : encoded [] = [] := rfl

theorem encoded_cons (c : Char) (cs : List Char) : encoded (c :: cs) = String.utf8EncodeChar c ++ encoded cs := rfl

theorem bytesOf_eq (text : String) : bytesOf text = encoded text.toList := by
  rw [bytesOf, ← String.ofList_toList (s := text), String.toByteArray_ofList, List.utf8Encode, List.data_toByteArray,
    String.ofList_toList]
  rfl

theorem length_encoded (cs : List Char) : (encoded cs).length = byteCount cs := by
  induction cs with
  | nil => rfl
  | cons c cs ih => rw [encoded_cons, List.length_append, String.length_utf8EncodeChar, ih, byteCount_cons]

theorem encode_lineFeed : String.utf8EncodeChar '\n' = [lineFeed] := rfl

/-- A byte of a character is all of it, or it is none of the first 128. -/
theorem toNat_of_mem_encode (c : Char) : ∀ b ∈ String.utf8EncodeChar c, b.toNat = c.toNat ∨ 128 ≤ b.toNat := by
  have hc : c.val.toNat = c.toNat := rfl
  unfold String.utf8EncodeChar
  dsimp only
  split_ifs
  all_goals
    simp only [List.forall_mem_cons, List.not_mem_nil, false_implies, implies_true, and_true, UInt8.toNat_ofNat']
    omega

theorem lineFeed_notMem_encode {c : Char} (h : c ≠ '\n') : lineFeed ∉ String.utf8EncodeChar c := by
  intro hmem
  rcases toNat_of_mem_encode c lineFeed hmem with heq | hle
  · exact h (Char.toNat_inj.1 heq.symm)
  · exact absurd hle (by decide)

theorem take_encoded_of_lt {c : Char} {i : Nat} (h : i < c.utf8Size) (cs : List Char) :
    (encoded (c :: cs)).take i = (String.utf8EncodeChar c).take i :=
  List.take_append_of_le_length (by rw [String.length_utf8EncodeChar]; exact h.le)

theorem lineFeed_notMem_take_of_lt {c : Char} {i : Nat} (h : i < c.utf8Size) (cs : List Char) :
    lineFeed ∉ (encoded (c :: cs)).take i := by
  rw [take_encoded_of_lt h]
  by_cases hc : c = '\n'
  · obtain rfl := hc
    rw [Nat.lt_one_iff.1 h, List.take_zero]
    exact List.not_mem_nil
  · exact fun hmem => lineFeed_notMem_encode hc (List.mem_of_mem_take hmem)

theorem take_encoded_of_le {c : Char} {i : Nat} (h : c.utf8Size ≤ i) (cs : List Char) :
    (encoded (c :: cs)).take i = String.utf8EncodeChar c ++ (encoded cs).take (i - c.utf8Size) := by
  rw [encoded_cons, List.take_append, String.length_utf8EncodeChar, List.take_of_length_le]
  rwa [String.length_utf8EncodeChar]

/-! ## The place after some bytes -/

section Places

variable {read more : List UInt8}

theorem column_placeAfter_of_notMem (h : lineFeed ∉ read) : (placeAfter read).column = read.length := by
  have hplain : read.rtakeWhile (· ≠ lineFeed) = read := List.rtakeWhile_eq_self_iff.2 fun b hb =>
    decide_eq_true (ne_of_mem_of_not_mem hb h)
  rw [placeAfter, hplain]

theorem placeAfter_append_of_notMem (h : lineFeed ∉ more) :
    placeAfter (read ++ more) = ⟨(placeAfter read).line, (placeAfter read).column + more.length⟩ := by
  have hplain : ∀ b ∈ more.reverse, (decide (b ≠ lineFeed)) = true := fun b hb =>
    decide_eq_true (ne_of_mem_of_not_mem (List.mem_reverse.1 hb) h)
  simp only [placeAfter, List.count_append, List.count_eq_zero_of_not_mem h, Nat.add_zero, List.rtakeWhile,
    List.reverse_append, List.takeWhile_append_of_pos hplain, List.length_append, List.length_reverse]

/-- The column tells nothing of what is before a line feed. -/
theorem column_placeAfter_append_lineFeed (read more : List UInt8) :
    (placeAfter (read ++ lineFeed :: more)).column = (placeAfter more).column := by
  induction more using List.reverseRecOn with
  | nil => simp [placeAfter]
  | append_singleton more b ih =>
    have hcut : read ++ lineFeed :: (more ++ [b]) = (read ++ lineFeed :: more) ++ [b] := by simp
    simp only [placeAfter] at ih
    simp only [placeAfter, hcut, List.rtakeWhile_concat, apply_ite List.length, List.length_append, ih]

theorem column_placeAfter_cons_lineFeed (more : List UInt8) :
    (placeAfter (lineFeed :: more)).column = (placeAfter more).column :=
  column_placeAfter_append_lineFeed [] more

theorem column_placeAfter_append_of_mem (h : lineFeed ∈ more) :
    (placeAfter (read ++ more)).column = (placeAfter more).column := by
  obtain ⟨front, back, rfl⟩ := List.append_of_mem h
  rw [← List.append_assoc, column_placeAfter_append_lineFeed, column_placeAfter_append_lineFeed]

theorem placeAfter_concat_lineFeed : placeAfter (read ++ [lineFeed]) = ⟨(placeAfter read).line + 1, 0⟩ := by
  simp only [placeAfter, List.count_append, List.count_singleton_self, List.rtakeWhile_concat]
  rfl

theorem column_placeAfter_eq_zero_iff : (placeAfter read).column = 0 ↔ read = [] ∨ read.getLast? = some lineFeed := by
  induction read using List.reverseRecOn with
  | nil => simp [placeAfter]
  | append_singleton read b => simp [placeAfter, List.rtakeWhile_concat, apply_ite]

end Places

/-- **From the place after some bytes** the place after more of them is reached, also inside of a character. -/
theorem advance_placeAfter : ∀ (read : List UInt8) (i : Nat) (cs : List Char),
    (placeAfter read).advance i cs = placeAfter (read ++ (encoded cs).take i)
  | read, i, [] => by rw [encoded_nil, List.take_nil, List.append_nil, Position.advance]
  | read, i, c :: cs => by
    have hsize := String.length_utf8EncodeChar c
    rw [Position.advance]
    split_ifs with hzero hinside hfeed
    · rw [hzero, List.take_zero, List.append_nil]
    · -- inside of a character, which is then no line feed: that is a single byte
      rw [placeAfter_append_of_notMem (lineFeed_notMem_take_of_lt hinside cs), take_encoded_of_lt hinside,
        List.length_take, hsize, min_eq_left hinside.le]
    · rw [take_encoded_of_le (not_lt.1 hinside), ← placeAfter_concat_lineFeed, advance_placeAfter, hfeed,
        encode_lineFeed, List.append_assoc]
    · rw [take_encoded_of_le (not_lt.1 hinside), ← hsize,
        ← placeAfter_append_of_notMem (lineFeed_notMem_encode hfeed), advance_placeAfter, List.append_assoc]

theorem positionAt_eq (cs : List Char) (i : Nat) : positionAt cs i = placeAfter ((encoded cs).take i) :=
  advance_placeAfter [] i cs

/-! ## The offset of a place -/

theorem lineStart_zero (cs : List Char) : lineStart 0 cs = 0 := by
  cases cs <;> rfl

theorem lineStart_cons_lineFeed (lines : Nat) (cs : List Char) :
    lineStart (lines + 1) ('\n' :: cs) = '\n'.utf8Size + lineStart lines cs := rfl

theorem lineStart_cons {lines : Nat} {c : Char} (hlines : lines ≠ 0) (hc : c ≠ '\n') (cs : List Char) :
    lineStart lines (c :: cs) = c.utf8Size + lineStart lines cs := by
  rw [lineStart, if_neg hlines, if_neg hc]

/-- **The start of the line and the column make up the bytes.** -/
theorem lineStart_add_column {i : Nat} {cs : List Char} (h : i ≤ byteCount cs) :
    lineStart (((encoded cs).take i).count lineFeed) cs + (placeAfter ((encoded cs).take i)).column = i := by
  induction cs generalizing i with
  | nil =>
    obtain rfl : i = 0 := Nat.le_zero.1 h
    rfl
  | cons c cs ih =>
    by_cases hread : lineFeed ∈ (encoded (c :: cs)).take i
    · -- the line feed may be the first character, or it is among the bytes read behind that
      have hle : c.utf8Size ≤ i := not_lt.1 fun hlt => lineFeed_notMem_take_of_lt hlt cs hread
      have hrest := ih (Nat.sub_le_iff_le_add'.2 h)
      rw [take_encoded_of_le hle] at hread ⊢
      by_cases hc : c = '\n'
      · obtain rfl := hc
        rw [encode_lineFeed, List.singleton_append, List.count_cons_self, lineStart_cons_lineFeed,
          column_placeAfter_cons_lineFeed]
        omega
      · have hplain := lineFeed_notMem_encode hc
        have hmem := (List.mem_append.1 hread).resolve_left hplain
        rw [List.count_append, List.count_eq_zero_of_not_mem hplain, Nat.zero_add,
          lineStart_cons (List.count_pos_iff.2 hmem).ne' hc, column_placeAfter_append_of_mem hmem]
        omega
    · -- still in the first line, which starts at zero
      rw [List.count_eq_zero_of_not_mem hread, lineStart_zero, column_placeAfter_of_notMem hread, List.length_take,
        length_encoded, min_eq_left h, Nat.zero_add]

theorem column_take_eq_zero_iff {i : Nat} {bytes : List UInt8} (hpos : 0 < i) (hle : i ≤ bytes.length) :
    (placeAfter (bytes.take i)).column = 0 ↔ bytes[i - 1]? = some lineFeed := by
  have hne : bytes.take i ≠ [] := List.ne_nil_of_length_pos (by rwa [List.length_take, min_eq_left hle])
  have hlast : (bytes.take i).getLast? = bytes[i - 1]? := by
    rw [List.getLast?_eq_getElem?, List.length_take, min_eq_left hle,
      List.getElem?_take_of_lt (Nat.sub_lt hpos Nat.one_pos)]
  rw [column_placeAfter_eq_zero_iff, hlast, or_iff_right hne]

/-- **The offset of the place after some bytes** is that of the last of them, or if that is a line feed the one behind
it. -/
theorem offsetOf_placeAfter {i : Nat} {cs : List Char} (h : i ≤ byteCount cs) :
    offsetOf cs (placeAfter ((encoded cs).take i)).line (placeAfter ((encoded cs).take i)).column =
      if (encoded cs)[i - 1]? = some lineFeed then i else i - 1 := by
  obtain rfl | hpos := i.eq_zero_or_pos
  · simp [offsetOf, placeAfter, lineStart_zero]
  · have hsum := lineStart_add_column h
    have hline : (placeAfter ((encoded cs).take i)).line - 1 = ((encoded cs).take i).count lineFeed :=
      Nat.add_sub_cancel_left _ _
    rw [offsetOf, hline]
    simp only [← column_take_eq_zero_iff hpos (h.trans_eq (length_encoded cs).symm)]
    split_ifs with hcolumn <;> omega

theorem utf8ByteSize_eq (text : String) : text.utf8ByteSize = byteCount text.toList := by
  rw [← length_encoded, ← bytesOf_eq]
  rfl

/-- **Whether the offset of a byte is regained** from the place after the bytes up to it, which is its line and column:
it is if the byte is no line feed.  From the place after a line feed the offset of the next byte is gained, or the end
of the text. -/
theorem offset_regained_iff {text : String} {i : Nat} (hpos : 0 < i) (hle : i ≤ text.utf8ByteSize) :
    let place := placeAfter ((bytesOf text).take i)
    positionAt text.toList i = place ∧
    (offsetOf text.toList place.line place.column = i - 1 ↔ (bytesOf text)[i - 1]? ≠ some lineFeed) ∧
    ((bytesOf text)[i - 1]? = some lineFeed → offsetOf text.toList place.line place.column = i) := by
  rw [utf8ByteSize_eq] at hle
  simp only [bytesOf_eq, offsetOf_placeAfter hle]
  refine ⟨positionAt_eq _ _, ?_, fun hfeed => if_pos hfeed⟩
  split_ifs with hfeed
  · refine iff_of_false ?_ (not_not.2 hfeed)
    omega
  · exact iff_of_true rfl hfeed

/-- The second byte of a character, behind a line feed. -/
theorem second_byte_regained :
    0 < 4 ∧ 4 ≤ "[\né]".utf8ByteSize ∧ (bytesOf "[\né]")[3]? = some 0xa9 ∧ positionAt "[\né]".toList 4 = ⟨2, 2⟩ ∧
    offsetOf "[\né]".toList 2 2 = 3 := by
  have hle : 4 ≤ "[\né]".utf8ByteSize := by decide
  have hbyte : (bytesOf "[\né]")[3]? = some 0xa9 := by decide
  have hplace : placeAfter ((bytesOf "[\né]").take 4) = ⟨2, 2⟩ := by decide
  obtain ⟨hposition, hoffset, -⟩ := offset_regained_iff (by decide) hle
  rw [hplace] at hposition hoffset
  exact ⟨by decide, hle, hbyte, hposition, hoffset.2 (by rw [hbyte]; decide)⟩

/-- **A line feed inside a string**, which is byte 3: the offset that is gained from its line and column is 4. -/
theorem line_feed_passed :
    let text := "[\"a\nb\"]"
    0 < 4 ∧ 4 ≤ text.utf8ByteSize ∧ (bytesOf text)[3]? = some lineFeed ∧
    positionAt text.toList 4 = placeAfter ((bytesOf text).take 4) ∧ placeAfter ((bytesOf text).take 4) = ⟨2, 0⟩ ∧
    offsetOf text.toList 2 0 = 4 ∧ offsetOf text.toList 2 0 ≠ 4 - 1 := by
  decide

end Text
end WorldAudit
