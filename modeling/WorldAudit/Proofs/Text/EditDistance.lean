import Mathlib.Order.Bounds.Basic
import Mathlib.Order.MinMax
import WorldAudit.Text.EditDistance
/-!
# EditDistance — the least number of edits

An edit changes a text in one place (`Edit`).  The rows hold the distances of all pairs of endings, so the distance
follows a recursion on both texts (`editDistance_cons_cons`).  One edit changes it by at most one, and there are as many
edits that lead from one text to the other as it says, so it is the least number of them (`isLeast_editDistance`).
-/
namespace WorldAudit
namespace Text

/-! ## Edits -/

/-- **One edit**: somewhere in a text a character is inserted, deleted, or replaced. -/
inductive Edit : List Char → List Char → Prop
  | insert (front : List Char) (c : Char) (back : List Char) : Edit (front ++ back) (front ++ c :: back)
  | delete (front : List Char) (c : Char) (back : List Char) : Edit (front ++ c :: back) (front ++ back)
  | replace (front : List Char) (c d : Char) (back : List Char) : Edit (front ++ c :: back) (front ++ d :: back)

/-- So many edits, one after another, make one text of the other. -/
inductive Edited : Nat → List Char → List Char → Prop
  | refl (cs : List Char) : Edited 0 cs cs
  | step {n : Nat} {as bs cs : List Char} (h : Edit as bs) (hs : Edited n bs cs) : Edited (n + 1) as cs

theorem Edit.cons {as bs : List Char} (c : Char) (h : Edit as bs) : Edit (c :: as) (c :: bs) := by
  cases h with
  | insert front d back => exact .insert (c :: front) d back
  | delete front d back => exact .delete (c :: front) d back
  | replace front d e back => exact .replace (c :: front) d e back

theorem Edited.cons {n : Nat} {as bs : List Char} (c : Char) (h : Edited n as bs) : Edited n (c :: as) (c :: bs) := by
  induction h with
  | refl cs => exact .refl _
  | step h _ ih => exact .step (h.cons c) ih

/-! ## The recursion of the rows -/

/-- The distances from a text to every ending of another. -/
def distances (as bs : List Char) : List Nat := as.foldr (fun a row => nextRow a bs row) (insertions bs)

theorem tail_distances (b : Char) (bs : List Char) : ∀ as : List Char, (distances as (b :: bs)).tail = distances as bs
  | [] => rfl
  | a :: as => by
    show nextRow a bs (distances as (b :: bs)).tail = _
    rw [tail_distances b bs as]
    rfl

theorem editDistance_cons_nil (a : Char) (as : List Char) : editDistance (a :: as) [] = editDistance as [] + 1 := rfl

theorem editDistance_nil_right : ∀ as : List Char, editDistance as [] = as.length
  | [] => rfl
  | a :: as => by rw [editDistance_cons_nil, editDistance_nil_right as, List.length_cons]

theorem editDistance_cons_cons (a b : Char) (as bs : List Char) :
    editDistance (a :: as) (b :: bs) =
      if a = b then editDistance as bs
      else 1 + min (editDistance as bs) (min (editDistance as (b :: bs)) (editDistance (a :: as) bs)) := by
  show (nextRow a (b :: bs) (distances as (b :: bs))).headD 0 = _
  rw [nextRow, tail_distances]
  rfl

theorem editDistance_self : ∀ as : List Char, editDistance as as = 0
  | [] => rfl
  | a :: as => by rw [editDistance_cons_cons, if_pos rfl, editDistance_self as]

theorem editDistance_comm : ∀ as bs : List Char, editDistance as bs = editDistance bs as
  | [], bs => by rw [editDistance_nil_left, editDistance_nil_right]
  | a :: as, [] => by rw [editDistance_nil_left, editDistance_nil_right]
  | a :: as, b :: bs => by
    rw [editDistance_cons_cons, editDistance_cons_cons, editDistance_comm as bs, editDistance_comm as (b :: bs),
      editDistance_comm (a :: as) bs, min_comm (editDistance (b :: bs) as)]
    simp only [eq_comm]

/-! ## One edit counts for one at most -/

theorem editDistance_cons_near : ∀ (c : Char) (as bs : List Char),
    editDistance (c :: as) bs ≤ editDistance as bs + 1 ∧ editDistance as bs ≤ editDistance (c :: as) bs + 1
  | c, as, [] => by rw [editDistance_cons_nil]; omega
  | c, as, b :: bs => by
    -- the same for the other text, which is as long with `as` as `bs` is
    have hright := editDistance_cons_near b bs as
    have hleft := editDistance_cons_near c as bs
    rw [editDistance_comm bs as, editDistance_comm (b :: bs) as] at hright
    rw [editDistance_cons_cons]
    split <;> omega
termination_by _ as bs => as.length + bs.length

theorem editDistance_replace_le (c d : Char) (as : List Char) : ∀ bs : List Char,
    editDistance (c :: as) bs ≤ editDistance (d :: as) bs + 1
  | [] => by rw [editDistance_cons_nil, editDistance_cons_nil]; omega
  | b :: bs => by
    have hnext := editDistance_replace_le c d as bs
    have hd := editDistance_cons_near d as bs
    have hb := editDistance_cons_near b bs as
    rw [editDistance_comm bs as, editDistance_comm (b :: bs) as] at hb
    rw [editDistance_cons_cons, editDistance_cons_cons]
    split <;> split <;> omega

theorem editDistance_behind_le {as as' : List Char} (h : ∀ bs, editDistance as bs ≤ editDistance as' bs + 1) (c : Char) :
    ∀ bs : List Char, editDistance (c :: as) bs ≤ editDistance (c :: as') bs + 1
  | [] => by
    have hnil := h []
    rw [editDistance_cons_nil, editDistance_cons_nil]
    omega
  | b :: bs => by
    have hnext := editDistance_behind_le h c bs
    have hbs := h bs
    have hb := h (b :: bs)
    rw [editDistance_cons_cons, editDistance_cons_cons]
    split <;> omega

theorem editDistance_append_le {as as' : List Char} (h : ∀ bs, editDistance as bs ≤ editDistance as' bs + 1) :
    ∀ front bs : List Char, editDistance (front ++ as) bs ≤ editDistance (front ++ as') bs + 1
  | [] => h
  | c :: front => editDistance_behind_le (editDistance_append_le h front) c

/-- **An edit changes the distance by at most one.** -/
theorem editDistance_le_of_edit {as as' : List Char} (h : Edit as as') (bs : List Char) :
    editDistance as bs ≤ editDistance as' bs + 1 := by
  cases h with
  | insert front c back => exact editDistance_append_le (fun bs => (editDistance_cons_near c back bs).2) front bs
  | delete front c back => exact editDistance_append_le (fun bs => (editDistance_cons_near c back bs).1) front bs
  | replace front c d back => exact editDistance_append_le (editDistance_replace_le c d back) front bs

theorem editDistance_le_of_edited {n : Nat} {as bs : List Char} (h : Edited n as bs) : editDistance as bs ≤ n := by
  induction h with
  | refl cs => rw [editDistance_self]
  | step h _ ih => exact (editDistance_le_of_edit h _).trans (Nat.add_le_add_right ih 1)

/-! ## As many edits as the distance says -/

theorem edited_of_nil : ∀ bs : List Char, Edited bs.length [] bs
  | [] => .refl _
  | b :: bs => .step (.insert [] b []) ((edited_of_nil bs).cons b)

theorem edited_editDistance : ∀ as bs : List Char, Edited (editDistance as bs) as bs
  | [], bs => by
    rw [editDistance_nil_left]
    exact edited_of_nil bs
  | a :: as, [] => .step (.delete [] a as) (edited_editDistance as [])
  | a :: as, b :: bs => by
    rw [editDistance_cons_cons]
    by_cases hab : a = b
    · rw [if_pos hab, hab]
      exact (edited_editDistance as bs).cons b
    · rw [if_neg hab, Nat.add_comm]
      rcases min_choice (editDistance as bs) (min (editDistance as (b :: bs)) (editDistance (a :: as) bs)) with h | h
      · rw [h]
        exact .step (.replace [] a b as) ((edited_editDistance as bs).cons b)
      · rw [h]
        rcases min_choice (editDistance as (b :: bs)) (editDistance (a :: as) bs) with h | h
        · rw [h]
          exact .step (.delete [] a as) (edited_editDistance as (b :: bs))
        · rw [h]
          exact .step (.insert [] b (a :: as)) ((edited_editDistance (a :: as) bs).cons b)

/-- **The distance is the least number of edits** that make one text of the other. -/
theorem isLeast_editDistance (as bs : List Char) : IsLeast {n | Edited n as bs} (editDistance as bs) :=
  ⟨edited_editDistance as bs, fun _ h => editDistance_le_of_edited h⟩

end Text
end WorldAudit
