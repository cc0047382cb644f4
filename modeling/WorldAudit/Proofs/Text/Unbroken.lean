import WorldAudit.Number.Shortest
import WorldAudit.Text.Blank
/-!
# Unbroken — texts that stay on one line

Numbers are written on one line, whole ones (`unbroken_int`) and those with a fraction (`unbroken_text`).
-/
namespace WorldAudit
namespace Text

/-- **A text without line feeds.** -/
@[irreducible] def Unbroken (s : String) : Prop := '\n' ∉ s.toList

theorem unbroken_iff {s : String} : Unbroken s ↔ '\n' ∉ s.toList := by rw [Unbroken]

instance (s : String) : Decidable (Unbroken s) := decidable_of_iff _ unbroken_iff.symm

theorem unbroken_append {s t : String} : Unbroken (s ++ t) ↔ Unbroken s ∧ Unbroken t := by
  rw [unbroken_iff, unbroken_iff, unbroken_iff, String.toList_append, List.mem_append, not_or]

theorem unbroken_append_left {s t : String} (ht : Unbroken t) : Unbroken (s ++ t) ↔ Unbroken s := by
  rw [unbroken_append, and_iff_left ht]

theorem unbroken_append_right {s t : String} (hs : Unbroken s) : Unbroken (s ++ t) ↔ Unbroken t := by
  rw [unbroken_append, and_iff_right hs]

theorem unbroken_ofList {cs : List Char} : Unbroken (String.ofList cs) ↔ '\n' ∉ cs := by
  rw [unbroken_iff, String.toList_ofList]

theorem trim_sublist (cs : List Char) : (trim cs).Sublist cs := by
  have h := (List.dropWhile_sublist isBlank (l := (cs.dropWhile isBlank).reverse)).reverse
  rw [List.reverse_reverse] at h
  exact h.trans (List.dropWhile_sublist isBlank)

theorem lineFeed_notMem_toDigits (n : Nat) : '\n' ∉ Nat.toDigits 10 n := fun h =>
  absurd (Nat.isDigit_of_mem_toDigits (by decide) (by decide) h) (by decide)

theorem unbroken_nat (n : Nat) : Unbroken (toString n) := by
  rw [unbroken_iff, show toString n = n.repr from rfl, Nat.toList_repr]
  exact lineFeed_notMem_toDigits n

theorem unbroken_int : ∀ n : Int, Unbroken (toString n)
  | .ofNat n => unbroken_nat n
  | .negSucc n => unbroken_append.2 ⟨by decide, unbroken_nat (n + 1)⟩

end Text

/-! ## Numbers with a fraction -/

namespace Number

open Text (Unbroken unbroken_append unbroken_ofList)

theorem unbroken_plainText {digits : List Char} (h : '\n' ∉ digits) (place : Int) :
    Unbroken (plainText digits place) := by
  have htake : ∀ n, '\n' ∉ digits.take n := fun n hn => h (List.mem_of_mem_take hn)
  have hdrop : ∀ n, '\n' ∉ digits.drop n := fun n hn => h (List.mem_of_mem_drop hn)
  unfold plainText
  rw [unbroken_ofList]
  split
  · simp [h]
  · split
    · simp [h]
    · simp [htake, hdrop]

theorem unbroken_exponentText {plus : String} (hplus : Unbroken plus) {digits : List Char} (h : '\n' ∉ digits)
    (place : Int) : Unbroken (exponentText plus digits place) := by
  unfold exponentText
  refine unbroken_append.2 ⟨unbroken_append.2 ⟨unbroken_append.2 ⟨unbroken_ofList.2 ?_, by decide⟩, ?_⟩,
    Text.unbroken_int place⟩
  · cases digits with
    | nil => exact List.not_mem_nil
    | cons d rest =>
      obtain ⟨hd, hrest⟩ := not_or.1 (mt List.mem_cons.2 h)
      dsimp only
      split <;> simp [hd, hrest]
  · split
    · decide
    · exact hplus

theorem Layout.unbroken_text {layout : Layout} (hplus : Unbroken layout.plus) (d : Decimal) :
    Unbroken (layout.text d) := by
  have hdigits : '\n' ∉ ((Nat.toDigits 10 d.digits).reverse.dropWhile (· == '0')).reverse := fun h =>
    Text.lineFeed_notMem_toDigits d.digits
      (List.mem_reverse.1 ((List.dropWhile_sublist _).subset (List.mem_reverse.1 h)))
  unfold Layout.text
  dsimp only
  split
  · exact unbroken_plainText hdigits _
  · exact unbroken_exponentText hplus hdigits _

theorem Binary.unbroken_text {f : Format} {layout : Layout} (hplus : Unbroken layout.plus) (x : Binary f) :
    Unbroken (x.text layout) := by
  cases x with
  | nan => exact (by decide : Unbroken "NaN")
  | infinite negative => exact (by decide : ∀ negative, Unbroken (if negative = true then "-inf" else "inf")) negative
  | finite negative units =>
    have hsign : Unbroken (if negative then "-" else "") := by cases negative <;> decide
    simp only [Binary.text]
    split
    · exact unbroken_append.2 ⟨hsign, by decide⟩
    · exact unbroken_append.2 ⟨hsign, Layout.unbroken_text hplus _⟩

end Number
end WorldAudit
