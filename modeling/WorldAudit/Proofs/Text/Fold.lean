import WorldAudit.Proofs.Text.Lower
/-!
# Fold — the case of the letters A to Z and lower case

To fold the letters A to Z changes neither the lower case of a character nor what its neighbours see of it.  So texts
that are equal but for the case of these letters are equal in lower case (`lower_eq_of_equalFold`).  The converse holds
of small texts (`equalFold_iff_of_small`), but not of all.
-/
namespace WorldAudit
namespace Text

theorem equalFold_iff {a b : String} : equalFold a b = true ↔ a.toList.map Char.toLower = b.toList.map Char.toLower :=
  beq_iff_eq

/-! ## Characters -/

theorem toLower_of_large {c : Char} (h : ¬ c.toNat < 128) : c.toLower = c := by
  refine dif_neg fun hc => h ?_
  have hlast : c.toNat ≤ 90 := hc.2
  omega

theorem fold_small : ∀ n < 128, isCased (Char.ofNat n).toLower = isCased (Char.ofNat n) ∧
    isIgnorable (Char.ofNat n).toLower = isIgnorable (Char.ofNat n) ∧
    lowerChar (Char.ofNat n).toLower = lowerChar (Char.ofNat n) ∧ (Char.ofNat n).toLower.toNat < 128 := by
  decide +kernel

theorem lowerPiece_small {c : Char} (h : c.toNat < 128) (after : Bool) (cs : List Char) :
    lowerPiece after c cs = [lowerChar c] := by
  have hsigma : c ≠ capitalSigma := by rintro rfl; exact absurd h (by decide)
  have hdotted : c ≠ dottedCapitalI := by rintro rfl; exact absurd h (by decide)
  rw [lowerPiece, if_neg hsigma, if_neg hdotted]

/-- **What lower case looks at in a character** is the same once the character is folded. -/
theorem fold_kept (c : Char) : isCased c.toLower = isCased c ∧ isIgnorable c.toLower = isIgnorable c ∧
    ∀ after cs, lowerPiece after c.toLower cs = lowerPiece after c cs := by
  by_cases h : c.toNat < 128
  · obtain ⟨hcased, hignorable, hlower, hsmall⟩ := fold_small c.toNat h
    rw [Char.ofNat_toNat] at hcased hignorable hlower hsmall
    exact ⟨hcased, hignorable, fun after cs => by rw [lowerPiece_small hsmall, lowerPiece_small h, hlower]⟩
  · rw [toLower_of_large h]
    exact ⟨rfl, rfl, fun _ _ => rfl⟩

/-! ## Texts -/

theorem startsCased_fold : ∀ cs : List Char, startsCased (cs.map Char.toLower) = startsCased cs
  | [] => rfl
  | c :: cs => by
    obtain ⟨hcased, hignorable, -⟩ := fold_kept c
    rw [List.map_cons, startsCased, startsCased, hcased, hignorable, startsCased_fold cs]

theorem lowerFrom_fold : ∀ (after : Bool) (cs : List Char), lowerFrom after (cs.map Char.toLower) = lowerFrom after cs
  | _, [] => rfl
  | after, c :: cs => by
    obtain ⟨hcased, hignorable, hpiece⟩ := fold_kept c
    have hcut : lowerPiece after c (cs.map Char.toLower) = lowerPiece after c cs := by
      rw [lowerPiece, lowerPiece, startsCased_fold]
    rw [List.map_cons, lowerFrom_cons, lowerFrom_cons, hpiece, hcut, hcased, hignorable, lowerFrom_fold]

/-- **Texts that are equal but for the case of A to Z are equal in lower case.** -/
theorem lower_eq_of_equalFold {a b : String} (h : equalFold a b = true) : lower a = lower b := by
  rw [lower, lower, lowerChars, lowerChars, ← lowerFrom_fold, equalFold_iff.1 h, lowerFrom_fold]

/-- **Of small texts the converse holds.** -/
theorem equalFold_iff_of_small {a b : String} (ha : ∀ c ∈ a.toList, c.toNat < 128) (hb : ∀ c ∈ b.toList, c.toNat < 128) :
    equalFold a b = true ↔ lower a = lower b := by
  refine ⟨lower_eq_of_equalFold, fun h => ?_⟩
  have hchars := congrArg String.toList h
  rw [toList_lower, toList_lower, lowerChars_ascii ha, lowerChars_ascii hb] at hchars
  exact equalFold_iff.2 hchars

end Text
end WorldAudit
