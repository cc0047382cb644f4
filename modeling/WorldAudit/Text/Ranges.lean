/-!
# Ranges — sets of code points as ascending runs
-/
namespace WorldAudit
namespace Text

/-- Whether a list of runs `(first, last)` holds `n`.  The runs ascend, so the search stops at the first run past `n`. -/
def inRuns (n : Nat) : List (Nat × Nat) → Bool
  | [] => false
  | (first, last) :: rest => if n < first then false else if n ≤ last then true else inRuns n rest

theorem inRuns_of_mem {n first last : Nat} {rest : List (Nat × Nat)} (h₁ : first ≤ n) (h₂ : n ≤ last) :
    inRuns n ((first, last) :: rest) = true := by
  simp [inRuns, Nat.not_lt.2 h₁, h₂]

end Text
end WorldAudit
