import WorldAudit.File.Load
/-!
# Path — paths seen from a folder

A path lies inside a folder if its first pieces are those of the folder, apart from pieces that lead nowhere; what is
left of it is how it is seen from there (`inside?_eq_some_iff`).  So a path that is put inside a folder is seen from the
folder as it was before (`seenFrom_within`), and a file in it is named by that where its text is shown.
-/
namespace WorldAudit
namespace Path

theorem pieces_ne_nil (cs : List Char) : pieces cs ≠ [] := by
  cases cs with
  | nil => simp [pieces]
  | cons c cs =>
    unfold pieces
    split
    · simp
    · split <;> simp

theorem pieces_append (xs ys : List Char) : pieces (xs ++ '/' :: ys) = pieces xs ++ pieces ys := by
  induction xs with
  | nil => rfl
  | cons x xs ih =>
    by_cases hx : x = '/'
    · rw [List.cons_append, pieces, if_pos hx, ih, pieces, if_pos hx, List.cons_append]
    · obtain ⟨piece, rest, hpieces⟩ := List.exists_cons_of_ne_nil (pieces_ne_nil xs)
      rw [List.cons_append, pieces, if_neg hx, ih, pieces, if_neg hx, hpieces]
      rfl

theorem trimmed_append {front : List (List Char)} (h : ∀ piece ∈ front, isIdle piece = true)
    (back : List (List Char)) : trimmed (front ++ back) = trimmed back := by
  rw [trimmed, List.dropWhile_append_of_pos h, trimmed]

/-- **What is inside a folder**: a path whose first pieces are those of the folder, with idle ones among them. -/
theorem inside?_eq_some_iff {folder path rest : List (List Char)} (h : ∀ step ∈ folder, isIdle step = false) :
    inside? folder path = some rest ↔
      ∃ front back, path = front ++ back ∧ front.filter (!isIdle ·) = folder ∧ trimmed back = rest := by
  fun_induction inside? folder path with
  | case1 path =>
    constructor
    · intro hrest
      exact ⟨[], path, rfl, rfl, Option.some.inj hrest⟩
    · rintro ⟨front, back, rfl, hfront, rfl⟩
      have hidle : ∀ piece ∈ front, isIdle piece = true := fun piece hp => by
        simpa using List.filter_eq_nil_iff.1 hfront piece hp
      rw [trimmed_append hidle]
  | case2 step folder =>
    refine iff_of_false nofun ?_
    rintro ⟨front, back, hpath, hfront, -⟩
    rw [(List.append_eq_nil_iff.1 hpath.symm).1] at hfront
    cases hfront
  | case3 step folder piece path hidle ih =>
    rw [ih h]
    constructor
    · rintro ⟨front, back, rfl, hfront, hback⟩
      exact ⟨piece :: front, back, rfl, by rw [List.filter_cons, hidle]; exact hfront, hback⟩
    · rintro ⟨front, back, hpath, hfront, hback⟩
      cases front with
      | nil => cases hfront
      | cons first front =>
        obtain ⟨rfl, rfl⟩ := List.cons.inj hpath
        rw [List.filter_cons, hidle] at hfront
        exact ⟨front, back, rfl, hfront, hback⟩
  | case4 folder piece path hidle ih =>
    rw [ih fun step hs => h step (List.mem_cons_of_mem _ hs)]
    have hkept : (!isIdle piece) = true := by simpa using hidle
    constructor
    · rintro ⟨front, back, rfl, hfront, hback⟩
      exact ⟨piece :: front, back, rfl, by rw [List.filter_cons, if_pos hkept, hfront], hback⟩
    · rintro ⟨front, back, hpath, hfront, hback⟩
      cases front with
      | nil => cases hfront
      | cons first front =>
        obtain ⟨rfl, rfl⟩ := List.cons.inj hpath
        rw [List.filter_cons, if_pos hkept] at hfront
        exact ⟨front, back, rfl, (List.cons.inj hfront).2, hback⟩
  | case5 step folder piece path hidle hne =>
    refine iff_of_false nofun ?_
    rintro ⟨front, back, hpath, hfront, -⟩
    cases front with
    | nil => cases hfront
    | cons first front =>
      obtain ⟨rfl, -⟩ := List.cons.inj hpath
      rw [List.filter_cons, if_pos (by simpa using hidle)] at hfront
      exact hne (List.cons.inj hfront).1.symm

example : seenFrom "/srv/records" "/srv/./records//base/a.json" = "base/a.json" := by decide +kernel

section Within

variable {folder path : String} (hfolder : isAbsolute folder.toList = true) (hpath : isAbsolute path.toList = false)

include hfolder hpath

/-- **A path put inside a folder is seen from there as it was**, without idle pieces at its ends. -/
theorem seenFrom_within :
    seenFrom folder (within folder path) = String.ofList (joined (trimmed (pieces path.toList))) := by
  have hchars : (within folder path).toList = folder.toList ++ '/' :: path.toList := by
    rw [within, hpath, if_neg Bool.false_ne_true, String.toList_append, String.toList_append, List.append_assoc]
    rfl
  have habsolute : isAbsolute (within folder path).toList = true := by
    rw [isAbsolute, hchars, List.head?_append, beq_iff_eq.1 hfolder]
    rfl
  have hsteps : ∀ step ∈ (pieces folder.toList).filter (!isIdle ·), isIdle step = false := fun step hs => by
    simpa using (List.mem_filter.1 hs).2
  have hinside : inside? ((pieces folder.toList).filter (!isIdle ·)) (pieces (within folder path).toList) =
      some (trimmed (pieces path.toList)) := by
    rw [inside?_eq_some_iff hsteps, hchars, pieces_append]
    exact ⟨_, _, rfl, rfl, rfl⟩
  rw [seenFrom, hfolder, habsolute, hinside]
  rfl

/-- **A text that is no JSON is shown under the path of its file from the folder at hand.** -/
theorem source?_of_parse {content : String} {cause : Json.Fault} (h : Json.read content = .error cause) :
    ∃ fault, RecordFile.parseRecords (within folder path) content = .error fault ∧
      fault.source? folder = some (String.ofList (joined (trimmed (pieces path.toList))), content) := by
  refine ⟨.notJson (within folder path) content cause, by rw [RecordFile.parseRecords, h], ?_⟩
  rw [LoadFault.source?, seenFrom_within hfolder hpath]

end Within

end Path
end WorldAudit
