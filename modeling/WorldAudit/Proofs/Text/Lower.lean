import WorldAudit.Text.Blank
import WorldAudit.Text.Digit
import WorldAudit.Text.Lower
/-!
# Lower — what lower case keeps

Most characters have no case: lower case neither changes them nor puts them in place of another.  A class of such
characters is kept by lower case, character by character (`Lowered`).  The lower case of a capital sigma depends on its
neighbours, though never across a character that is neither cased nor ignorable.  Such a character without case is
inert, and a text can be cut at it, the parts lowered apart (`lowerFrom_cut`).
-/
namespace WorldAudit
namespace Text

/-! ## Runs -/

/-- Whether no run of one list meets a run of the other. -/
def apart (runs runs' : List (Nat × Nat)) : Bool :=
  runs.all fun r => runs'.all fun r' => Nat.blt r.2 r'.1 || Nat.blt r'.2 r.1

theorem exists_of_inRuns {n : Nat} {runs : List (Nat × Nat)} (h : inRuns n runs = true) :
    ∃ r ∈ runs, r.1 ≤ n ∧ n ≤ r.2 := by
  induction runs with
  | nil => cases h
  | cons r runs ih =>
    unfold inRuns at h
    split at h
    · cases h
    · split at h
      · exact ⟨r, List.mem_cons_self, by omega, by omega⟩
      · obtain ⟨r', hr', hn⟩ := ih h
        exact ⟨r', List.mem_cons_of_mem r hr', hn⟩

theorem inRuns_of_apart {n : Nat} {runs runs' : List (Nat × Nat)} (h : apart runs runs' = true)
    (hn : ∃ r ∈ runs', r.1 ≤ n ∧ n ≤ r.2) : inRuns n runs = false := by
  cases hin : inRuns n runs with
  | false => rfl
  | true =>
    obtain ⟨r, hr, hr₁, hr₂⟩ := exists_of_inRuns hin
    obtain ⟨r', hr', hr₁', hr₂'⟩ := hn
    have hmeet := List.all_eq_true.1 (List.all_eq_true.1 h r hr) r' hr'
    simp only [Bool.or_eq_true, Nat.blt_eq] at hmeet
    omega

/-! ## Characters with case -/

/-- The code points that lower case changes, and those that it puts in their place. -/
def caseRuns : List (Nat × Nat) :=
  lowerRuns.flatMap (fun r => [(r.first, r.last), ((r.first + r.shift).toNat, (r.last + r.shift).toNat)]) ++
    [(0x130, 0x130), (0x307, 0x307), (0x3C2, 0x3C2)]

def HasCase (c : Char) : Prop := ∃ r ∈ caseRuns, r.1 ≤ c.toNat ∧ c.toNat ≤ r.2

/-- A class without any character that has case. -/
def Caseless (p : Char → Bool) : Prop := ∀ c, HasCase c → p c = false

theorem caseless_of_apart {runs : List (Nat × Nat)} (h : apart runs caseRuns = true) :
    Caseless fun c => inRuns c.toNat runs :=
  fun _ hc => inRuns_of_apart h hc

theorem Caseless.or {p q : Char → Bool} (hp : Caseless p) (hq : Caseless q) : Caseless fun c => p c || q c :=
  fun c hc => Bool.or_eq_false_iff.2 ⟨hp c hc, hq c hc⟩

theorem caseless_single {d : Char} (h : apart [(d.toNat, d.toNat)] caseRuns = true) : Caseless (· == d) := by
  intro c hc
  have hout := inRuns_of_apart h hc
  refine beq_eq_false_iff_ne.2 ?_
  rintro rfl
  rw [inRuns_of_mem (Nat.le_refl _) (Nat.le_refl _)] at hout
  cases hout

theorem caseless_isBlank : Caseless isBlank := caseless_of_apart (by decide +kernel)

theorem caseless_isDigit : Caseless isDigit := caseless_of_apart (by decide +kernel)

theorem shiftCode_cases (n : Nat) (runs : List CaseRun) :
    shiftCode n runs = n ∨
      ∃ r ∈ runs, r.first ≤ n ∧ n ≤ r.last ∧ (n - r.first) % r.stride = 0 ∧
        shiftCode n runs = ((n : Int) + r.shift).toNat := by
  induction runs with
  | nil => exact .inl rfl
  | cons r runs ih =>
    unfold shiftCode
    split
    · exact .inl rfl
    · split
      · split
        · rename_i hstride
          exact .inr ⟨r, List.mem_cons_self, by omega, by omega, hstride, rfl⟩
        · exact .inl rfl
      · rcases ih with ih | ⟨r', hr', hn⟩
        · exact .inl ih
        · exact .inr ⟨r', List.mem_cons_of_mem r hr', hn⟩

/-- No run with case holds a surrogate. -/
theorem isValidChar_of_caseRuns : ∀ r ∈ caseRuns, r.2 < 0xD800 ∨ 0xDFFF < r.1 ∧ r.2 < 0x110000 := by decide +kernel

theorem mem_caseRuns {r : CaseRun} (hr : r ∈ lowerRuns) : (r.first, r.last) ∈ caseRuns ∧
    (((r.first : Int) + r.shift).toNat, ((r.last : Int) + r.shift).toNat) ∈ caseRuns :=
  ⟨List.mem_append_left _ (List.mem_flatMap.2 ⟨r, hr, List.mem_cons_self⟩),
    List.mem_append_left _ (List.mem_flatMap.2 ⟨r, hr, List.mem_cons_of_mem _ List.mem_cons_self⟩)⟩

theorem toNat_lowerChar (c : Char) : (lowerChar c).toNat = shiftCode c.toNat lowerRuns := by
  rcases shiftCode_cases c.toNat lowerRuns with h | ⟨r, hr, hfirst, hlast, _, h⟩
  · rw [lowerChar, h, Char.ofNat_toNat]
  · have hvalid := isValidChar_of_caseRuns _ (mem_caseRuns hr).2
    have hchar : (((c.toNat : Int) + r.shift).toNat).isValidChar := by
      rcases hvalid with hvalid | hvalid
      · exact .inl (by dsimp only at hvalid; omega)
      · exact .inr (by dsimp only at hvalid; omega)
    rw [lowerChar, h, Char.ofNat, dif_pos hchar]
    rfl

theorem lowerChar_cases (c : Char) : lowerChar c = c ∨ HasCase c ∧ HasCase (lowerChar c) := by
  rcases shiftCode_cases c.toNat lowerRuns with h | ⟨r, hr, hfirst, hlast, _, h⟩
  · left
    rw [lowerChar, h, Char.ofNat_toNat]
  · right
    have hcode := toNat_lowerChar c
    rw [h] at hcode
    obtain ⟨hfrom, hto⟩ := mem_caseRuns hr
    exact ⟨⟨_, hfrom, hfirst, hlast⟩, _, hto, by dsimp only; omega, by dsimp only; omega⟩

/-! ## Lower case character by character -/

/-- What lower case makes of a character between what stands before it and what follows. -/
def lowerPiece (after : Bool) (c : Char) (cs : List Char) : List Char :=
  if c = capitalSigma then [if after && !startsCased cs then finalSigma else smallSigma]
  else if c = dottedCapitalI then ['i', '\u0307']
  else [lowerChar c]

theorem lowerFrom_cons (after : Bool) (c : Char) (cs : List Char) :
    lowerFrom after (c :: cs) =
      lowerPiece after c cs ++ lowerFrom (if isIgnorable c then after else isCased c) cs := by
  rw [lowerFrom, lowerPiece]
  by_cases hsigma : c = capitalSigma
  · rw [if_pos hsigma, if_pos hsigma]; rfl
  · rw [if_neg hsigma, if_neg hsigma]
    by_cases hdotted : c = dottedCapitalI
    · rw [if_pos hdotted, if_pos hdotted]; rfl
    · rw [if_neg hdotted, if_neg hdotted]; rfl

/-- What lower case can make of a character: the character itself, or for one with case some others with case. -/
def LowersTo (c : Char) (piece : List Char) : Prop :=
  piece = [c] ∨ HasCase c ∧ piece ≠ [] ∧ ∀ d ∈ piece, HasCase d

theorem hasCase_special : HasCase capitalSigma ∧ HasCase smallSigma ∧ HasCase finalSigma ∧ HasCase dottedCapitalI ∧
    HasCase 'i' ∧ HasCase '\u0307' := by
  unfold HasCase
  decide +kernel

theorem lowersTo_lowerPiece (after : Bool) (c : Char) (cs : List Char) : LowersTo c (lowerPiece after c cs) := by
  obtain ⟨hcapital, hsmall, hfinal, hdotted, hi, hdot⟩ := hasCase_special
  unfold lowerPiece
  by_cases hsigma : c = capitalSigma
  · rw [if_pos hsigma]
    refine .inr ⟨hsigma ▸ hcapital, by simp, ?_⟩
    split <;> simpa
  · rw [if_neg hsigma]
    by_cases hc : c = dottedCapitalI
    · rw [if_pos hc]
      exact .inr ⟨hc ▸ hdotted, by simp, by simp [hi, hdot]⟩
    · rw [if_neg hc]
      rcases lowerChar_cases c with h | ⟨hcase, hlower⟩
      · exact .inl (by rw [h])
      · exact .inr ⟨hcase, by simp, by simpa using hlower⟩

/-- **A text beside its lower case**, character by character. -/
inductive Lowered : List Char → List Char → Prop
  | nil : Lowered [] []
  | cons {c : Char} {cs piece cs' : List Char} (hpiece : LowersTo c piece) (h : Lowered cs cs') :
      Lowered (c :: cs) (piece ++ cs')

theorem lowered_lowerFrom (after : Bool) (cs : List Char) : Lowered cs (lowerFrom after cs) := by
  induction cs generalizing after with
  | nil => exact .nil
  | cons c cs ih =>
    rw [lowerFrom_cons]
    exact .cons (lowersTo_lowerPiece after c cs) (ih _)

section Lowered

variable {cs cs' : List Char} {p : Char → Bool}

theorem Lowered.ne_nil (h : Lowered cs cs') (hne : cs ≠ []) : cs' ≠ [] := by
  cases h with
  | nil => exact absurd rfl hne
  | cons hpiece =>
    rcases hpiece with rfl | ⟨_, hne, _⟩
    · simp
    · simp [hne]

/-- **A class without case is neither entered nor left.** -/
theorem Lowered.all_not (h : Lowered cs cs') (hp : Caseless p) (hcs : ∀ c ∈ cs, p c = false) :
    ∀ d ∈ cs', p d = false := by
  induction h with
  | nil => exact hcs
  | @cons c _ _ _ hpiece _ ih =>
    intro d hd
    rcases List.mem_append.1 hd with hd | hd
    · rcases hpiece with rfl | ⟨_, _, hcase⟩
      · rw [List.mem_singleton.1 hd]
        exact hcs c List.mem_cons_self
      · exact hp d (hcase d hd)
    · exact ih (fun c hc => hcs c (List.mem_cons_of_mem _ hc)) d hd

theorem Lowered.head? (h : Lowered cs cs') (hp : Caseless p) : cs'.head?.map p = cs.head?.map p := by
  cases h with
  | nil => rfl
  | @cons c _ piece _ hpiece =>
    rcases hpiece with rfl | ⟨hc, hne, hcase⟩
    · rfl
    · cases piece with
      | nil => exact absurd rfl hne
      | cons d piece =>
        show some (p d) = some (p c)
        rw [hp c hc, hp d (hcase d List.mem_cons_self)]

theorem Lowered.getLast? (h : Lowered cs cs') (hp : Caseless p) : cs'.getLast?.map p = cs.getLast?.map p := by
  induction h with
  | nil => rfl
  | @cons c cs piece cs' hpiece h ih =>
    cases cs with
    | nil =>
      cases h
      rw [List.append_nil]
      rcases hpiece with rfl | ⟨hc, hne, hcase⟩
      · rfl
      · rw [List.getLast?_eq_some_getLast hne, List.getLast?_singleton, Option.map_some, Option.map_some, hp c hc,
          hp _ (hcase _ (List.getLast_mem hne))]
    | cons d cs =>
      have hne := h.ne_nil (List.cons_ne_nil d cs)
      rw [List.getLast?_append, List.getLast?_eq_some_getLast hne, Option.some_or, ← List.getLast?_eq_some_getLast hne,
        ih, List.getLast?_cons_cons]

end Lowered

section LowerChars

variable {cs : List Char}

theorem lowered_lowerChars (cs : List Char) : Lowered cs (lowerChars cs) := lowered_lowerFrom false cs

theorem head?_lowerChars {p : Char → Bool} (hp : Caseless p) {b : Bool} (h : ∀ c ∈ cs.head?, p c = b) :
    ∀ c ∈ (lowerChars cs).head?, p c = b := by
  have hhead := (lowered_lowerChars cs).head? hp
  intro c hc
  rw [Option.mem_def.1 hc] at hhead
  obtain ⟨d, hd, hdc⟩ := Option.map_eq_some_iff.1 hhead.symm
  rw [← hdc]
  exact h d hd

theorem getLast?_lowerChars {p : Char → Bool} (hp : Caseless p) {b : Bool} (h : ∀ c ∈ cs.getLast?, p c = b) :
    ∀ c ∈ (lowerChars cs).getLast?, p c = b := by
  have hlast := (lowered_lowerChars cs).getLast? hp
  intro c hc
  rw [Option.mem_def.1 hc] at hlast
  obtain ⟨d, hd, hdc⟩ := Option.map_eq_some_iff.1 hlast.symm
  rw [← hdc]
  exact h d hd

theorem lower_ofList (cs : List Char) : lower (String.ofList cs) = String.ofList (lowerChars cs) := by
  rw [lower, String.toList_ofList]

end LowerChars

/-! ## Inert characters -/

/-- A character that lower case leaves as it is, and across which no sigma is looked at. -/
structure Inert (c : Char) : Prop where
  notCased : isCased c = false
  notIgnorable : isIgnorable c = false
  noCase : ¬ HasCase c

theorem inert_of_apart {runs : List (Nat × Nat)} {c : Char} (hc : inRuns c.toNat runs = true)
    (hcase : apart runs caseRuns = true) (hcased : apart casedRuns runs = true)
    (hignorable : apart ignorableRuns runs = true) : Inert c := by
  have hin := exists_of_inRuns hc
  refine ⟨inRuns_of_apart hcased hin, inRuns_of_apart hignorable hin, fun h => ?_⟩
  rw [inRuns_of_apart hcase h] at hc
  cases hc

theorem inert_of_isBlank {c : Char} (h : isBlank c = true) : Inert c :=
  inert_of_apart h (by decide +kernel) (by decide +kernel) (by decide +kernel)

theorem inert_of_isDigit {c : Char} (h : c.isDigit = true) : Inert c := by
  simp only [Char.isDigit, ge_iff_le, Bool.and_eq_true, decide_eq_true_eq] at h
  have hrun : inRuns c.toNat [(0x30, 0x39)] = true := inRuns_of_mem h.1 h.2
  exact inert_of_apart hrun (by decide +kernel) (by decide +kernel) (by decide +kernel)

theorem inert_of_mem {c : Char} (h : c = '"' ∨ c = ',') : Inert c := by
  have hrun : inRuns c.toNat [(0x22, 0x22), (0x2C, 0x2C)] = true := by rcases h with rfl | rfl <;> decide
  exact inert_of_apart hrun (by decide +kernel) (by decide +kernel) (by decide +kernel)

theorem Inert.lowerPiece_eq {c : Char} (h : Inert c) (after : Bool) (cs : List Char) : lowerPiece after c cs = [c] := by
  rcases lowersTo_lowerPiece after c cs with hpiece | ⟨hc, _⟩
  · exact hpiece
  · exact absurd hc h.noCase

section Cut

variable {c : Char} (h : Inert c)

include h

theorem lowerFrom_inert (after : Bool) (cs : List Char) : lowerFrom after (c :: cs) = c :: lowerFrom false cs := by
  rw [lowerFrom_cons, h.lowerPiece_eq, h.notIgnorable, h.notCased]
  rfl

theorem startsCased_cut (xs ys : List Char) : startsCased (xs ++ c :: ys) = startsCased xs := by
  induction xs with
  | nil => simp [startsCased, h.notIgnorable, h.notCased]
  | cons x xs ih => rw [List.cons_append, startsCased, startsCased, ih]

/-- **A text is lowered in two parts around an inert character.** -/
theorem lowerFrom_cut (after : Bool) (xs ys : List Char) :
    lowerFrom after (xs ++ c :: ys) = lowerFrom after xs ++ c :: lowerFrom false ys := by
  induction xs generalizing after with
  | nil => rw [List.nil_append, lowerFrom_inert h]; rfl
  | cons x xs ih =>
    have hpiece : lowerPiece after x (xs ++ c :: ys) = lowerPiece after x xs := by
      rw [lowerPiece, lowerPiece, startsCased_cut h]
    rw [List.cons_append, lowerFrom_cons, lowerFrom_cons, hpiece, ih, List.append_assoc]

end Cut

@[simp] theorem lowerChars_nil : lowerChars [] = [] := rfl

/-- **Inert characters in front stay as they are**, and what follows is lowered apart. -/
theorem lowerChars_inert_append {xs : List Char} (h : ∀ c ∈ xs, Inert c) (ys : List Char) :
    lowerChars (xs ++ ys) = xs ++ lowerChars ys := by
  induction xs with
  | nil => rfl
  | cons x xs ih =>
    rw [List.cons_append, lowerChars, lowerFrom_inert (h x List.mem_cons_self)]
    exact congrArg _ (ih fun c hc => h c (List.mem_cons_of_mem x hc))

theorem lowerChars_inert {xs : List Char} (h : ∀ c ∈ xs, Inert c) : lowerChars xs = xs := by
  have := lowerChars_inert_append h []
  rwa [List.append_nil, lowerChars_nil, List.append_nil] at this

/-- **What ends before an inert character is lowered apart.** -/
theorem lowerChars_append {xs ys : List Char} (h : ∀ c ∈ ys.head?, Inert c) :
    lowerChars (xs ++ ys) = lowerChars xs ++ lowerChars ys := by
  cases ys with
  | nil => rw [List.append_nil, lowerChars_nil, List.append_nil]
  | cons y ys =>
    have hy := h y rfl
    rw [lowerChars, lowerFrom_cut hy, lowerChars, lowerChars, lowerFrom_inert hy]

/-- **What begins after an inert character is lowered apart.** -/
theorem lowerChars_append_of_getLast? {xs : List Char} {c : Char} (hlast : xs.getLast? = some c) (h : Inert c)
    (ys : List Char) : lowerChars (xs ++ ys) = lowerChars xs ++ lowerChars ys := by
  obtain ⟨xs, rfl⟩ := List.getLast?_eq_some_iff.1 hlast
  have hcut : lowerChars (xs ++ [c]) = lowerFrom false xs ++ [c] := lowerFrom_cut h false xs []
  rw [List.append_assoc, List.singleton_append, lowerChars, lowerFrom_cut h, hcut, List.append_assoc]
  rfl

/-! ## Lower case twice -/

/-- What the code points of `r` are sent to stays clear of `r'`, or between its strides. -/
def CaseRun.settles (r r' : CaseRun) : Bool :=
  let first := (r.first + r.shift).toNat
  let last := (r.last + r.shift).toNat
  Nat.blt last r'.first || Nat.blt r'.last first ||
    r'.stride == 2 && (r.stride == 2 || r.first == r.last) && (first + r'.first) % 2 == 1

theorem settles_lowerRuns : (lowerRuns.all fun r => lowerRuns.all r.settles) = true := by decide +kernel

theorem shift_nonneg : ∀ r ∈ lowerRuns, 0 ≤ (r.first : Int) + r.shift := by decide +kernel

theorem shiftCode_shiftCode (n : Nat) : shiftCode (shiftCode n lowerRuns) lowerRuns = shiftCode n lowerRuns := by
  rcases shiftCode_cases n lowerRuns with h | ⟨r, hr, hfirst, hlast, hstride, h⟩
  · rw [h, h]
  · rcases shiftCode_cases (shiftCode n lowerRuns) lowerRuns with h' | ⟨r', hr', hfirst', hlast', hstride', _⟩
    · exact h'
    · -- the place that `n` is sent to would have to be moved again
      exfalso
      have hsettles := List.all_eq_true.1 (List.all_eq_true.1 settles_lowerRuns r hr) r' hr'
      have hnonneg := shift_nonneg r hr
      simp only [CaseRun.settles, Bool.or_eq_true, Bool.and_eq_true, Nat.blt_eq, beq_iff_eq] at hsettles
      rw [h] at hfirst' hlast' hstride'
      rcases hsettles with (hbelow | habove) | ⟨⟨hstep', hstep⟩, hodd⟩
      · omega
      · omega
      · rw [hstep'] at hstride'
        rcases hstep with hstep | hsingle
        · rw [hstep] at hstride
          omega
        · omega

theorem lowerChar_lowerChar (c : Char) : lowerChar (lowerChar c) = lowerChar c := by
  rw [lowerChar, toNat_lowerChar, shiftCode_shiftCode, lowerChar]

/-- A character that lower case leaves as it is, wherever it stands. -/
structure IsLower (c : Char) : Prop where
  notSigma : c ≠ capitalSigma
  notDotted : c ≠ dottedCapitalI
  lowered : lowerChar c = c

theorem isLower_special : IsLower smallSigma ∧ IsLower finalSigma ∧ IsLower 'i' ∧ IsLower '\u0307' := by
  refine ⟨⟨?_, ?_, ?_⟩, ⟨?_, ?_, ?_⟩, ⟨?_, ?_, ?_⟩, ?_, ?_, ?_⟩ <;> decide +kernel

/-- No code point is sent to that of the dotted capital I. -/
theorem dotted_notMem_image : ∀ r ∈ lowerRuns, ((r.last : Int) + r.shift).toNat < dottedCapitalI.toNat ∨
    dottedCapitalI.toNat < ((r.first : Int) + r.shift).toNat := by decide +kernel

theorem isLower_lowerChar {c : Char} (h : c ≠ dottedCapitalI) : IsLower (lowerChar c) := by
  refine ⟨fun hsigma => ?_, fun hdotted => ?_, lowerChar_lowerChar c⟩
  · have := lowerChar_lowerChar c
    rw [hsigma] at this
    exact absurd this (by decide +kernel)
  · have hcode := toNat_lowerChar c
    rcases shiftCode_cases c.toNat lowerRuns with hsame | ⟨r, hr, hfirst, hlast, _, hmoved⟩
    · rw [lowerChar, hsame, Char.ofNat_toNat] at hdotted
      exact h hdotted
    · rw [hmoved, hdotted] at hcode
      have := dotted_notMem_image r hr
      omega

theorem isLower_lowerPiece (after : Bool) (c : Char) (cs : List Char) : ∀ d ∈ lowerPiece after c cs, IsLower d := by
  obtain ⟨hsmall, hfinal, hi, hdot⟩ := isLower_special
  unfold lowerPiece
  by_cases hsigma : c = capitalSigma
  · rw [if_pos hsigma, List.forall_mem_singleton]
    split
    · exact hfinal
    · exact hsmall
  · rw [if_neg hsigma]
    by_cases hdotted : c = dottedCapitalI
    · rw [if_pos hdotted, List.forall_mem_cons, List.forall_mem_singleton]
      exact ⟨hi, hdot⟩
    · rw [if_neg hdotted, List.forall_mem_singleton]
      exact isLower_lowerChar hdotted

theorem isLower_lowerFrom : ∀ (after : Bool) (cs : List Char), ∀ d ∈ lowerFrom after cs, IsLower d
  | _, [], _, hd => by cases hd
  | after, c :: cs, d, hd => by
    rw [lowerFrom_cons] at hd
    rcases List.mem_append.1 hd with hd | hd
    · exact isLower_lowerPiece after c cs d hd
    · exact isLower_lowerFrom _ cs d hd

theorem lowerFrom_of_isLower : ∀ (after : Bool) {cs : List Char}, (∀ c ∈ cs, IsLower c) → lowerFrom after cs = cs
  | _, [], _ => rfl
  | after, c :: cs, h => by
    obtain ⟨hsigma, hdotted, hlower⟩ := h c List.mem_cons_self
    rw [lowerFrom_cons, lowerPiece, if_neg hsigma, if_neg hdotted, hlower,
      lowerFrom_of_isLower _ fun d hd => h d (List.mem_cons_of_mem c hd)]
    rfl

/-- **A text in lower case is its own lower case.** -/
theorem lowerChars_lowerChars (cs : List Char) : lowerChars (lowerChars cs) = lowerChars cs :=
  lowerFrom_of_isLower false (isLower_lowerFrom false cs)

/-! ## Small texts -/

theorem lowerChar_ascii : ∀ n < 128, lowerChar (Char.ofNat n) = (Char.ofNat n).toLower := by decide +kernel

theorem lowerChars_ascii {cs : List Char} (h : ∀ c ∈ cs, c.toNat < 128) : lowerChars cs = cs.map Char.toLower := by
  suffices ∀ after, lowerFrom after cs = cs.map Char.toLower from this false
  induction cs with
  | nil => intro _; rfl
  | cons c cs ih =>
    intro after
    have hc := h c List.mem_cons_self
    have hsigma : c ≠ capitalSigma := by rintro rfl; exact absurd hc (by decide)
    have hdotted : c ≠ dottedCapitalI := by rintro rfl; exact absurd hc (by decide)
    have hlower := lowerChar_ascii c.toNat hc
    rw [Char.ofNat_toNat] at hlower
    rw [lowerFrom_cons, lowerPiece, if_neg hsigma, if_neg hdotted, hlower,
      ih fun d hd => h d (List.mem_cons_of_mem c hd)]
    rfl

end Text
end WorldAudit
