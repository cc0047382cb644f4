import WorldAudit.Proofs.Audit.Lockstep
/-!
# Pardon — a run does not look ahead

What is due before a call does not depend on the answer to it.  Where a failed call is pardoned, the same deliveries are
due up to it, and it as well (`due_pardon`).
-/
namespace WorldAudit

/-! ## Another answer in one row -/

section Rows

variable {α : Type} (place : α → Nat) {i : Nat}

theorem filter_heads_eq_nil {rows : List (List α)} (h : ∀ row ∈ rows, ∀ a ∈ row, place a ≠ i) :
    (rows.filterMap List.head?).filter (place · == i) = [] :=
  List.filter_eq_nil_iff.2 fun a ha => by
    obtain ⟨row, hr, ha⟩ := List.mem_filterMap.1 ha
    simpa using h row hr a (List.mem_of_head? ha)

theorem place_ne_tails {rows : List (List α)} (h : ∀ row ∈ rows, ∀ a ∈ row, place a ≠ i) :
    ∀ row ∈ rows.map List.tail, ∀ a ∈ row, place a ≠ i := fun row hr a ha => by
  obtain ⟨row', hr', rfl⟩ := List.mem_map.1 hr
  exact h row' hr' a (List.mem_of_mem_tail ha)

theorem filter_columns_row : ∀ (n : Nat) (row : List α) (above below : List (List α)), row.length ≤ n →
    (∀ row ∈ above, ∀ a ∈ row, place a ≠ i) → (∀ row ∈ below, ∀ a ∈ row, place a ≠ i) → (∀ a ∈ row, place a = i) →
    (columns n (above ++ row :: below)).filter (place · == i) = row
  | 0, row, _, _, hn, _, _, _ => (List.length_eq_zero_iff.1 (Nat.le_zero.1 hn)).symm
  | n + 1, row, above, below, hn, habove, hbelow, hrow => by
    have hheads : ((above ++ row :: below).filterMap List.head?).filter (place · == i) = row.head?.toList := by
      rw [List.filterMap_append, List.filter_append, filter_heads_eq_nil place habove]
      cases row with
      | nil =>
        show (below.filterMap List.head?).filter (place · == i) = []
        exact filter_heads_eq_nil place hbelow
      | cons b row =>
        rw [List.filterMap_cons, List.head?_cons, List.filter_cons, if_pos (by simpa using hrow b List.mem_cons_self),
          filter_heads_eq_nil place hbelow]
        rfl
    rw [columns, List.filter_append, hheads, List.map_append, List.map_cons,
      filter_columns_row n row.tail _ _ (by rw [List.length_tail]; omega) (place_ne_tails place habove)
        (place_ne_tails place hbelow) fun a ha => hrow a (List.mem_of_mem_tail ha)]
    cases row <;> rfl

/-- **Columns do not look ahead**: what stands before an entry of a row does not depend on it or on what is behind it.
What belongs to the row there is what stands before the entry in the row. -/
theorem columns_of_split : ∀ (front : List α) (n : Nat) (above below : List (List α)), front.length < n →
    (∀ row ∈ above, ∀ a ∈ row, place a ≠ i) → (∀ row ∈ below, ∀ a ∈ row, place a ≠ i) →
    (∀ a ∈ front, place a = i) →
    ∃ before, before.filter (place · == i) = front ∧ ∀ (a : α) (back : List α), ∃ after,
      columns n (above ++ (front ++ a :: back) :: below) = before ++ a :: after
  | _, 0, _, _, hn, _, _, _ => absurd hn (Nat.not_lt_zero _)
  | [], n + 1, above, below, _, habove, _, _ => by
    refine ⟨above.filterMap List.head?, filter_heads_eq_nil place habove, fun a back =>
      ⟨below.filterMap List.head? ++ columns n ((above ++ (a :: back) :: below).map List.tail), ?_⟩⟩
    rw [columns, List.filterMap_append, List.append_assoc]
    rfl
  | b :: front, n + 1, above, below, hn, habove, hbelow, hfront => by
    obtain ⟨before, hbefore, h⟩ := columns_of_split front n (above.map List.tail) (below.map List.tail)
      (Nat.lt_of_succ_lt_succ hn) (place_ne_tails place habove) (place_ne_tails place hbelow)
      fun a ha => hfront a (List.mem_cons_of_mem b ha)
    have hb : (place b == i) = true := by simpa using hfront b List.mem_cons_self
    refine ⟨above.filterMap List.head? ++ b :: below.filterMap List.head? ++ before, ?_, fun a back => ?_⟩
    · rw [List.filter_append, List.filter_append, List.filter_cons, if_pos hb, filter_heads_eq_nil place habove,
        filter_heads_eq_nil place hbelow, hbefore]
      rfl
    · obtain ⟨after, hafter⟩ := h a back
      refine ⟨after, ?_⟩
      rw [columns, List.filterMap_append, List.map_append, List.append_assoc _ before, ← hafter]
      rfl

theorem place_ne_heads {parts : List (List (List α))} (h : ∀ ps ∈ parts, ∀ a ∈ ps.flatten, place a ≠ i) :
    ∀ row ∈ parts.map (·.headD []), ∀ a ∈ row, place a ≠ i := fun row hr a ha => by
  obtain ⟨ps, hps, rfl⟩ := List.mem_map.1 hr
  exact h ps hps a (mem_flatten_of_mem_headD ha)

theorem place_ne_tail_parts {parts : List (List (List α))} (h : ∀ ps ∈ parts, ∀ a ∈ ps.flatten, place a ≠ i) :
    ∀ ps ∈ parts.map List.tail, ∀ a ∈ ps.flatten, place a ≠ i := fun ps hps a ha => by
  obtain ⟨ps', hps', rfl⟩ := List.mem_map.1 hps
  exact h ps' hps' a (mem_flatten_of_mem_tail ha)

/-- **Parts in turn do not look ahead**, from group to group. -/
theorem inTurn_of_split {above below : List (List (List α))} (habove : ∀ ps ∈ above, ∀ a ∈ ps.flatten, place a ≠ i)
    (hbelow : ∀ ps ∈ below, ∀ a ∈ ps.flatten, place a ≠ i) {front : List α} (hfront : ∀ a ∈ front, place a = i) {g : Group}
    (hlength : front.length < g.calls.length) (gs' : List Group) {gs : List Group} {done : List (List α)}
    (hdone : Fits place i gs done) :
    ∃ before, before.filter (place · == i) = done.flatten ++ front ∧
      ∀ (a : α) (back : List α) (later : List (List α)), ∃ after,
        inTurn (gs ++ g :: gs') (above ++ (done ++ (front ++ a :: back) :: later) :: below) = before ++ a :: after := by
  induction hdone generalizing above below with
  | nil =>
    obtain ⟨before, hbefore, h⟩ := columns_of_split place front g.calls.length (above.map (·.headD []))
      (below.map (·.headD [])) hlength (place_ne_heads place habove) (place_ne_heads place hbelow) hfront
    refine ⟨before, hbefore, fun a back later => ?_⟩
    obtain ⟨after, hafter⟩ := h a back
    refine ⟨after ++ inTurn gs' ((above ++ ((front ++ a :: back) :: later) :: below).map List.tail), ?_⟩
    rw [List.nil_append, List.nil_append, inTurn, List.map_append, ← List.cons_append, ← List.append_assoc, ← hafter]
    rfl
  | @cons g₀ row gs done hrow _ ih =>
    obtain ⟨before, hbefore, h⟩ := ih (place_ne_tail_parts place habove) (place_ne_tail_parts place hbelow)
    refine ⟨columns g₀.calls.length (above.map (·.headD []) ++ row :: below.map (·.headD [])) ++ before, ?_,
      fun a back later => ?_⟩
    · rw [List.filter_append, hbefore, filter_columns_row place _ row _ _ hrow.1 (place_ne_heads place habove)
        (place_ne_heads place hbelow) hrow.2, List.flatten_cons, List.append_assoc]
    · obtain ⟨after, hafter⟩ := h a back later
      refine ⟨after, ?_⟩
      rw [List.cons_append, inTurn, List.map_append, List.map_append, List.append_assoc, ← hafter]
      rfl

end Rows

/-! ## A call that is pardoned -/

namespace Rule

variable (r : Rule)

/-- The same rule, but that its call number `k` does not fail, and that it goes on from the state `next` then. -/
def pardon (k : Nat) (next : r.State) : Rule where
  State := Nat × r.State
  name := r.name
  initial := (0, r.initial)
  step ctx call s :=
    let reply := r.step ctx call s.2
    if s.1 = k then ⟨(s.1 + 1, next), reply.findings, none⟩
    else ⟨(s.1 + 1, reply.state), reply.findings, reply.fault⟩

/-- The state of the pardoned rule after some calls. -/
def counted {k : Nat} {next : r.State} (calls : Nat) (s : r.State) : (r.pardon k next).State := (calls, s)

section Pardon

variable {k : Nat} (next : r.State) (i : Nat) (g : Group)

theorem step_pardon_ne (call : Call) {n : Nat} (hn : n ≠ k) (s : r.State) :
    (r.pardon k next).step g.context call (r.counted n s) =
      ⟨r.counted (n + 1) (r.step g.context call s).state, (r.step g.context call s).findings,
        (r.step g.context call s).fault⟩ :=
  if_neg hn

theorem deliver_pardon_ne (call : Call) {n : Nat} (hn : n ≠ k) (s : r.State) :
    (r.pardon k next).deliver i g call (r.counted n s) = r.deliver i g call s := by
  rw [deliver, step_pardon_ne r next g call hn]
  rfl

theorem deliver_pardon_eq (call : Call) (s : r.State) :
    (r.pardon k next).deliver i g call (r.counted k s) = { r.deliver i g call s with fault := none } := by
  have hstep : (r.pardon k next).step g.context call (r.counted k s) =
      ⟨r.counted (k + 1) next, (r.step g.context call s).findings, none⟩ := if_pos rfl
  rw [deliver, hstep]
  rfl

/-- Before its pardoned call the rule answers as it did. -/
theorem part_pardon_before : ∀ (calls : List Call) (n : Nat) (s : r.State), n + (r.part i g calls s).length ≤ k →
    (r.pardon k next).part i g calls (r.counted n s) = r.part i g calls s ∧
    (r.pardon k next).stateAfter g calls (r.counted n s) =
      r.counted (n + (r.part i g calls s).length) (r.stateAfter g calls s)
  | [], _, _, _ => ⟨rfl, rfl⟩
  | call :: calls, n, s, h => by
    rw [part, List.length_cons] at h
    have hn : n ≠ k := by omega
    have hdeliver : (r.pardon k next).deliver i g call (r.counted n s) = r.deliver i g call s :=
      deliver_pardon_ne r next i g call hn s
    rw [part, part, stateAfter, stateAfter, hdeliver, step_pardon_ne r next g call hn, List.length_cons]
    dsimp only
    cases hf : (r.step g.context call s).fault.isSome with
    | true => exact ⟨rfl, rfl⟩
    | false =>
      rw [hf, if_neg Bool.false_ne_true] at h
      obtain ⟨hpart, hstate⟩ := part_pardon_before calls (n + 1) (r.step g.context call s).state (by omega)
      rw [if_neg Bool.false_ne_true, if_neg Bool.false_ne_true, if_neg Bool.false_ne_true, if_neg Bool.false_ne_true,
        hpart, hstate]
      refine ⟨rfl, ?_⟩
      rw [show n + 1 + (r.part i g calls (r.step g.context call s).state).length =
        n + ((r.part i g calls (r.step g.context call s).state).length + 1) by omega]

/-- The pardoned call is the same without the failure. -/
theorem part_pardon_at : ∀ (calls : List Call) (n : Nat) (s : r.State) {front : List Delivery} {d : Delivery}
    {back : List Delivery}, r.part i g calls s = front ++ d :: back → n + front.length = k →
      ∃ back', (r.pardon k next).part i g calls (r.counted n s) = front ++ { d with fault := none } :: back'
  | [], _, _, front, _, _, h, _ => by
    rw [part] at h
    cases front <;> cases h
  | call :: calls, n, s, [], d, back, h, hk => by
    obtain rfl : n = k := hk
    rw [part] at h
    cases h
    rw [part, deliver_pardon_eq]
    exact ⟨_, rfl⟩
  | call :: calls, n, s, b :: front, d, back, h, hk => by
    rw [List.length_cons] at hk
    have hn : n ≠ k := by omega
    rw [part, List.cons_append] at h
    obtain ⟨hb, hrest⟩ := List.cons_eq_cons.1 h
    cases hf : (r.step g.context call s).fault.isSome with
    | true =>
      rw [hf, if_pos rfl] at hrest
      exact absurd hrest (by simp)
    | false =>
      rw [hf, if_neg Bool.false_ne_true] at hrest
      obtain ⟨back', hback⟩ := part_pardon_at calls (n + 1) (r.step g.context call s).state hrest (by omega)
      have hdeliver : (r.pardon k next).deliver i g call (r.counted n s) = r.deliver i g call s :=
        deliver_pardon_ne r next i g call hn s
      refine ⟨back', ?_⟩
      rw [part, hdeliver, step_pardon_ne r next g call hn]
      dsimp only
      rw [hf, if_neg Bool.false_ne_true, hback, hb]
      rfl

end Pardon

/-- **A pardon changes nothing up to its call**, and that call is made. -/
theorem parts_pardon (k : Nat) (next : r.State) (i : Nat) : ∀ (gs : List Group) (n : Nat) (s : r.State)
    {front : List Delivery} {d : Delivery} {back : List Delivery},
    (r.parts i gs s).flatten = front ++ d :: back → n + front.length = k →
      ∃ (done : List (List Delivery)) (front' back' back'' : List Delivery) (later later' : List (List Delivery)),
        front = done.flatten ++ front' ∧ r.parts i gs s = done ++ (front' ++ d :: back') :: later ∧
        (r.pardon k next).parts i gs (r.counted n s) = done ++ (front' ++ { d with fault := none } :: back'') :: later'
  | [], _, _, front, _, _, h, _ => by
    rw [parts, List.flatten_nil] at h
    cases front <;> cases h
  | g :: gs, n, s, front, d, back, h, hk => by
    rw [parts, List.flatten_cons] at h
    have hlater : ∀ front', front = r.part i g g.calls s ++ front' →
        (r.parts i gs (r.stateAfter g g.calls s)).flatten = front' ++ d :: back →
        ∃ (done : List (List Delivery)) (front' back' back'' : List Delivery) (later later' : List (List Delivery)),
          front = done.flatten ++ front' ∧ r.parts i (g :: gs) s = done ++ (front' ++ d :: back') :: later ∧
          (r.pardon k next).parts i (g :: gs) (r.counted n s) =
            done ++ (front' ++ { d with fault := none } :: back'') :: later' := by
      rintro front' rfl hrest
      rw [List.length_append] at hk
      obtain ⟨hpart, hstate⟩ := r.part_pardon_before (k := k) next i g g.calls n s (by omega)
      have ih := parts_pardon k next i gs (n + (r.part i g g.calls s).length) (r.stateAfter g g.calls s) hrest
      obtain ⟨done, front'', back', back'', later, later', rfl, hparts, hparts'⟩ := ih (by omega)
      refine ⟨r.part i g g.calls s :: done, front'', back', back'', later, later', ?_, ?_, ?_⟩
      · rw [List.flatten_cons, List.append_assoc]
      · rw [parts, hparts]
        rfl
      · rw [parts, hpart, hstate, hparts']
        rfl
    -- the call is in a later group, or in this one
    rcases List.append_eq_append_iff.1 h with ⟨front', hfront, hrest⟩ | ⟨mid, hpart, hrest⟩
    · exact hlater front' hfront hrest
    · cases mid with
      | nil =>
        rw [List.append_nil] at hpart
        exact hlater [] (by rw [List.append_nil, hpart]) hrest.symm
      | cons e mid =>
        obtain ⟨rfl, rfl⟩ := List.cons_eq_cons.1 hrest
        obtain ⟨back'', hback⟩ := r.part_pardon_at next i g g.calls n s hpart hk
        refine ⟨[], front, mid, back'', r.parts i gs (r.stateAfter g g.calls s),
          (r.pardon k next).parts i gs ((r.pardon k next).stateAfter g g.calls (r.counted n s)), rfl, ?_, ?_⟩
        · rw [parts, hpart]
          rfl
        · rw [parts, hback]
          rfl

end Rule

theorem eq_of_split {α : Type} (p : α → Bool) {a b : α} (ha : p a = true) (hb : p b = true) :
    ∀ {l₁ l₂ m₁ m₂ : List α}, l₁ ++ a :: m₁ = l₂ ++ b :: m₂ → (l₁.filter p).length = (l₂.filter p).length → l₁ = l₂
  | [], [], _, _, _, _ => rfl
  | [], c :: l₂, _, _, h, hp => by
    obtain ⟨rfl, -⟩ := List.cons_eq_cons.1 h
    rw [List.filter_cons, if_pos ha] at hp
    cases hp
  | c :: l₁, [], _, _, h, hp => by
    obtain ⟨rfl, -⟩ := List.cons_eq_cons.1 h
    rw [List.filter_cons, if_pos hb] at hp
    cases hp
  | c :: l₁, c' :: l₂, m₁, m₂, h, hp => by
    obtain ⟨rfl, htail⟩ := List.cons_eq_cons.1 h
    refine congrArg (c :: ·) (eq_of_split p ha hb htail ?_)
    rw [List.filter_cons, List.filter_cons] at hp
    split at hp
    · exact Nat.succ.inj hp
    · exact hp

namespace Run

theorem seat_ne_of_mem (gs : List Group) {rules : List Rule} {n i : Nat} (h : ∀ p ∈ rules.zipIdx n, p.2 ≠ i) :
    ∀ ps ∈ (rules.zipIdx n).map fun (r, i) => r.parts i gs r.initial, ∀ d ∈ ps.flatten, d.seat ≠ i := by
  intro ps hps d hd
  obtain ⟨p, hp, rfl⟩ := List.mem_map.1 hps
  rw [(p.1.addressed_of_mem_parts p.2 hd).1]
  exact h p hp

/-- **Where a call is pardoned, the same calls are due up to it**, and it as well. -/
theorem due_pardon {rules : List Rule} {gs : List Group} {front back : List Delivery} {d : Delivery}
    (h : due rules gs = front ++ d :: back) {i : Nat} (hi : d.seat = i) {r : Rule} (hr : rules[i]? = some r)
    (next : r.State) :
    ∃ back', due (rules.set i (r.pardon (front.countP (·.seat == i)) next)) gs =
      front ++ { d with fault := none } :: back' := by
  obtain ⟨hlt, hget⟩ := List.getElem?_eq_some_iff.1 hr
  have hd : (d.seat == i) = true := by simpa using hi
  have hown : (r.parts i gs r.initial).flatten = front.filter (·.seat == i) ++ d :: back.filter (·.seat == i) := by
    rw [← filter_due gs hr, h, List.filter_append, List.filter_cons, if_pos hd]
  obtain ⟨done, front', back', back'', later, later', hfront, hparts, hparts'⟩ :=
    r.parts_pardon (front.countP (·.seat == i)) next i gs 0 r.initial hown
      (by rw [Nat.zero_add, List.countP_eq_length_filter])
  -- the group of the call and those before it
  have hup := r.parts_upToFault i gs r.initial
  rw [hparts] at hup
  have hdone := List.forall₂_take_append gs done _ hup
  have hrest := List.forall₂_drop_append gs done _ hup
  obtain ⟨g, gs', hrow, -, hgs⟩ := List.forall₂_cons_right_iff.1 hrest
  have hgroups : gs = gs.take done.length ++ g :: gs' := by rw [← hgs, List.take_append_drop]
  have hlength : front'.length < g.calls.length := by
    have := hrow.length_le
    rw [List.length_append, List.length_cons] at this
    omega
  have hseat : ∀ e ∈ front', e.seat = i := fun e he => (hrow.addressed e (List.mem_append_left _ he)).1
  have habove : ∀ p ∈ (rules.take i).zipIdx, p.2 ≠ i := fun p hp => by
    have := (List.mem_zipIdx hp).2.1
    rw [List.length_take] at this
    omega
  have hbelow : ∀ p ∈ (rules.drop (i + 1)).zipIdx (i + 1), p.2 ≠ i := fun p hp => by
    have := (List.mem_zipIdx hp).1
    omega
  obtain ⟨before, hbefore, hturn⟩ := inTurn_of_split Delivery.seat (seat_ne_of_mem gs habove)
    (seat_ne_of_mem gs hbelow) hseat hlength gs' (fits_of_upToFault hdone)
  rw [← hgroups] at hturn
  have hdue : ∀ r' : Rule, due (rules.set i r') gs =
      inTurn gs (((rules.take i).zipIdx.map fun (r, i) => r.parts i gs r.initial) ++ r'.parts i gs r'.initial ::
        ((rules.drop (i + 1)).zipIdx (i + 1)).map fun (r, i) => r.parts i gs r.initial) := fun r' => by
    rw [due, List.set_eq_take_append_cons_drop, if_pos hlt, List.zipIdx_append, List.zipIdx_cons, List.map_append,
      List.map_cons, List.length_take, Nat.min_eq_left (Nat.le_of_lt hlt), Nat.zero_add]
  obtain ⟨after, hafter⟩ := hturn d back' later
  obtain ⟨after', hafter'⟩ := hturn { d with fault := none } back'' later'
  have hsame : before = front := by
    have hset : rules.set i r = rules := by rw [← hget, List.set_getElem_self]
    have hsplit := hdue r
    rw [hset, h, hparts, hafter] at hsplit
    exact eq_of_split (·.seat == i) hd hd hsplit.symm (by rw [hbefore, hfront])
  rw [hsame] at hafter'
  refine ⟨after', ?_⟩
  rw [hdue, ← hafter', ← hparts']
  rfl

end Run

end WorldAudit
