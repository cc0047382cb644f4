import Mathlib.Data.Finset.Sort
import Mathlib.Data.String.Basic
import WorldAudit.Catalog
/-!
# Catalog — the entries behind a catalog

The keys of a catalog that was made entry by entry are the keys of the entries, ascending and each of them once.  Its
value under a key is that of the last entry under it, or of the first one where later ones are refused.
-/
namespace WorldAudit

/-- **A list that ascends is its elements in order.** -/
theorem sort_eq_of_pairwise_lt {α : Type} [LinearOrder α] {l : List α} {s : Finset α} (h : l.Pairwise (· < ·))
    (hs : ∀ a, a ∈ s ↔ a ∈ l) : s.sort = l := by
  have hset : s = l.toFinset := Finset.ext fun a => by rw [hs, List.mem_toFinset]
  rw [hset]
  exact (List.toFinset_sort (· ≤ ·) (h.imp ne_of_lt)).2 (h.imp le_of_lt)

namespace Catalog

variable {β : Type}

def keys (c : Catalog β) : List String := c.map Prod.fst

def Ascending (c : Catalog β) : Prop := (keys c).Pairwise (· < ·)

theorem mem_keys_insert (k key : String) (value : β) : ∀ (c : Catalog β),
    k ∈ keys (insert key value c) ↔ k = key ∨ k ∈ keys c
  | [] => by simp [insert, keys]
  | (k', v) :: rest => by
    have ih := mem_keys_insert k key value rest
    unfold insert
    split
    · rename_i h
      subst h
      simp [keys]
    · split
      · simp [keys]
      · simp only [keys, List.map_cons, List.mem_cons] at ih ⊢
        rw [ih]
        exact or_left_comm

theorem Ascending.insert (key : String) (value : β) : ∀ {c : Catalog β}, Ascending c → Ascending (insert key value c)
  | [], _ => List.pairwise_singleton _ _
  | (k, v) :: rest, h => by
    obtain ⟨hk, hrest⟩ := List.pairwise_cons.1 h
    unfold Catalog.insert
    split
    · rename_i he
      subst he
      exact List.pairwise_cons.2 ⟨hk, hrest⟩
    · rename_i hne
      split
      · rename_i hlt
        refine List.pairwise_cons.2 ⟨fun k' hk' => ?_, h⟩
        rcases List.mem_cons.1 hk' with rfl | hk'
        · exact hlt
        · exact lt_trans hlt (hk k' hk')
      · rename_i hnlt
        refine List.pairwise_cons.2 ⟨fun k' hk' => ?_, Ascending.insert key value hrest⟩
        rcases (mem_keys_insert k' key value rest).1 hk' with rfl | hk'
        · exact lt_of_le_of_ne (not_lt.1 hnlt) (Ne.symm hne)
        · exact hk k' hk'

theorem isSome_get?_iff (key : String) : ∀ (c : Catalog β), (get? key c).isSome = true ↔ key ∈ keys c
  | [] => by simp [get?, keys]
  | (k, v) :: rest => by
    have ih := isSome_get?_iff key rest
    unfold get?
    split
    · rename_i h
      subst h
      simp [keys]
    · rename_i h
      rw [ih]
      simp [keys, h]

theorem get?_of_mem {key : String} {value : β} : ∀ {c : Catalog β}, Ascending c → (key, value) ∈ c →
    get? key c = some value
  | (k, v) :: rest, h, hm => by
    obtain ⟨hk, hrest⟩ := List.pairwise_cons.1 h
    unfold get?
    rcases List.mem_cons.1 hm with he | hm
    · cases he; exact if_pos rfl
    · have hlt : k < key := hk key (List.mem_map_of_mem hm)
      rw [if_neg (ne_of_gt hlt), get?_of_mem hrest hm]

theorem eq_map {c : Catalog β} (h : Ascending c) (d : β) : c = (keys c).map fun k => (k, (get? k c).getD d) := by
  rw [keys, List.map_map]
  refine (List.map_id _).symm.trans (List.map_congr_left fun e he => ?_)
  show e = (e.1, (get? e.1 c).getD d)
  rw [get?_of_mem h he]
  rfl

theorem filter_eq_map {c : Catalog β} (h : Ascending c) (p : String → Bool) (d : β) :
    c.filter (fun e => p e.1) = ((keys c).filter p).map fun k => (k, (get? k c).getD d) := by
  conv => lhs; rw [eq_map h d]
  rw [List.filter_map]
  rfl

theorem Ascending.insertNew (key : String) (value : β) {c : Catalog β} (h : Ascending c) :
    Ascending (insertNew key value c) := by
  unfold Catalog.insertNew
  split
  · exact h
  · exact h.insert key value

theorem mem_keys_insertNew (k key : String) (value : β) (c : Catalog β) :
    k ∈ keys (insertNew key value c) ↔ k = key ∨ k ∈ keys c := by
  unfold insertNew
  split
  · rename_i h
    exact ⟨Or.inr, fun hk => hk.elim (fun e => e ▸ (isSome_get?_iff key c).1 h) id⟩
  · exact mem_keys_insert k key value c

/-- The catalog of some entries, the last one under a key counting. -/
def ofEntries (es : List (String × β)) : Catalog β := es.foldl (fun c e => insert e.1 e.2 c) []

/-- The catalog of some entries, the first one under a key counting. -/
def ofFirstEntries (es : List (String × β)) : Catalog β := es.foldl (fun c e => insertNew e.1 e.2 c) []

theorem foldl_put (put : String → β → Catalog β → Catalog β)
    (hkeys : ∀ k key value c, k ∈ keys (put key value c) ↔ k = key ∨ k ∈ keys c)
    (hput : ∀ key value c, Ascending c → Ascending (put key value c)) :
    ∀ (es : List (String × β)) (c : Catalog β), Ascending c →
      Ascending (es.foldl (fun c e => put e.1 e.2 c) c) ∧
      ∀ k, k ∈ keys (es.foldl (fun c e => put e.1 e.2 c) c) ↔ k ∈ es.map Prod.fst ∨ k ∈ keys c
  | [], c, h => ⟨h, fun k => by simp⟩
  | e :: es, c, h => by
    obtain ⟨ha, hm⟩ := foldl_put put hkeys hput es (put e.1 e.2 c) (hput e.1 e.2 c h)
    refine ⟨ha, fun k => ?_⟩
    rw [List.foldl_cons, hm, hkeys, List.map_cons, List.mem_cons]
    exact ⟨fun h => h.elim (fun h => .inl (.inr h)) (fun h => h.elim (fun h => .inl (.inl h)) .inr),
      fun h => h.elim (fun h => h.elim (fun h => .inr (.inl h)) .inl) (fun h => .inr (.inr h))⟩

theorem ascending_ofEntries (es : List (String × β)) : Ascending (ofEntries es) :=
  (foldl_put insert mem_keys_insert (fun key value _ h => h.insert key value) es [] .nil).1

theorem ascending_ofFirstEntries (es : List (String × β)) : Ascending (ofFirstEntries es) :=
  (foldl_put insertNew mem_keys_insertNew (fun key value _ h => h.insertNew key value) es [] .nil).1

theorem mem_keys_ofEntries (k : String) (es : List (String × β)) : k ∈ keys (ofEntries es) ↔ k ∈ es.map Prod.fst := by
  have := (foldl_put insert mem_keys_insert (fun key value _ h => h.insert key value) es [] .nil).2 k
  rw [ofEntries, this]
  simp [keys]

theorem mem_keys_ofFirstEntries (k : String) (es : List (String × β)) :
    k ∈ keys (ofFirstEntries es) ↔ k ∈ es.map Prod.fst := by
  have := (foldl_put insertNew mem_keys_insertNew (fun key value _ h => h.insertNew key value) es [] .nil).2 k
  rw [ofFirstEntries, this]
  simp [keys]

/-- **Under a key stands the last entry.** -/
theorem get?_ofEntries (key : String) (es : List (String × β)) : get? key (ofEntries es) = es.reverse.lookup key := by
  induction es using List.reverseRecOn with
  | nil => rfl
  | append_singleton es e ih =>
    rw [ofEntries, List.foldl_append, List.foldl_cons, List.foldl_nil, ← ofEntries, get?_insert, ih,
      List.reverse_append]
    show _ = List.lookup key ((e.1, e.2) :: es.reverse)
    rw [List.lookup_cons]
    by_cases h : key = e.1
    · rw [if_pos h, h, beq_self_eq_true]
    · rw [if_neg h, beq_false_of_ne h]

/-- **Where later entries are refused, under a key stands the first one.** -/
theorem get?_ofFirstEntries (key : String) (es : List (String × β)) :
    get? key (ofFirstEntries es) = es.lookup key := by
  induction es using List.reverseRecOn with
  | nil => rfl
  | append_singleton es e ih =>
    rw [ofFirstEntries, List.foldl_append, List.foldl_cons, List.foldl_nil, ← ofFirstEntries, List.lookup_append, ← ih]
    show get? key (insertNew e.1 e.2 (ofFirstEntries es)) =
      (get? key (ofFirstEntries es)).or (List.lookup key [(e.1, e.2)])
    rw [List.lookup_cons, List.lookup_nil]
    unfold insertNew
    by_cases h : key = e.1
    · subst h
      rw [beq_self_eq_true]
      cases hg : get? e.1 (ofFirstEntries es) with
      | none => rw [Option.isSome_none, if_neg Bool.false_ne_true, get?_insert, if_pos rfl]; rfl
      | some v => rw [Option.isSome_some, if_pos rfl, hg]; rfl
    · rw [beq_false_of_ne h, Option.or_none]
      split
      · rfl
      · rw [get?_insert, if_neg h]

theorem mem_of_lookup {es : List (String × β)} {key : String} {value : β} (h : es.lookup key = some value) :
    (key, value) ∈ es := by
  obtain ⟨front, back, rfl, _⟩ := List.lookup_eq_some_iff.1 h
  exact List.mem_append_right _ List.mem_cons_self

theorem mem_of_mem_ofEntries {es : List (String × β)} {e : String × β} (h : e ∈ ofEntries es) : e ∈ es := by
  have hget := get?_of_mem (ascending_ofEntries es) (show (e.1, e.2) ∈ ofEntries es from h)
  rw [get?_ofEntries] at hget
  exact List.mem_reverse.1 (mem_of_lookup hget)

theorem mem_of_mem_ofFirstEntries {es : List (String × β)} {e : String × β} (h : e ∈ ofFirstEntries es) : e ∈ es := by
  have hget := get?_of_mem (ascending_ofFirstEntries es) (show (e.1, e.2) ∈ ofFirstEntries es from h)
  rw [get?_ofFirstEntries] at hget
  exact mem_of_lookup hget

end Catalog
end WorldAudit
