/-!
# Catalog — values by key, in the order of the keys

The keys of a catalog ascend by code point, and each stands once.  A value put under a key that the catalog has
replaces the value there (`get?_insert`).
-/
namespace WorldAudit

abbrev Catalog (β : Type) := List (String × β)

namespace Catalog

variable {β : Type}

/-- Puts a value under a key. -/
def insert (key : String) (value : β) : Catalog β → Catalog β
  | [] => [(key, value)]
  | (k, v) :: rest =>
    if key = k then (key, value) :: rest
    else if key < k then (key, value) :: (k, v) :: rest
    else (k, v) :: insert key value rest

/-- The value under a key. -/
def get? (key : String) : Catalog β → Option β
  | [] => none
  | (k, v) :: rest => if key = k then some v else get? key rest

/-- Puts a value under a key that the catalog does not have. -/
def insertNew (key : String) (value : β) (c : Catalog β) : Catalog β :=
  if (get? key c).isSome then c else insert key value c

@[simp] theorem get?_nil (key : String) : get? key ([] : Catalog β) = none := rfl

theorem get?_insert (key k : String) (value : β) (c : Catalog β) :
    get? k (insert key value c) = if k = key then some value else get? k c := by
  induction c with
  | nil => by_cases h : k = key <;> simp [insert, get?, h]
  | cons field rest ih =>
    obtain ⟨k', v⟩ := field
    by_cases hk : key = k'
    · subst hk
      by_cases h : k = key <;> simp [insert, get?, h]
    · by_cases hlt : key < k'
      · by_cases h : k = key <;> simp [insert, get?, hk, hlt, h]
      · by_cases h : k = k'
        · have hne : k ≠ key := fun e => hk (e ▸ h)
          subst h
          simp [insert, get?, hk, hlt, hne]
        · by_cases h' : k = key
          · subst h'; simp [insert, get?, hk, hlt, ih]
          · simp [insert, get?, hk, hlt, h, h', ih]

end Catalog
end WorldAudit
