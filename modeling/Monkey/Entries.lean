import Monkey.HashKey

/-!
The entries of a hash, in the order in which their keys first came up. A later entry for the same
key takes the place of the earlier one.
-/

namespace Monkey

structure Entry (α : Type) where
  hashKey : HashKey
  key : α
  value : α

namespace Entry

variable {α : Type}

/-- Files an entry: in the place of the one that has its key, else at the end. -/
def insert (entry : Entry α) : List (Entry α) → List (Entry α)
  | [] => [entry]
  | first :: rest =>
    if first.hashKey = entry.hashKey then entry :: rest else first :: insert entry rest

def find? (entries : List (Entry α)) (hashKey : HashKey) : Option (Entry α) :=
  entries.find? (·.hashKey = hashKey)

/-- An entry with a new key comes last. -/
theorem insert_of_fresh {entry : Entry α} {entries : List (Entry α)}
    (fresh : ∀ earlier ∈ entries, earlier.hashKey ≠ entry.hashKey) :
    insert entry entries = entries ++ [entry] := by
  induction entries with
  | nil => rfl
  | cons first rest ih =>
    have other : first.hashKey ≠ entry.hashKey := fresh first List.mem_cons_self
    have others := ih fun earlier member => fresh earlier (List.mem_cons_of_mem _ member)
    unfold insert
    rw [if_neg other, others, List.cons_append]

/-- An entry is found under its own key, and nothing else changes for other keys. -/
theorem find?_insert (entry : Entry α) (entries : List (Entry α)) (hashKey : HashKey) :
    find? (insert entry entries) hashKey =
      if entry.hashKey = hashKey then some entry else find? entries hashKey := by
  induction entries with
  | nil => simp [insert, find?]
  | cons first rest ih =>
    simp only [find?] at ih
    by_cases known : first.hashKey = entry.hashKey
    · by_cases wanted : entry.hashKey = hashKey <;> simp [insert, find?, known, wanted]
    · by_cases wanted : entry.hashKey = hashKey
      · have other : first.hashKey ≠ hashKey := wanted ▸ known
        simpa [insert, find?, known, wanted, other] using ih
      · simp [insert, find?, known, wanted, ih, List.find?_cons]

end Entry
end Monkey
