/-!
# Entries in key order

A finite map from texts is kept as a list of pairs in increasing order of keys.
Texts are ordered by their code points, which is also the order of their UTF-8
bytes.  Inserting under a key that is present replaces its value.
-/

namespace AccessChecks

abbrev Entries (α : Type) := List (String × α)

namespace Entries

variable {α : Type}

def get? : Entries α → String → Option α
  | [], _ => none
  | (k, v) :: rest, key => if k = key then some v else get? rest key

def insert : Entries α → String → α → Entries α
  | [], key, value => [(key, value)]
  | (k, v) :: rest, key, value =>
      if key = k then (key, value) :: rest
      else if key < k then (key, value) :: (k, v) :: rest
      else (k, v) :: insert rest key value

/-- Inserts the pairs one after the other, so the last of equal keys stays. -/
def ofPairs (pairs : List (String × α)) : Entries α :=
  pairs.foldl (fun entries pair => insert entries pair.1 pair.2) []

def keys (entries : Entries α) : List String :=
  entries.map Prod.fst

theorem get?_insert (entries : Entries α) (key : String) (value : α)
    (other : String) :
    get? (insert entries key value) other =
      if key = other then some value else get? entries other := by
  induction entries with
  | nil => simp [insert, get?]
  | cons pair rest ih =>
      obtain ⟨k, v⟩ := pair
      unfold insert
      split
      · rename_i hk
        subst hk
        simp only [get?]
        split <;> rfl
      · rename_i hk
        split
        · simp [get?]
        · simp only [get?, ih]
          by_cases ho : key = other
          · subst ho
            simp [Ne.symm hk]
          · simp [ho]

theorem mem_keys_insert (entries : Entries α) (key : String) (value : α)
    (other : String) :
    other ∈ keys (insert entries key value) ↔
      other = key ∨ other ∈ keys entries := by
  induction entries with
  | nil => simp [insert, keys]
  | cons pair rest ih =>
      obtain ⟨k, v⟩ := pair
      unfold insert
      split
      · rename_i hk
        simp [keys, hk]
      · split
        · simp [keys]
        · have : keys ((k, v) :: insert rest key value) =
              k :: keys (insert rest key value) := rfl
          rw [this, List.mem_cons, ih]
          simp only [keys, List.map_cons, List.mem_cons]
          constructor
          · rintro (h | h | h)
            · exact Or.inr (Or.inl h)
            · exact Or.inl h
            · exact Or.inr (Or.inr h)
          · rintro (h | h | h)
            · exact Or.inr (Or.inl h)
            · exact Or.inl h
            · exact Or.inr (Or.inr h)

theorem pairwise_keys_insert {entries : Entries α} (key : String) (value : α)
    (h : (keys entries).Pairwise (· < ·)) :
    (keys (insert entries key value)).Pairwise (· < ·) := by
  induction entries with
  | nil => simp [insert, keys]
  | cons pair rest ih =>
      obtain ⟨k, v⟩ := pair
      have h' : (k :: keys rest).Pairwise (· < ·) := h
      rw [List.pairwise_cons] at h'
      unfold insert
      split
      · rename_i hk
        subst hk
        exact h
      · rename_i hk
        split
        · rename_i hlt
          show (key :: k :: keys rest).Pairwise (· < ·)
          refine List.pairwise_cons.mpr ⟨?_, h⟩
          intro other hm
          rcases List.mem_cons.mp hm with rfl | hr
          · exact hlt
          · exact String.lt_trans hlt (h'.1 other hr)
        · rename_i hlt
          show (k :: keys (insert rest key value)).Pairwise (· < ·)
          refine List.pairwise_cons.mpr ⟨?_, ih h'.2⟩
          intro other hm
          rcases (mem_keys_insert rest key value other).mp hm with rfl | hr
          · exact Std.lt_of_le_of_ne (Std.not_lt.mp hlt) (Ne.symm hk)
          · exact h'.1 other hr

end Entries

end AccessChecks
