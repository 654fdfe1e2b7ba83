/-!
# Dictionaries with text keys

A dictionary is its list of entries in key order, each key once; texts are ordered by their code
points. `insert` keeps that order, so two dictionaries with the same entries are the same list.
-/

namespace AccessRules

/-- Entries in key order, each key once. -/
abbrev Dict (α : Type) := List (String × α)

namespace Dict

variable {α β : Type}

/-- The dictionary without entries. -/
def empty : Dict α := []

/-- Adds an entry at its place in the order; an entry with the same key is replaced. -/
def insert (key : String) (value : α) : Dict α → Dict α
  | [] => [(key, value)]
  | (k, v) :: rest =>
    if key < k then (key, value) :: (k, v) :: rest
    else if key = k then (key, value) :: rest
    else (k, v) :: insert key value rest

/-- The value at a key. -/
def find? : Dict α → String → Option α
  | [], _ => none
  | (k, v) :: rest, key => if key = k then some v else find? rest key

/-- Whether the key has an entry. -/
def contains (d : Dict α) (key : String) : Bool :=
  (d.find? key).isSome

/-- The dictionary of some entries; of two with the same key the later one counts. -/
def ofList (entries : List (String × α)) : Dict α :=
  entries.foldl (fun d e => insert e.1 e.2 d) []

/-- The keys, in order. -/
def keys (d : Dict α) : List String :=
  d.map Prod.fst

/-- The values, in key order. -/
def values (d : Dict α) : List α :=
  d.map Prod.snd

/-- The keys stand in strictly increasing order. -/
def Ordered (d : Dict α) : Prop :=
  d.Pairwise fun a b => a.1 < b.1

/-- After an insertion the key has the new value and every other key its old one. -/
theorem find?_insert (key : String) (value : α) (d : Dict α) (k : String) :
    find? (insert key value d) k = if k = key then some value else find? d k := by
  induction d with
  | nil => by_cases h : k = key <;> simp [insert, find?, h]
  | cons e rest ih =>
    obtain ⟨k', v⟩ := e
    simp only [insert]
    split
    · by_cases h : k = key <;> simp [find?, h]
    · split
      · next heq =>
        subst heq
        by_cases h : k = key <;> simp [find?, h]
      · next hne =>
        by_cases h : k = k'
        · subst h
          have : k ≠ key := fun hk => hne hk.symm
          simp [find?, this]
        · simp [find?, h, ih]

end Dict

end AccessRules
