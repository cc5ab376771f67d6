/-!
# Tables by name

A finite map from names to values, kept as a list of entries in strictly increasing order of their
names. Two tables with the same entries are the same value, and the names come out sorted. Names
are ordered by code point.

`find?` is the view: every other operation is described by what it does to `find?`.
-/

namespace Camouflage

/-- A finite map from names to values. -/
structure Table (α : Type) where
  entries : List (String × α)
  sorted : entries.Pairwise (fun a b => a.1 < b.1)

namespace Table

variable {α : Type}

def empty : Table α :=
  ⟨[], .nil⟩

/-- Puts an entry into sorted entries, in place of one of the same name. -/
def put (name : String) (a : α) : List (String × α) → List (String × α)
  | [] => [(name, a)]
  | e :: es =>
    if name < e.1 then (name, a) :: e :: es
    else if name = e.1 then (name, a) :: es
    else e :: put name a es

theorem mem_put {name : String} {a : α} {es : List (String × α)} {x : String × α}
    (h : x ∈ put name a es) : x = (name, a) ∨ x ∈ es := by
  induction es with
  | nil => simpa [put] using h
  | cons e es ih =>
    simp only [put] at h
    split at h
    · simpa using h
    · split at h
      · rcases List.mem_cons.1 h with h | h
        · exact .inl h
        · exact .inr (List.mem_cons_of_mem _ h)
      · rcases List.mem_cons.1 h with rfl | h
        · exact .inr List.mem_cons_self
        · rcases ih h with h | h
          · exact .inl h
          · exact .inr (List.mem_cons_of_mem _ h)

theorem lt_of_not_lt_of_ne {a b : String} (h : ¬ a < b) (hne : a ≠ b) : b < a := by
  exact Std.lt_of_le_of_ne (Std.not_lt.1 h) (Ne.symm hne)

theorem sorted_put {name : String} {a : α} {es : List (String × α)}
    (h : es.Pairwise (fun a b => a.1 < b.1)) :
    (put name a es).Pairwise (fun a b => a.1 < b.1) := by
  induction es with
  | nil => simp [put]
  | cons e es ih =>
    obtain ⟨he, hes⟩ := List.pairwise_cons.1 h
    simp only [put]
    split
    · rename_i hlt
      refine List.pairwise_cons.2 ⟨?_, h⟩
      intro x hx
      rcases List.mem_cons.1 hx with rfl | hx
      · exact hlt
      · exact String.lt_trans hlt (he x hx)
    · split
      · rename_i heq
        refine List.pairwise_cons.2 ⟨?_, hes⟩
        intro x hx
        have := he x hx
        rwa [← heq] at this
      · rename_i hlt hne
        refine List.pairwise_cons.2 ⟨?_, ih hes⟩
        intro x hx
        rcases mem_put hx with rfl | hx
        · exact lt_of_not_lt_of_ne hlt hne
        · exact he x hx

/-- The table with one entry more, in place of an entry of the same name. -/
def insert (t : Table α) (name : String) (a : α) : Table α :=
  ⟨put name a t.entries, sorted_put t.sorted⟩

/-- The table without the entry of a name. -/
def erase (t : Table α) (name : String) : Table α :=
  ⟨t.entries.filter fun e => e.1 ≠ name, t.sorted.filter _⟩

def find? (t : Table α) (name : String) : Option α :=
  (t.entries.find? fun e => e.1 = name).map (·.2)

/-- The names, in increasing order. -/
def names (t : Table α) : List String :=
  t.entries.map (·.1)

def size (t : Table α) : Nat :=
  t.entries.length

/-- The table of some pairs; of pairs with the same name the last one counts. -/
def ofList (pairs : List (String × α)) : Table α :=
  pairs.foldl (fun t p => t.insert p.1 p.2) empty

@[simp] theorem find?_empty (name : String) : (empty : Table α).find? name = none := rfl

theorem find?_put (name other : String) (a : α) (es : List (String × α)) :
    ((put name a es).find? fun e => e.1 = other) =
      if name = other then some (name, a) else es.find? fun e => e.1 = other := by
  induction es with
  | nil => by_cases h : name = other <;> simp [put, h]
  | cons e es ih =>
    simp only [put]
    split
    · by_cases h : name = other <;> simp [h]
    · split
      · rename_i heq
        by_cases h : name = other
        · simp [h]
        · have : ¬ e.1 = other := by rwa [← heq]
          simp [h, this]
      · rename_i hne
        by_cases h : e.1 = other
        · have : ¬ name = other := fun hn => hne (hn.trans h.symm)
          simp [h, this]
        · simp [h, ih]

/-- A new entry is found under its own name, and nothing else changes. -/
theorem find?_insert (t : Table α) (name other : String) (a : α) :
    (t.insert name a).find? other = if name = other then some a else t.find? other := by
  simp only [find?, insert, find?_put]
  split <;> rfl

/-- The entry of an erased name is gone, and nothing else changes. -/
theorem find?_erase (t : Table α) (name other : String) :
    (t.erase name).find? other = if name = other then none else t.find? other := by
  simp only [find?, erase, List.find?_filter]
  split
  · rename_i hname
    rw [hname, List.find?_eq_none.2]
    · rfl
    · simp
  · rename_i hname
    congr 2
    funext e
    by_cases he : e.1 = other <;> simp [he, Ne.symm hname]

theorem mem_names_iff {t : Table α} {name : String} :
    name ∈ t.names ↔ ∃ a, t.find? name = some a := by
  rw [← Option.isSome_iff_exists, find?, Option.isSome_map, List.find?_isSome]
  simp [names]

/-- The names are strictly increasing. -/
theorem names_sorted (t : Table α) : t.names.Pairwise (· < ·) := by
  simpa [names, List.pairwise_map] using t.sorted

end Table

end Camouflage
