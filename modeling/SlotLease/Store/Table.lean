namespace SlotLease

structure Table (α : Type) where
  entries : List (String × α)
  ascending : entries.Pairwise (·.1 < ·.1)

namespace Table

variable {α : Type}

def find? (key : String) : List (String × α) → Option α
  | [] => none
  | entry :: rest => if entry.1 = key then some entry.2 else find? key rest

def place (key : String) (value : α) : List (String × α) → List (String × α)
  | [] => [(key, value)]
  | entry :: rest =>
    if key < entry.1 then (key, value) :: entry :: rest
    else if entry.1 = key then (key, value) :: rest
    else entry :: place key value rest

theorem mem_place {key : String} {value : α} {entries : List (String × α)} {e : String × α}
    (h : e ∈ place key value entries) : e = (key, value) ∨ e ∈ entries := by
  induction entries with
  | nil => simpa [place] using h
  | cons entry rest ih =>
    simp only [place] at h
    split at h
    · simpa using h
    · split at h
      · rcases List.mem_cons.1 h with h | h
        · exact .inl h
        · exact .inr (List.mem_cons_of_mem _ h)
      · rcases List.mem_cons.1 h with h | h
        · exact .inr (h ▸ List.mem_cons_self)
        · exact (ih h).imp_right (List.mem_cons_of_mem _)

theorem pairwise_place (key : String) (value : α) {entries : List (String × α)}
    (h : entries.Pairwise (·.1 < ·.1)) : (place key value entries).Pairwise (·.1 < ·.1) := by
  induction entries with
  | nil => simp [place]
  | cons entry rest ih =>
    obtain ⟨first, rest_ascending⟩ := List.pairwise_cons.1 h
    simp only [place]
    split
    · rename_i below
      refine List.pairwise_cons.2 ⟨fun e he => ?_, h⟩
      rcases List.mem_cons.1 he with rfl | he
      · exact below
      · exact String.lt_trans below (first e he)
    · rename_i notBelow
      split
      · rename_i same
        exact List.pairwise_cons.2 ⟨fun e he => same ▸ first e he, rest_ascending⟩
      · rename_i different
        refine List.pairwise_cons.2 ⟨fun e he => ?_, ih rest_ascending⟩
        rcases mem_place he with rfl | he
        · rcases Std.lt_trichotomy key entry.1 with lt | eq | gt
          · exact absurd lt notBelow
          · exact absurd eq.symm different
          · exact gt
        · exact first e he

def empty : Table α := ⟨[], .nil⟩

instance : EmptyCollection (Table α) := ⟨empty⟩

def get? (t : Table α) (key : String) : Option α := find? key t.entries

def insert (t : Table α) (key : String) (value : α) : Table α :=
  ⟨place key value t.entries, pairwise_place key value t.ascending⟩

def filter (t : Table α) (p : String → α → Bool) : Table α :=
  ⟨t.entries.filter fun e => p e.1 e.2, t.ascending.filter _⟩

def erase (t : Table α) (key : String) : Table α := t.filter fun k _ => k ≠ key

def keys (t : Table α) : List String := t.entries.map (·.1)

/-- The keys that begin with `root`: a scan from `root` on, up to the first key that does not. -/
def keysFrom (t : Table α) (root : String) : List String :=
  (t.keys.dropWhile (· < root)).takeWhile fun key => root.toList.isPrefixOf key.toList

end Table

end SlotLease
