import SlotLease.Store.Table

namespace SlotLease

theorem Table.isPrefixOf_of_between {root a b : String}
    (h : root.toList.isPrefixOf b.toList = true) (above : ¬ a < root) (below : ¬ b < a) :
    root.toList.isPrefixOf a.toList = true := by
  rw [List.isPrefixOf_iff_prefix] at h ⊢
  have above : ¬ a.toList < root.toList := above
  have below : ¬ b.toList < a.toList := below
  generalize root.toList = r at h above
  generalize a.toList = x at above below ⊢
  generalize b.toList = y at h below
  induction r generalizing x y with
  | nil => exact List.nil_prefix
  | cons c r ih =>
    cases x with
    | nil => exact absurd (List.nil_lt_cons c r) above
    | cons d x =>
      cases y with
      | nil => simp at h
      | cons e y =>
        obtain ⟨rfl, tail⟩ := List.cons_prefix_cons.1 h
        rw [List.cons_lt_cons_iff] at above below
        have same : d = c := by
          rcases Std.lt_trichotomy d c with lt | eq | gt
          · exact absurd (Or.inl lt) above
          · exact eq
          · exact absurd (Or.inl gt) below
        subst same
        refine List.cons_prefix_cons.2 ⟨rfl, ih x ?_ y tail ?_⟩
        · exact fun lt => above (.inr ⟨rfl, lt⟩)
        · exact fun lt => below (.inr ⟨rfl, lt⟩)

theorem Table.not_lt_of_isPrefixOf {root key : String}
    (h : root.toList.isPrefixOf key.toList = true) : ¬ key < root := by
  rw [List.isPrefixOf_iff_prefix] at h
  exact List.IsPrefix.le h

namespace Table

variable {α : Type}

theorem find?_eq_none {entries : List (String × α)} (h : ∀ e ∈ entries, e.1 ≠ key) :
    find? key entries = none := by
  induction entries with
  | nil => rfl
  | cons entry rest ih =>
    rw [find?, if_neg (h entry List.mem_cons_self)]
    exact ih fun e mem => h e (List.mem_cons_of_mem _ mem)

theorem find?_place (key key' : String) (value : α) {entries : List (String × α)}
    (ascending : entries.Pairwise (·.1 < ·.1)) :
    find? key' (place key value entries) =
      if key = key' then some value else find? key' entries := by
  induction entries with
  | nil => simp [place, find?]
  | cons entry rest ih =>
    obtain ⟨first, rest_ascending⟩ := List.pairwise_cons.1 ascending
    simp only [place]
    split
    · simp [find?]
    · split
      · rename_i same
        subst same
        by_cases eq : entry.1 = key'
        · simp [find?, eq]
        · simp [find?, eq]
      · rename_i different
        by_cases eq : entry.1 = key'
        · subst eq
          simp [find?, Ne.symm different]
        · simp [find?, eq, ih rest_ascending]

theorem find?_filter (p : String → α → Bool) (key : String) {entries : List (String × α)}
    (ascending : entries.Pairwise (·.1 < ·.1)) :
    find? key (entries.filter fun e => p e.1 e.2) = (find? key entries).filter (p key) := by
  induction entries with
  | nil => rfl
  | cons entry rest ih =>
    obtain ⟨first, rest_ascending⟩ := List.pairwise_cons.1 ascending
    by_cases same : entry.1 = key
    · subst same
      have gone : find? entry.1 (rest.filter fun e => p e.1 e.2) = none := by
        apply find?_eq_none
        intro e mem same
        have lt := first e (List.mem_filter.1 mem).1
        rw [same] at lt
        exact String.lt_irrefl _ lt
      cases kept : p entry.1 entry.2 with
      | true => simp [kept, find?, Option.filter]
      | false => simp [kept, find?, gone, Option.filter]
    · cases kept : p entry.1 entry.2 with
      | true => simp [kept, find?, same, ih rest_ascending]
      | false => simp [kept, find?, same, ih rest_ascending]

@[simp] theorem get?_empty (key : String) : (∅ : Table α).get? key = none := rfl

@[simp] theorem get?_insert (t : Table α) (key key' : String) (value : α) :
    (t.insert key value).get? key' = if key = key' then some value else t.get? key' :=
  find?_place key key' value t.ascending

@[simp] theorem get?_filter (t : Table α) (p : String → α → Bool) (key : String) :
    (t.filter p).get? key = (t.get? key).filter (p key) :=
  find?_filter p key t.ascending

@[simp] theorem get?_erase (t : Table α) (key key' : String) :
    (t.erase key).get? key' = if key = key' then none else t.get? key' := by
  rw [erase, get?_filter]
  by_cases same : key = key'
  · subst same
    cases t.get? key with
    | none => simp
    | some value => simp
  · cases t.get? key' with
    | none => simp
    | some value => simp [Ne.symm same, same]

theorem mem_entries {t : Table α} {key : String} {value : α} :
    (key, value) ∈ t.entries ↔ t.get? key = some value := by
  obtain ⟨entries, ascending⟩ := t
  simp only [get?]
  induction entries with
  | nil => simp [find?]
  | cons entry rest ih =>
    obtain ⟨first, rest_ascending⟩ := List.pairwise_cons.1 ascending
    by_cases same : entry.1 = key
    · subst same
      have absent : (entry.1, value) ∉ rest :=
        fun mem => String.lt_irrefl entry.1 (first (entry.1, value) mem)
      rw [find?, if_pos rfl, List.mem_cons]
      constructor
      · rintro (eq | mem)
        · rw [← eq]
        · exact absurd mem absent
      · intro eq
        left
        rw [← Option.some.inj eq]
    · rw [find?, if_neg same, List.mem_cons, ih rest_ascending]
      constructor
      · rintro (eq | found)
        · exact absurd (congrArg Prod.fst eq).symm same
        · exact found
      · exact .inr

theorem mem_keys {t : Table α} {key : String} :
    key ∈ t.keys ↔ ∃ value, t.get? key = some value := by
  simp only [keys, List.mem_map]
  constructor
  · rintro ⟨⟨key, value⟩, mem, rfl⟩
    exact ⟨value, mem_entries.1 mem⟩
  · rintro ⟨value, found⟩
    exact ⟨(key, value), mem_entries.2 found, rfl⟩

theorem keys_ascending (t : Table α) : t.keys.Pairwise (· < ·) :=
  List.pairwise_map.2 t.ascending

theorem mem_dropWhile_lt {root : String} {keys : List String} (ascending : keys.Pairwise (· < ·)) :
    key ∈ keys.dropWhile (· < root) ↔ key ∈ keys ∧ ¬ key < root := by
  induction keys with
  | nil => simp
  | cons first rest ih =>
    obtain ⟨below, rest_ascending⟩ := List.pairwise_cons.1 ascending
    by_cases lt : first < root
    · rw [List.dropWhile_cons_of_pos (by simpa using lt), ih rest_ascending, List.mem_cons]
      constructor
      · exact fun ⟨mem, above⟩ => ⟨.inr mem, above⟩
      · rintro ⟨rfl | mem, above⟩
        · exact absurd lt above
        · exact ⟨mem, above⟩
    · rw [List.dropWhile_cons_of_neg (by simpa using lt)]
      constructor
      · intro mem
        refine ⟨mem, ?_⟩
        rcases List.mem_cons.1 mem with rfl | mem
        · exact lt
        · exact fun lt' => lt (String.lt_trans (below key mem) lt')
      · exact And.left

theorem mem_takeWhile_isPrefixOf {root : String} {keys : List String}
    (ascending : keys.Pairwise (· < ·)) (above : ∀ k ∈ keys, ¬ k < root) :
    key ∈ keys.takeWhile (fun k => root.toList.isPrefixOf k.toList) ↔
      key ∈ keys ∧ root.toList.isPrefixOf key.toList = true := by
  induction keys with
  | nil => simp
  | cons first rest ih =>
    obtain ⟨below, rest_ascending⟩ := List.pairwise_cons.1 ascending
    have ih := ih rest_ascending fun k mem => above k (List.mem_cons_of_mem _ mem)
    cases begins : root.toList.isPrefixOf first.toList with
    | true =>
      rw [List.takeWhile_cons, if_pos begins, List.mem_cons, List.mem_cons, ih]
      constructor
      · rintro (rfl | ⟨mem, h⟩)
        · exact ⟨.inl rfl, begins⟩
        · exact ⟨.inr mem, h⟩
      · rintro ⟨rfl | mem, h⟩
        · exact .inl rfl
        · exact .inr ⟨mem, h⟩
    | false =>
      rw [List.takeWhile_cons, if_neg (by simp [begins])]
      -- no later key begins with the root: the first one would lie between both
      have later : ¬ (key ∈ first :: rest ∧ root.toList.isPrefixOf key.toList = true) := by
        rintro ⟨mem, h⟩
        have notBelow : ¬ key < first := by
          rcases List.mem_cons.1 mem with rfl | mem
          · exact String.lt_irrefl _
          · exact String.lt_asymm (below key mem)
        have := isPrefixOf_of_between h (above first List.mem_cons_self) notBelow
        rw [begins] at this
        exact Bool.noConfusion this
      exact iff_of_false List.not_mem_nil later

theorem mem_keysFrom {t : Table α} {root key : String} :
    key ∈ t.keysFrom root ↔
      (∃ value, t.get? key = some value) ∧ root.toList.isPrefixOf key.toList = true := by
  have ascending := t.keys_ascending
  rw [keysFrom, mem_takeWhile_isPrefixOf (ascending.sublist (List.dropWhile_sublist _))
    fun k mem => ((mem_dropWhile_lt ascending).1 mem).2, mem_dropWhile_lt ascending, mem_keys]
  constructor
  · exact fun ⟨⟨found, _⟩, h⟩ => ⟨found, h⟩
  · exact fun ⟨found, h⟩ => ⟨⟨found, not_lt_of_isPrefixOf h⟩, h⟩

theorem eq_of_mem_iff {xs ys : List (String × α)} (hx : xs.Pairwise (·.1 < ·.1))
    (hy : ys.Pairwise (·.1 < ·.1)) (h : ∀ e, e ∈ xs ↔ e ∈ ys) : xs = ys := by
  have irrefl : ∀ {e e' : String × α}, e.1 < e'.1 → e ≠ e' :=
    fun lt eq => String.lt_irrefl _ (eq ▸ lt)
  have perm : xs.Perm ys :=
    (List.perm_ext_iff_of_nodup (hx.imp irrefl) (hy.imp irrefl)).2 h
  exact perm.eq_of_pairwise (fun _ _ _ _ lt gt => absurd gt (String.lt_asymm lt)) hx hy

theorem ext {t u : Table α} (h : ∀ key, t.get? key = u.get? key) : t = u := by
  have : t.entries = u.entries := eq_of_mem_iff t.ascending u.ascending fun (key, value) => by
    rw [mem_entries, mem_entries, h]
  cases t
  cases u
  simp_all

end Table

end SlotLease
