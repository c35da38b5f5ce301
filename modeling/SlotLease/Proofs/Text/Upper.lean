import SlotLease.Text.Upper

namespace SlotLease.Upper

/-! ### Sets of code points

A set is a number with the bits of its members, as disjointness is one operation on two numbers. -/

def bits (l : List Nat) : Nat := l.foldr (fun n rest => 1 <<< n ||| rest) 0

theorem testBit_bits (l : List Nat) (n : Nat) : (bits l).testBit n = true ↔ n ∈ l := by
  induction l with
  | nil => simp [bits]
  | cons m rest ih =>
    rw [bits, List.foldr_cons, Nat.testBit_or, Nat.one_shiftLeft, Nat.testBit_two_pow,
      Bool.or_eq_true, decide_eq_true_eq, List.mem_cons, eq_comm]
    exact or_congr_right ih

theorem not_mem_of_bits {l l' : List Nat} (disjoint : bits l &&& bits l' = 0) (mem : n ∈ l) :
    n ∉ l' := by
  intro mem'
  have both := Nat.testBit_and (bits l) (bits l') n
  rw [disjoint, Nat.zero_testBit, (testBit_bits l n).2 mem, (testBit_bits l' n).2 mem'] at both
  cases both

/-! ### Letters and their forms -/

def Run.spread (run : Run) (first : Nat) : List Nat :=
  (List.range ((run.last - run.first) / run.stride + 1)).map fun i => first + run.stride * i

def letters : List Nat :=
  runs.flatMap (fun run => run.spread run.first) ++ expansions.map (·.1)

def forms : List Nat :=
  runs.flatMap (fun run => run.spread run.upper) ++ expansions.flatMap (·.2)

theorem letters_forms_disjoint : bits letters &&& bits forms = 0 := by decide +kernel

theorem forms_valid : ∀ n ∈ forms, (Char.ofNat n).toNat = n ∧ n ≠ 58 := by decide +kernel

theorem ofRuns_eq_some (h : ofRuns table n = some m) :
    ∃ run ∈ table, n ∈ run.spread run.first ∧ m ∈ run.spread run.upper := by
  fun_induction ofRuns table n with
  | case1 => cases h
  | case2 => cases h
  | case3 run rest n before after ih =>
    obtain ⟨run', mem, maps⟩ := ih h
    exact ⟨run', List.mem_cons_of_mem run mem, maps⟩
  | case4 run rest n since until' stride =>
    cases h
    have steps : run.stride * ((n - run.first) / run.stride) = n - run.first :=
      Nat.mul_div_cancel' (Nat.dvd_of_mod_eq_zero stride)
    have few : (n - run.first) / run.stride < (run.last - run.first) / run.stride + 1 :=
      Nat.lt_succ_of_le (Nat.div_le_div_right (by omega))
    refine ⟨run, List.mem_cons_self, List.mem_map.2 ⟨_, List.mem_range.2 few, ?_⟩,
      List.mem_map.2 ⟨_, List.mem_range.2 few, ?_⟩⟩
    · rw [steps]
      omega
    · rw [steps]
  | case5 => cases h

theorem ofExpansions_eq_some (h : ofExpansions table n = some form) : (n, form) ∈ table := by
  fun_induction ofExpansions table n with
  | case1 => cases h
  | case2 => cases h
  | case3 letter form rest n before after ih => exact List.mem_cons_of_mem _ (ih h)
  | case4 letter form rest n before after =>
    cases h
    rw [Nat.le_antisymm (Nat.not_lt.1 after) (Nat.not_lt.1 before)]
    exact List.mem_cons_self

theorem ofChar_eq_self {c : Char} (plain : c.toNat ∉ letters) : ofChar c = [c] := by
  rw [ofChar]
  cases expanded : ofExpansions expansions c.toNat with
  | some form =>
    exact absurd (List.mem_append_right _
      (List.mem_map_of_mem (ofExpansions_eq_some expanded))) plain
  | none =>
    cases mapped : ofRuns runs c.toNat with
    | some n =>
      obtain ⟨run, mem, letter, _⟩ := ofRuns_eq_some mapped
      exact absurd (List.mem_append_left _ (List.mem_flatMap.2 ⟨run, mem, letter⟩)) plain
    | none => rfl

theorem mem_ofChar {c d : Char} (mem : d ∈ ofChar c) :
    (d = c ∧ ofChar c = [c]) ∨ ∃ n ∈ forms, d = Char.ofNat n := by
  rw [ofChar] at mem
  cases expanded : ofExpansions expansions c.toNat with
  | some form =>
    rw [expanded] at mem
    obtain ⟨n, inForm, rfl⟩ := List.mem_map.1 mem
    exact .inr ⟨n, List.mem_append_right _
      (List.mem_flatMap.2 ⟨_, ofExpansions_eq_some expanded, inForm⟩), rfl⟩
  | none =>
    rw [expanded] at mem
    cases mapped : ofRuns runs c.toNat with
    | some n =>
      rw [mapped] at mem
      obtain ⟨run, mem', _, form⟩ := ofRuns_eq_some mapped
      exact .inr ⟨n, List.mem_append_left _ (List.mem_flatMap.2 ⟨run, mem', form⟩),
        List.mem_singleton.1 mem⟩
    | none =>
      rw [mapped] at mem
      refine .inl ⟨List.mem_singleton.1 mem, ?_⟩
      rw [ofChar, expanded, mapped]

theorem ofChar_of_mem {c d : Char} (mem : d ∈ ofChar c) :
    ofChar d = [d] ∧ (d = ':' → c = ':') := by
  rcases mem_ofChar mem with ⟨rfl, same⟩ | ⟨n, form, rfl⟩
  · exact ⟨same, id⟩
  · obtain ⟨code, other⟩ := forms_valid n form
    refine ⟨ofChar_eq_self ?_, fun colon => ?_⟩
    · rw [code]
      exact fun letter => not_mem_of_bits letters_forms_disjoint letter form
    · rw [colon] at code
      exact absurd code.symm other

theorem ofString_ofString (s : String) : ofString (ofString s) = ofString s := by
  have settled : ∀ l : List Char, (∀ d ∈ l, ofChar d = [d]) → l.flatMap ofChar = l := by
    intro l own
    induction l with
    | nil => rfl
    | cons d rest ih =>
      rw [List.flatMap_cons, own d List.mem_cons_self,
        ih fun d mem => own d (List.mem_cons_of_mem _ mem), List.singleton_append]
  rw [ofString, ofString, String.toList_ofList, settled]
  intro d mem
  obtain ⟨c, _, mem⟩ := List.mem_flatMap.1 mem
  exact (ofChar_of_mem mem).1

theorem colon_of_mem_ofString {s : String} (mem : ':' ∈ (ofString s).toList) : ':' ∈ s.toList := by
  rw [ofString, String.toList_ofList] at mem
  obtain ⟨c, mem, form⟩ := List.mem_flatMap.1 mem
  exact (ofChar_of_mem form).2 rfl ▸ mem

end SlotLease.Upper
