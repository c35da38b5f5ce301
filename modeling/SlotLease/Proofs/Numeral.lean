import Mathlib.Algebra.Group.Nat.Defs
import SlotLease.Id
import SlotLease.Proofs.Text.Decimal

namespace SlotLease.Decimal

structure Numeral (width : Nat) (s : String) : Prop where
  length : s.length = width
  digit : ∀ c ∈ s.toList, c.isDigit = true

def unpadded (s : String) : String :=
  match s.toList.dropWhile (· == '0') with
  | [] => "0"
  | digits => String.ofList digits

theorem toList_padded (width n : Nat) : (padded width n).toList =
    List.replicate (width - (digits n).length) '0' ++ digits n :=
  String.toList_ofList

theorem isDigit_of_mem_padded (mem : c ∈ (padded width n).toList) :
    48 ≤ c.toNat ∧ c.toNat ≤ 57 := by
  rw [toList_padded, List.mem_append] at mem
  rcases mem with zero | digit
  · rw [List.eq_of_mem_replicate zero]
    decide
  · exact isDigit_of_mem_digits digit

theorem numeral_padded (h : n < 10 ^ (w + 1)) : Numeral (w + 1) (padded (w + 1) n) where
  length := by
    have := length_digits_le w h
    rw [← String.length_toList, toList_padded, List.length_append, List.length_replicate]
    omega
  digit _ mem := Char.isDigit_iff_toNat.2 (isDigit_of_mem_padded mem)

theorem readFrom_zeros (k : Nat) (l : List Char) :
    readFrom 0 (List.replicate k '0' ++ l) = readFrom 0 l := by
  induction k with
  | zero => rfl
  | succ k ih =>
    rw [List.replicate_succ, List.cons_append, readFrom]
    exact ih

theorem read?_of_ne_nil (h : l ≠ []) : read? l = readFrom 0 l := by
  cases l with
  | nil => exact absurd rfl h
  | cons c rest => rfl

theorem read?_padded (width n : Nat) : read? (padded width n).toList = some n := by
  have filled : (padded width n).toList ≠ [] := by
    rw [toList_padded]
    exact List.append_ne_nil_of_right_ne_nil _ (digits_ne_nil n)
  rw [read?_of_ne_nil filled, toList_padded, readFrom_zeros, ← read?_of_ne_nil (digits_ne_nil n),
    read?_digits]

theorem parse?_padded (width : Nat) (h : n ≤ limit) : parse? limit (padded width n) = some n := by
  rw [parse?_of_digits fun _ mem => isDigit_of_mem_padded mem, read?_padded]
  simp [h]

theorem parseWord?_padded (width : Nat) (w : UInt64) :
    parseWord? (padded width w.toNat) = some w := by
  rw [parseWord?, parse?_padded _ (by have := w.toNat_lt; simp only [UInt64.size]; omega)]
  simp

theorem unpadded_padded (width n : Nat) : unpadded (padded width n) = text n := by
  have zeros : ∀ c ∈ List.replicate (width - (digits n).length) '0', (c == '0') = true :=
    fun c mem => by simp [List.eq_of_mem_replicate mem]
  rw [unpadded, toList_padded, List.dropWhile_append_of_pos zeros, text]
  by_cases zero : n = 0
  · rw [zero, digits_of_lt (by decide)]
    rfl
  · cases split : digits n with
    | nil => exact absurd split (digits_ne_nil n)
    | cons c rest =>
      have first : c ≠ '0' := by
        intro same
        exact head?_digits (Nat.pos_of_ne_zero zero) (by rw [split, same]; rfl)
      rw [List.dropWhile_cons_of_neg (by simpa using first)]

theorem toList_padded_succ (w n : Nat) :
    (padded (w + 2) n).toList = (padded (w + 1) (n / 10)).toList ++ [digitChar (n % 10)] := by
  simp only [toList_padded]
  by_cases small : n < 10
  · have tenth : n / 10 = 0 := Nat.div_eq_of_lt small
    rw [tenth, digits_of_lt small, digits_of_lt (n := 0) (by decide), Nat.mod_eq_of_lt small]
    show List.replicate (w + 1) '0' ++ _ = (List.replicate w '0' ++ ['0']) ++ _
    rw [List.replicate_succ']
  · rw [digits_of_le (by omega), List.length_append, List.length_singleton,
      ← List.append_assoc, Nat.add_sub_add_right (w + 1) 1]

theorem compare_append [Ord α] {l l' : List α} (h : l.length = l'.length) (k k' : List α) :
    compare (l ++ k) (l' ++ k') = (compare l l').then (compare k k') := by
  induction l generalizing l' with
  | nil =>
    cases l' with
    | nil => rfl
    | cons => simp at h
  | cons a l ih =>
    cases l' with
    | nil => simp at h
    | cons a' l' =>
      simp only [List.cons_append, List.compare_cons_cons, ih (Nat.succ.inj h),
        Ordering.then_assoc]

theorem compare_tenths (m n : Nat) :
    compare m n = (compare (m / 10) (n / 10)).then (compare (m % 10) (n % 10)) := by
  cases tenths : compare (m / 10) (n / 10) with
  | lt =>
    have := Nat.compare_eq_lt.1 tenths
    exact Nat.compare_eq_lt.2 (by omega)
  | gt =>
    have := Nat.compare_eq_gt.1 tenths
    exact Nat.compare_eq_gt.2 (by omega)
  | eq =>
    have := Nat.compare_eq_eq.1 tenths
    rw [Ordering.eq_then]
    cases last : compare (m % 10) (n % 10) with
    | lt =>
      have := Nat.compare_eq_lt.1 last
      exact Nat.compare_eq_lt.2 (by omega)
    | gt =>
      have := Nat.compare_eq_gt.1 last
      exact Nat.compare_eq_gt.2 (by omega)
    | eq =>
      have := Nat.compare_eq_eq.1 last
      exact Nat.compare_eq_eq.2 (by omega)

def paddedBytes (width n : Nat) : List UInt8 := (padded width n).toUTF8.data.toList

theorem paddedBytes_eq_map (width n : Nat) :
    paddedBytes width n = (padded width n).toList.map fun c => c.toNat.toUInt8 := by
  rw [paddedBytes, Utf8.toUTF8_toList, Utf8.ofChars_ascii]
  intro c mem
  have := isDigit_of_mem_padded mem
  omega

theorem length_paddedBytes (h : n < 10 ^ (w + 1)) : (paddedBytes (w + 1) n).length = w + 1 := by
  rw [paddedBytes_eq_map, List.length_map, String.length_toList, (numeral_padded h).length]

theorem paddedBytes_succ (w n : Nat) :
    paddedBytes (w + 2) n =
      paddedBytes (w + 1) (n / 10) ++ [(digitChar (n % 10)).toNat.toUInt8] := by
  simp only [paddedBytes_eq_map, toList_padded_succ, List.map_append, List.map_singleton]

theorem compare_digit (hd : d < 10) (he : e < 10) :
    compare [(digitChar d).toNat.toUInt8] [(digitChar e).toNat.toUInt8] = compare d e := by
  have : ∀ d e : Fin 10, compare [(digitChar d).toNat.toUInt8] [(digitChar e).toNat.toUInt8] =
      compare d.val e.val := by decide
  exact this ⟨d, hd⟩ ⟨e, he⟩

theorem compare_paddedBytes (w : Nat) (hm : m < 10 ^ (w + 1)) (hn : n < 10 ^ (w + 1)) :
    compare (paddedBytes (w + 1) m) (paddedBytes (w + 1) n) = compare m n := by
  induction w generalizing m n with
  | zero =>
    have one : ∀ {k}, k < 10 → paddedBytes 1 k = [(digitChar k).toNat.toUInt8] := fun h => by
      rw [paddedBytes_eq_map, toList_padded, digits_of_lt h]
      rfl
    rw [one (by simpa using hm), one (by simpa using hn)]
    exact compare_digit (by simpa using hm) (by simpa using hn)
  | succ w ih =>
    have tenth : ∀ {k}, k < 10 ^ (w + 2) → k / 10 < 10 ^ (w + 1) := fun h => by
      rw [Nat.pow_succ] at h
      omega
    have lengths := (length_paddedBytes (tenth hm)).trans (length_paddedBytes (tenth hn)).symm
    rw [paddedBytes_succ, paddedBytes_succ, compare_append lengths, ih (tenth hm) (tenth hn),
      compare_digit (by omega) (by omega), ← compare_tenths]

-- with a digit too few the first number that is too long falls behind the last one that fits
example : compare (paddedBytes 19 (10 ^ 19)) (paddedBytes 19 (10 ^ 19 - 1)) = .lt := by cbv

end SlotLease.Decimal

namespace SlotLease.Id

theorem toNat_raw_lt (id : Id) : id.raw.toNat < 10 ^ 20 := by
  have := id.raw.toNat_lt
  omega

theorem compare_raw (a b : Id) : compare a.raw.toNat b.raw.toNat = compare a.raw b.raw := by
  show compareOfLessAndEq a.raw.toNat b.raw.toNat = compareOfLessAndEq a.raw b.raw
  simp only [compareOfLessAndEq, UInt64.lt_iff_toNat_lt, ← UInt64.toNat_inj]

/-- A padded text is twenty digits that are read back as the word, padded texts are in the order of
the words, and the plain text is read back too and is the padded one without its leading zeros. -/
theorem padded_sorts_as_words (a b : Id) :
    (Decimal.Numeral 20 a.padded ∧ Decimal.parseWord? a.padded = some a.raw) ∧
    compare a.padded.toUTF8.data.toList b.padded.toUTF8.data.toList = compare a.raw b.raw ∧
    Decimal.parseWord? a.text = some a.raw ∧
    a.text = Decimal.unpadded a.padded := by
  refine ⟨⟨Decimal.numeral_padded a.toNat_raw_lt, Decimal.parseWord?_padded 20 a.raw⟩, ?_,
    Decimal.parseWord?_text a.raw, (Decimal.unpadded_padded 20 a.raw.toNat).symm⟩
  rw [← compare_raw]
  exact Decimal.compare_paddedBytes 19 a.toNat_raw_lt b.toNat_raw_lt

end SlotLease.Id
