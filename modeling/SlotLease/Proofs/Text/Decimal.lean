import Mathlib.Algebra.Group.Nat.Defs
import SlotLease.Proofs.Text.Utf8
import SlotLease.Text.Decimal

namespace SlotLease.Decimal

theorem toNat_digitChar (h : d < 10) : (digitChar d).toNat = 48 + d := by
  have : ∀ d : Fin 10, (digitChar d).toNat = 48 + d.val := by decide
  exact this ⟨d, h⟩

theorem digitValue?_digitChar (h : d < 10) : digitValue? (digitChar d) = some d := by
  simp only [digitValue?, toNat_digitChar h]
  rw [if_pos (by omega)]
  simp

theorem digits_of_lt (h : n < 10) : digits n = [digitChar n] := by
  rw [digits, if_pos h]

theorem digits_of_le (h : 10 ≤ n) : digits n = digits (n / 10) ++ [digitChar (n % 10)] := by
  rw [digits, if_neg (by omega)]

theorem digits_ne_nil (n : Nat) : digits n ≠ [] := by
  rw [digits]
  split <;> simp

theorem isDigit_of_mem_digits {n : Nat} {c : Char} (h : c ∈ digits n) :
    48 ≤ c.toNat ∧ c.toNat ≤ 57 := by
  induction n using Nat.strongRecOn with
  | ind n ih =>
    by_cases small : n < 10
    · rw [digits_of_lt small, List.mem_singleton] at h
      rw [h, toNat_digitChar small]
      omega
    · rw [digits_of_le (by omega), List.mem_append, List.mem_singleton] at h
      cases h with
      | inl h => exact ih (n / 10) (by omega) h
      | inr h =>
        rw [h, toNat_digitChar (by omega)]
        omega

theorem head?_digits (h : 0 < n) : (digits n).head? ≠ some '0' := by
  induction n using Nat.strongRecOn with
  | ind n ih =>
    by_cases small : n < 10
    · rw [digits_of_lt small]
      intro zero
      have same : digitChar n = '0' := by simpa using zero
      have := congrArg Char.toNat same
      rw [toNat_digitChar small, show ('0' : Char).toNat = 48 by rfl] at this
      omega
    · rw [digits_of_le (by omega), List.head?_append]
      cases first : (digits (n / 10)).head? with
      | none => exact absurd (List.head?_eq_none_iff.1 first) (digits_ne_nil _)
      | some c => simpa [first] using ih (n / 10) (by omega) (by omega)

theorem readFrom_append (value : Nat) (l l' : List Char) :
    readFrom value (l ++ l') = (readFrom value l).bind fun n => readFrom n l' := by
  induction l generalizing value with
  | nil => rfl
  | cons c rest ih =>
    simp only [List.cons_append, readFrom]
    cases digitValue? c with
    | none => rfl
    | some d => exact ih _

theorem readFrom_digits (value n : Nat) :
    readFrom value (digits n) = some (value * 10 ^ (digits n).length + n) := by
  induction n using Nat.strongRecOn with
  | ind n ih =>
    by_cases small : n < 10
    · simp [digits_of_lt small, readFrom, digitValue?_digitChar small]
    · rw [digits_of_le (by omega), readFrom_append, ih (n / 10) (by omega)]
      simp only [Option.bind_some, readFrom, digitValue?_digitChar (show n % 10 < 10 by omega),
        List.length_append, List.length_singleton, Nat.pow_succ]
      rw [Nat.add_mul, Nat.mul_assoc]
      congr 1
      omega

@[simp] theorem read?_digits (n : Nat) : read? (digits n) = some n := by
  cases h : digits n with
  | nil => exact absurd h (digits_ne_nil n)
  | cons c rest =>
    rw [read?, ← h, readFrom_digits]
    · simp
    · simp

theorem digits_injective (h : digits m = digits n) : m = n := by
  simpa using congrArg read? h

theorem parse?_of_digits {s : String} (h : ∀ c ∈ s.toList, 48 ≤ c.toNat ∧ c.toNat ≤ 57) :
    parse? limit s = (read? s.toList).filter (· ≤ limit) := by
  rw [parse?]
  split
  · next rest split =>
    have : 48 ≤ ('+' : Char).toNat ∧ _ := h '+' (by simp [split])
    exact absurd this.1 (by decide)
  · rfl

theorem parse?_text (h : n ≤ limit) : parse? limit (text n) = some n := by
  have digits : (text n).toList = digits n := String.toList_ofList
  rw [parse?_of_digits, digits, read?_digits]
  · simp [h]
  · intro c mem
    rw [digits] at mem
    exact isDigit_of_mem_digits mem

@[simp] theorem parseWord?_text (w : UInt64) : parseWord? (text w.toNat) = some w := by
  rw [parseWord?, parse?_text (by have := w.toNat_lt; simp only [UInt64.size]; omega)]
  simp

theorem length_digits_le (k : Nat) (h : n < 10 ^ (k + 1)) : (digits n).length ≤ k + 1 := by
  induction k generalizing n with
  | zero =>
    rw [digits_of_lt (by simpa using h)]
    simp
  | succ k ih =>
    by_cases small : n < 10
    · rw [digits_of_lt small]
      simp
    · rw [digits_of_le (by omega), List.length_append]
      exact Nat.add_le_add_right (ih (by rw [Nat.pow_succ] at h; omega)) 1

theorem utf8ByteSize_text_le (k : Nat) (h : n < 10 ^ (k + 1)) : (text n).utf8ByteSize ≤ k + 1 := by
  rw [text, Utf8.utf8ByteSize_of_ascii]
  · exact length_digits_le k h
  · intro c mem
    have := isDigit_of_mem_digits mem
    omega

end SlotLease.Decimal
