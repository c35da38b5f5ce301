import SlotLease.Text.Hex

namespace SlotLease.Hex

theorem digitValue?_digitChar (h : d < 16) : digitValue? (digitChar d) = some d := by
  have : ∀ d : Fin 16, digitValue? (digitChar d) = some d.val := by decide
  exact this ⟨d, h⟩

theorem ofBytes_cons (b : UInt8) (bytes : List UInt8) :
    ofBytes (b :: bytes) =
      digitChar (b.toNat / 16 % 16) :: digitChar (b.toNat % 16) :: ofBytes bytes := rfl

@[simp] theorem toBytes?_ofBytes (bytes : List UInt8) : toBytes? (ofBytes bytes) = some bytes := by
  induction bytes with
  | nil => rfl
  | cons b bytes ih =>
    have bound := b.toNat_lt
    have whole : 16 * (b.toNat / 16 % 16) + b.toNat % 16 = b.toNat := by omega
    rw [ofBytes_cons, toBytes?, digitValue?_digitChar (by omega),
      digitValue?_digitChar (by omega), ih]
    show some ((16 * (b.toNat / 16 % 16) + b.toNat % 16).toUInt8 :: bytes) = some (b :: bytes)
    rw [whole]
    simp

theorem ofBytes_injective (h : ofBytes l = ofBytes l') : l = l' := by
  simpa using congrArg toBytes? h

theorem length_ofBytes (bytes : List UInt8) : (ofBytes bytes).length = 2 * bytes.length := by
  induction bytes with
  | nil => rfl
  | cons b bytes ih =>
    rw [ofBytes_cons]
    simp only [List.length_cons, ih]
    omega

theorem toNat_digitChar_lt (h : d < 16) : (digitChar d).toNat < 128 := by
  have : ∀ d : Fin 16, (digitChar d).toNat < 128 := by decide
  exact this ⟨d, h⟩

theorem ascii_of_mem_ofBytes {bytes : List UInt8} (mem : c ∈ ofBytes bytes) : c.toNat < 128 := by
  induction bytes with
  | nil => cases mem
  | cons b bytes ih =>
    rw [ofBytes_cons] at mem
    rcases List.mem_cons.1 mem with rfl | mem
    · exact toNat_digitChar_lt (by omega)
    · rcases List.mem_cons.1 mem with rfl | mem
      · exact toNat_digitChar_lt (by omega)
      · exact ih mem

end SlotLease.Hex
