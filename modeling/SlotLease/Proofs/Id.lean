import Mathlib.Algebra.Group.Nat.Defs
import SlotLease.Slot

namespace SlotLease.Id

theorem mul_or_eq_add (h : b < 2 ^ n) (a : Nat) : a * 2 ^ n ||| b = a * 2 ^ n + b := by
  rw [Nat.mul_comm]
  exact (Nat.two_pow_add_eq_or_of_lt h a).symm

theorem toNat_and_timestamp (w : UInt64) : (w &&& maxTimestamp).toNat = w.toNat % 2 ^ 41 := by
  rw [UInt64.toNat_and, ← Nat.and_two_pow_sub_one_eq_mod]
  rfl

theorem toNat_and_number (w : UInt64) : (w &&& 0x1F).toNat = w.toNat % 2 ^ 5 := by
  rw [UInt64.toNat_and, ← Nat.and_two_pow_sub_one_eq_mod]
  rfl

theorem toNat_and_sequence (w : UInt64) : (w &&& maxSequence).toNat = w.toNat % 2 ^ 12 := by
  rw [UInt64.toNat_and, ← Nat.and_two_pow_sub_one_eq_mod]
  rfl

theorem toNat_shiftLeft_of_lt {x n : UInt64} (fits : x.toNat * 2 ^ (n.toNat % 64) < 2 ^ 64) :
    (x <<< n).toNat = x.toNat * 2 ^ (n.toNat % 64) := by
  rw [UInt64.toNat_shiftLeft, Nat.shiftLeft_eq, Nat.mod_eq_of_lt fits]

theorem toNat_pack (timestamp datacenter worker sequence : UInt64) :
    (pack timestamp datacenter worker sequence).raw.toNat =
      timestamp.toNat % 2 ^ 41 * 2 ^ 22 + (datacenter.toNat % 2 ^ 5 * 2 ^ 17 +
        (worker.toNat % 2 ^ 5 * 2 ^ 12 + sequence.toNat % 2 ^ 12)) := by
  have t : timestamp.toNat % 2 ^ 41 < 2 ^ 41 := Nat.mod_lt _ (by decide)
  have d : datacenter.toNat % 2 ^ 5 < 2 ^ 5 := Nat.mod_lt _ (by decide)
  have w : worker.toNat % 2 ^ 5 < 2 ^ 5 := Nat.mod_lt _ (by decide)
  have s : sequence.toNat % 2 ^ 12 < 2 ^ 12 := Nat.mod_lt _ (by decide)
  have first : ((timestamp &&& maxTimestamp) <<< timestampShift).toNat =
      timestamp.toNat % 2 ^ 41 * 2 ^ 22 := by
    rw [toNat_shiftLeft_of_lt, toNat_and_timestamp]
    · rfl
    · rw [toNat_and_timestamp]
      show timestamp.toNat % 2 ^ 41 * 2 ^ 22 < 2 ^ 64
      omega
  have second : ((datacenter &&& maxDatacenter) <<< datacenterShift).toNat =
      datacenter.toNat % 2 ^ 5 * 2 ^ 17 := by
    rw [toNat_shiftLeft_of_lt, maxDatacenter, toNat_and_number]
    · rfl
    · rw [maxDatacenter, toNat_and_number]
      show datacenter.toNat % 2 ^ 5 * 2 ^ 17 < 2 ^ 64
      omega
  have third : ((worker &&& maxWorker) <<< workerShift).toNat = worker.toNat % 2 ^ 5 * 2 ^ 12 := by
    rw [toNat_shiftLeft_of_lt, maxWorker, toNat_and_number]
    · rfl
    · rw [maxWorker, toNat_and_number]
      show worker.toNat % 2 ^ 5 * 2 ^ 12 < 2 ^ 64
      omega
  have fourth : ((sequence &&& maxSequence) <<< sequenceShift).toNat = sequence.toNat % 2 ^ 12 := by
    rw [toNat_shiftLeft_of_lt, toNat_and_sequence]
    · exact Nat.mul_one _
    · rw [toNat_and_sequence]
      show sequence.toNat % 2 ^ 12 * 2 ^ 0 < 2 ^ 64
      omega
  simp only [pack, UInt64.toNat_or, first, second, third, fourth, Nat.or_assoc]
  rw [mul_or_eq_add s, mul_or_eq_add (n := 17), mul_or_eq_add (n := 22)]
  · omega
  · omega

theorem toNat_timestamp (id : Id) : id.timestamp.toNat = id.raw.toNat / 2 ^ 22 % 2 ^ 41 := by
  rw [timestamp, toNat_and_timestamp, UInt64.toNat_shiftRight, Nat.shiftRight_eq_div_pow]
  rfl

theorem toNat_datacenter (id : Id) : id.datacenter.toNat = id.raw.toNat / 2 ^ 17 % 2 ^ 5 := by
  rw [datacenter, maxDatacenter, toNat_and_number, UInt64.toNat_shiftRight,
    Nat.shiftRight_eq_div_pow]
  rfl

theorem toNat_worker (id : Id) : id.worker.toNat = id.raw.toNat / 2 ^ 12 % 2 ^ 5 := by
  rw [worker, maxWorker, toNat_and_number, UInt64.toNat_shiftRight, Nat.shiftRight_eq_div_pow]
  rfl

theorem toNat_sequence (id : Id) : id.sequence.toNat = id.raw.toNat % 2 ^ 12 := by
  rw [sequence, toNat_and_sequence, UInt64.toNat_shiftRight, Nat.shiftRight_eq_div_pow]
  exact congrArg (· % 2 ^ 12) (Nat.div_one _)

variable {timestamp datacenter worker sequence : UInt64}

theorem timestamp_pack (fits : timestamp ≤ maxTimestamp) :
    (pack timestamp datacenter worker sequence).timestamp = timestamp := by
  have fits : timestamp.toNat ≤ 2 ^ 41 - 1 := UInt64.le_iff_toNat_le.1 fits
  apply UInt64.toNat_inj.1
  rw [toNat_timestamp, toNat_pack]
  omega

theorem datacenter_pack (fits : datacenter ≤ maxDatacenter) :
    (pack timestamp datacenter worker sequence).datacenter = datacenter := by
  have fits : datacenter.toNat ≤ 2 ^ 5 - 1 := UInt64.le_iff_toNat_le.1 fits
  apply UInt64.toNat_inj.1
  rw [toNat_datacenter, toNat_pack]
  omega

theorem worker_pack (fits : worker ≤ maxWorker) :
    (pack timestamp datacenter worker sequence).worker = worker := by
  have fits : worker.toNat ≤ 2 ^ 5 - 1 := UInt64.le_iff_toNat_le.1 fits
  apply UInt64.toNat_inj.1
  rw [toNat_worker, toNat_pack]
  omega

theorem sequence_pack (fits : sequence ≤ maxSequence) :
    (pack timestamp datacenter worker sequence).sequence = sequence := by
  have fits : sequence.toNat ≤ 2 ^ 12 - 1 := UInt64.le_iff_toNat_le.1 fits
  apply UInt64.toNat_inj.1
  rw [toNat_sequence, toNat_pack]
  omega

theorem timestamp_le (id : Id) : id.timestamp ≤ maxTimestamp := by
  apply UInt64.le_iff_toNat_le.2
  rw [toNat_timestamp]
  show _ ≤ 2 ^ 41 - 1
  omega

theorem datacenter_le (id : Id) : id.datacenter ≤ maxDatacenter := by
  apply UInt64.le_iff_toNat_le.2
  rw [toNat_datacenter]
  show _ ≤ 2 ^ 5 - 1
  omega

theorem worker_le (id : Id) : id.worker ≤ maxWorker := by
  apply UInt64.le_iff_toNat_le.2
  rw [toNat_worker]
  show _ ≤ 2 ^ 5 - 1
  omega

theorem slot_pack (fits : datacenter ≤ maxDatacenter) (fits' : worker ≤ maxWorker) :
    Slot.ofId (pack timestamp datacenter worker sequence) = ⟨datacenter, worker⟩ := by
  rw [Slot.ofId, datacenter_pack fits, worker_pack fits']

theorem isValid_iff {id : Id} : id.isValid = true ↔ id.raw.toNat < 2 ^ 63 := by
  simp only [isValid, decide_eq_true_eq, ← UInt64.toNat_inj, UInt64.toNat_shiftRight,
    Nat.shiftRight_eq_div_pow]
  show id.raw.toNat / 2 ^ 63 = 0 ↔ _
  omega

theorem isValid_pack (timestamp datacenter worker sequence : UInt64) :
    (pack timestamp datacenter worker sequence).isValid = true := by
  rw [isValid_iff, toNat_pack]
  omega

theorem toNat_raw {id : Id} (valid : id.isValid = true) :
    id.raw.toNat = id.timestamp.toNat * 2 ^ 22 + (id.datacenter.toNat * 2 ^ 17 +
      (id.worker.toNat * 2 ^ 12 + id.sequence.toNat)) := by
  have valid := isValid_iff.1 valid
  rw [toNat_timestamp, toNat_datacenter, toNat_worker, toNat_sequence]
  omega

theorem toInt_toInt64 {id : Id} (valid : id.isValid = true) :
    id.toInt64.toInt = id.raw.toNat := by
  have valid := isValid_iff.1 valid
  have half : 2 * id.raw.toBitVec.toNat < 2 ^ 64 := by
    rw [UInt64.toNat_toBitVec]
    omega
  exact BitVec.toInt_eq_toNat_of_lt half

theorem toInt64_lt_iff {id id' : Id} (valid : id.isValid = true) (valid' : id'.isValid = true) :
    id.toInt64 < id'.toInt64 ↔ id.raw < id'.raw := by
  rw [Int64.lt_iff_toInt_lt, toInt_toInt64 valid, toInt_toInt64 valid', UInt64.lt_iff_toNat_lt]
  exact Int.ofNat_lt

end SlotLease.Id
