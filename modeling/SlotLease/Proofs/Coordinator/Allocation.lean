import SlotLease.Coordinator.Allocation

namespace SlotLease.Allocation

theorem le_of_mem_numbers (mem : n ∈ numbers) : n ≤ Id.maxWorker := by
  obtain ⟨k, less, rfl⟩ := List.mem_map.1 mem
  have less : k < 32 := List.mem_range.1 less
  apply UInt64.le_iff_toNat_le.2
  rw [UInt64.toNat_ofNat', Nat.mod_eq_of_lt (by omega)]
  exact Nat.le_of_lt_succ less

theorem inRange_of_mem (datacenter : d ∈ numbers) (worker : w ∈ numbers) : Slot.InRange ⟨d, w⟩ :=
  ⟨le_of_mem_numbers datacenter, le_of_mem_numbers worker⟩

theorem inRange_of_mem_candidates {occupied : List Slot} {slot : Slot}
    (mem : slot ∈ candidates occupied) : slot.InRange := by
  rcases List.mem_append.1 mem with mem | mem
  · obtain ⟨d, used, mem⟩ := List.mem_flatMap.1 mem
    obtain ⟨w, worker, rfl⟩ := List.mem_map.1 (List.mem_filter.1 mem).1
    exact inRange_of_mem (List.mem_filter.1 used).1 worker
  · obtain ⟨d, unused, rfl⟩ := List.mem_map.1 mem
    exact inRange_of_mem (List.mem_filter.1 unused).1 (by decide)

end SlotLease.Allocation
