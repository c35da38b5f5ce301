import SlotLease.Proofs.Coordinator.FirstFit

namespace SlotLease

open Interaction Lease

namespace Allocation

variable {W : Type} {answers : (r : Request) → W → Reply r → W → Prop}
  {isTaken : Slot → Lease.Program (Except Error Bool)} {keys : KeySpace} {listed : List String}

inductive AllTaken (answers : (r : Request) → W → Reply r → W → Prop)
    (isTaken : Slot → Lease.Program (Except Error Bool)) : List Slot → W → W → Prop
  | nil : AllTaken answers isTaken [] w w
  | cons : Runs answers (isTaken slot) w (.ok true) w₁ → AllTaken answers isTaken rest w₁ w' →
      AllTaken answers isTaken (slot :: rest) w w'

def Named (keys : KeySpace) (listed : List String) (slot : Slot) : Prop :=
  ∃ key ∈ listed, keys.slotOf? key = some slot

/-- A listed key names a slot of a datacenter that ids can hold. -/
def Opened (keys : KeySpace) (listed : List String) (datacenter : UInt64) : Prop :=
  ∃ worker, Slot.InRange ⟨datacenter, worker⟩ ∧ Named keys listed ⟨datacenter, worker⟩

theorem runs_firstFree_none {slots : List Slot} {w w' : W} :
    Runs answers (firstFree isTaken slots) w (.ok none) w' ↔
      AllTaken answers isTaken slots w w' := by
  induction slots generalizing w with
  | nil =>
    constructor
    · rintro ⟨⟩
      exact .nil
    · rintro ⟨⟩
      exact .done
  | cons slot rest ih =>
    rw [firstFree, runs_bind_iff]
    constructor
    · rintro ⟨e | _ | _, w₁, asked, run⟩
      · cases run
      · cases run
      · exact .cons asked (ih.1 run)
    · rintro (_ | ⟨asked, taken⟩)
      exact ⟨_, _, asked, ih.2 taken⟩

variable {occupied : List Slot} {slot : Slot}

theorem mem_candidates (inRange : slot.InRange) : slot ∈ candidates occupied ↔
    slot ∉ occupied ∧ (slot.worker = 0 ∨ isUsed occupied slot.datacenter = true) := by
  constructor
  · intro mem
    refine ⟨not_mem_of_candidate mem, ?_⟩
    rcases List.mem_append.1 mem with mem | mem
    · obtain ⟨d, used, mem⟩ := List.mem_flatMap.1 mem
      rw [(mem_freeIn mem).1]
      exact .inr (List.mem_filter.1 used).2
    · obtain ⟨d, _, rfl⟩ := List.mem_map.1 mem
      exact .inl rfl
  · obtain ⟨d, w⟩ := slot
    rintro ⟨free, tried⟩
    have datacenter := mem_numbers.2 inRange.1
    have worker := mem_numbers.2 inRange.2
    by_cases used : isUsed occupied d = true
    · exact List.mem_append_left _ (List.mem_flatMap.2 ⟨d, List.mem_filter.2 ⟨datacenter, used⟩,
        List.mem_filter.2 ⟨List.mem_map.2 ⟨w, worker, rfl⟩, by simpa using free⟩⟩)
    · obtain rfl : w = 0 := tried.resolve_right used
      exact List.mem_append_right _
        (List.mem_map.2 ⟨d, List.mem_filter.2 ⟨datacenter, by simpa using used⟩, rfl⟩)

theorem opened_iff {datacenter : UInt64} :
    Opened keys listed datacenter ↔ isUsed (Allocation.occupied keys listed) datacenter = true := by
  simp only [Opened, Named, isUsed_iff, mem_occupied]

theorem named_iff (inRange : slot.InRange) :
    Named keys listed slot ↔ slot ∈ Allocation.occupied keys listed := by
  rw [mem_occupied, Named, and_iff_right inRange]

theorem named_or_candidate_iff (inRange : slot.InRange) :
    Named keys listed slot ∨ slot ∈ candidates (Allocation.occupied keys listed) ↔
      slot.worker = 0 ∨ Opened keys listed slot.datacenter := by
  rw [mem_candidates inRange, named_iff inRange, opened_iff]
  constructor
  · rintro (mem | ⟨_, tried⟩)
    · exact .inr (isUsed_iff.2 ⟨slot.worker, mem⟩)
    · exact tried
  · intro tried
    exact (Classical.em _).imp_right fun free => ⟨free, tried⟩

/-- If a search finds nothing, each candidate was asked about and is taken; so each slot is named by
a listed key or was asked about exactly if every datacenter is opened. -/
theorem none_found_iff {w w' : W}
    (run : Runs answers (firstFree isTaken (candidates (Allocation.occupied keys listed))) w
      (.ok none) w') :
    AllTaken answers isTaken (candidates (Allocation.occupied keys listed)) w w' ∧
      (∀ slot : Slot, slot.InRange →
        (Named keys listed slot ∨ slot ∈ candidates (Allocation.occupied keys listed) ↔
          slot.worker = 0 ∨ Opened keys listed slot.datacenter)) ∧
      ((∀ slot : Slot, slot.InRange →
        Named keys listed slot ∨ slot ∈ candidates (Allocation.occupied keys listed)) ↔
          ∀ datacenter, datacenter ≤ Id.maxDatacenter → Opened keys listed datacenter) := by
  refine ⟨runs_firstFree_none.1 run, fun slot => named_or_candidate_iff, fun all d le => ?_,
    fun opened slot inRange => ?_⟩
  · have second : (1 : UInt64) ≤ Id.maxWorker ∧ ¬ (1 : UInt64) = 0 := by decide
    have one : Slot.InRange ⟨d, 1⟩ := ⟨le, second.1⟩
    exact ((named_or_candidate_iff one).1 (all _ one)).resolve_left second.2
  · exact (named_or_candidate_iff inRange).2 (.inr (opened _ inRange.1))

theorem runs_taken (slots : List Slot) : Runs (W := Unit) (fun _ _ _ _ => False)
    (firstFree (fun _ => return .ok true) slots) () (.ok none) () := by
  refine runs_firstFree_none.2 ?_
  induction slots with
  | nil => exact .nil
  | cons slot rest ih => exact .cons .done ih

theorem none_found_opened :
    let keys := KeySpace.ofPieces "SNOWFLAKE" "NODE"
    let listed := numbers.map fun datacenter => keys.leaseKey ⟨datacenter, 0⟩
    Runs (W := Unit) (fun _ _ _ _ => False) (firstFree (fun _ => return .ok true)
        (candidates (Allocation.occupied keys listed))) () (.ok none) () ∧
      ∀ slot : Slot, slot.InRange →
        Named keys listed slot ∨ slot ∈ candidates (Allocation.occupied keys listed) := by
  intro keys listed
  have run := runs_taken (candidates (Allocation.occupied keys listed))
  refine ⟨run, (none_found_iff run).2.2.2 fun datacenter le => ?_⟩
  have proper : keys.Proper := KeySpace.proper_ofPieces (by decide) (by decide)
  exact ⟨0, ⟨le, (by decide : (0 : UInt64) ≤ Id.maxWorker)⟩, _,
    List.mem_map_of_mem (mem_numbers.2 le), proper.slotOf?_leaseKey _⟩

end Allocation

namespace Coordinator

def outdated (keys : KeySpace) : Store.Behaviour
  | _, .list _ => .ok [keys.leaseKey ⟨0, 0⟩]
  | _, .has _ => .ok true
  | _, _ => .error (.unavailable "")

theorem exhausted_unasked :
    let c := ofSettings .longest Settings.daily
    let listed := [c.keys.leaseKey ⟨0, 0⟩]
    let ended := (c.acquire.run (play (outdated c.keys))).run []
    Slot.InRange ⟨1, 1⟩ ∧ ¬ Allocation.Named c.keys listed ⟨1, 1⟩ ∧
      Runs (W := Unit) (fun _ _ _ _ => False) (Allocation.firstFree (fun _ => return .ok true)
        (Allocation.candidates (Allocation.occupied c.keys listed))) () (.ok none) () ∧
      ⟨1, 1⟩ ∉ Allocation.candidates (Allocation.occupied c.keys listed) ∧
      create .longest (.ofMillis 1750000000000) = .ok c ∧ ended.1.1 = .error .slotsExhausted ∧
      ∀ x ∈ ended.2, x.call ≠ .has (c.keys.leaseKey ⟨1, 1⟩) := by
  intro c listed ended
  have proper : c.keys.Proper := Settings.longest_accepts.proper
  refine ⟨by decide, ?_, Allocation.runs_taken _, by decide +kernel, create_longest,
    by decide +kernel, by decide +kernel⟩
  rintro ⟨key, mem, named⟩
  rw [List.mem_singleton.1 mem, proper.slotOf?_leaseKey] at named
  cases named

end Coordinator

end SlotLease
