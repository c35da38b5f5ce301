import SlotLease.Proofs.Coordinator.Progress
import SlotLease.Proofs.Fleet.Basic

namespace SlotLease

namespace Fleet

open Interaction Lease

variable {ι : Type} {keys : KeySpace} {punctual : Prop} {bound : Slot → Prop} {f : Fleet ι} {i : ι}
  {members : ι → Coordinator} {s : MemoryStore} {now later : Instant} {clock : UInt64} {slot : Slot}
  {entry : MemoryStore.Entry}

def standard (ι : Type) (now : Instant) : Fleet ι := ⟨fun _ => .standard, .memory .empty now, 0⟩

theorem standard_initial (now : Instant) :
    (standard ι now).Initial Coordinator.standard.keys where
  store := SharedStore.Empty.memory.sound
  fresh _ := Coordinator.standard_fresh
  keys _ := rfl

theorem inTime_of_current (current : s.Current later) :
    InTime keys bound (.memory s now) (.memory s' later) := by
  intro slot _ e found
  obtain ⟨entry, here, rfl⟩ := MemoryStore.stored_eq_some.1 found
  exact MemoryStore.isLive_iff.1 (current _ _ here)

theorem inTime_of_only (only : s.Only key entry) (live : entry.isLive later = true) :
    InTime keys bound (.memory s now) (.memory s' later) := inTime_of_current (only.current live)

theorem isLive_add {value : String} {ttl : Duration} (positive : 0 < ttl.nanos) :
    MemoryStore.Entry.isLive ⟨value, now.add ttl⟩ now = true := by
  simp only [MemoryStore.isLive_iff, Instant.add]
  omega

theorem inTime_of_none (none : ∀ key, s.table.get? key = none) :
    InTime keys bound (.memory s now) σ := by
  intro slot _ e found
  obtain ⟨entry', here, rfl⟩ := MemoryStore.stored_eq_some.1 found
  rw [none] at here
  cases here

theorem inTime_of_unpunctual : InTime keys (watched False members) σ σ' :=
  fun _ watched => watched.1.elim

variable [DecidableEq ι]

theorem Run.standard (ι : Type) [DecidableEq ι] (punctual : Prop) (now : Instant) :
    Run Coordinator.standard.keys punctual (standard ι now) []
      ⟨fun _ => .standard, .memory .empty now, 0⟩ := .start

theorem Run.acquire (run : Run keys punctual f events ⟨members, .memory s now, clock⟩)
    (fresh : (members i).Fresh) (same : (members i).keys = keys)
    (ended : ∀ key entry, s.table.get? key = some entry → entry.isLive now = false)
    (fits : (now.add (members i).leaseTtl).seconds < 0x8000000000000000)
    (positive : 0 < (members i).leaseTtl.nanos)
    (inTime : InTime keys (watched punctual members) (.memory s now) (.memory s now)) :
    ∃ s' : MemoryStore, s'.Only (keys.leaseKey ⟨0, 0⟩)
        ⟨Slot.toJson ⟨0, 0⟩, now.add (members i).leaseTtl⟩ ∧
      Run keys punctual f (events ++ [.acquired i (.ok ⟨0, 0⟩)])
        ⟨Function.update members i ((members i).holding ⟨0, 0⟩), .memory s' now, clock⟩ := by
  obtain ⟨s', only, acquire⟩ := Coordinator.runs_acquire fresh ended fits inTime
  rw [same] at only
  exact ⟨s', only, run.step (.acquired acquire) (inTime_of_only only (isLive_add positive))⟩

theorem Run.acquire_beside (run : Run keys punctual f events ⟨members, .memory s now, clock⟩)
    (fresh : (members i).Fresh) (same : (members i).keys = keys)
    (only : s.Only (keys.leaseKey ⟨0, 0⟩) entry) (live : entry.isLive now = true)
    (named : Allocation.occupied keys [keys.leaseKey ⟨0, 0⟩] = [⟨0, 0⟩])
    (fits : (now.add (members i).leaseTtl).seconds < 0x8000000000000000)
    (positive : 0 < (members i).leaseTtl.nanos) :
    Run keys punctual f (events ++ [.acquired i (.ok ⟨0, 1⟩)])
      ⟨Function.update members i ((members i).holding ⟨0, 1⟩),
        .memory ⟨s.table.insert (keys.leaseKey ⟨0, 1⟩)
          ⟨Slot.toJson ⟨0, 1⟩, now.add (members i).leaseTtl⟩⟩ now, clock⟩ := by
  subst same
  have inTime : InTime (members i).keys (watched punctual members) (.memory s now)
      (.memory s now) := inTime_of_only only live
  have acquire := Coordinator.runs_acquire_beside fresh only live named fits inTime
  exact run.step (.acquired acquire)
    (inTime_of_current ((only.current live).insert _ (isLive_add positive)))

theorem Run.renew (run : Run keys punctual f events ⟨members, .memory s now, clock⟩)
    (state : (members i).state = .bound slot) (same : (members i).keys = keys)
    (current : s.Current now) (here : s.table.get? (keys.leaseKey slot) = some entry)
    (fits : (now.add (members i).leaseTtl).seconds < 0x8000000000000000)
    (positive : 0 < (members i).leaseTtl.nanos) :
    Run keys punctual f (events ++ [.renewed i (.ok true)])
      ⟨members, .memory ⟨s.table.insert (keys.leaseKey slot)
        { entry with deadline := now.add (members i).leaseTtl }⟩ now, clock⟩ := by
  subst same
  have inTime : InTime (members i).keys (watched punctual members) (.memory s now)
      (.memory s now) := inTime_of_current current
  have renew := Coordinator.runs_renew state here (current _ _ here) fits inTime
  have step : Step (members i).keys punctual ⟨members, .memory s now, clock⟩ (.renewed i (.ok true))
      (put ⟨members, .memory s now, clock⟩ i (members i) (.memory _ now)) := .renewed renew
  rw [put_same] at step
  exact run.step step (inTime_of_current (current.insert _ (isLive_add positive)))

theorem Run.release (run : Run keys punctual f events ⟨members, .memory s now, clock⟩)
    (state : (members i).state = .bound slot) (same : (members i).keys = keys)
    (only : s.Only (keys.leaseKey slot) entry) (live : entry.isLive now = true) :
    ∃ s' : MemoryStore, (∀ key, s'.table.get? key = none) ∧
      Run keys punctual f (events ++ [.released i (.ok true)])
        ⟨Function.update members i ((members i).releasing slot), .memory s' now, clock⟩ := by
  subst same
  have inTime : InTime (members i).keys
      (watched punctual (Function.update members i ((members i).releasing slot)))
      (.memory s now) (.memory s now) := inTime_of_only only live
  obtain ⟨s', none, release⟩ := Coordinator.runs_release state only live inTime
  exact ⟨s', none, run.step (.released release) (inTime_of_none none)⟩

theorem Step.verify (state : (members i).state = .bound slot) (issuing : (members i).issuing = true)
    (same : (members i).keys = keys) (current : s.Current now)
    (here : s.table.get? (keys.leaseKey slot) = some entry)
    (named : Slot.ofText? entry.value = some slot) :
    Step keys punctual ⟨members, .memory s now, clock⟩ (.verified i (.ok ()))
      ⟨members, .memory s now, clock⟩ := by
  subst same
  exact .verified (Coordinator.runs_verify state issuing here named (current _ _ here)
    (inTime_of_current current))

theorem Run.pass (run : Run keys punctual f events ⟨members, .memory s now, clock⟩)
    (le : now.nanos ≤ later.nanos)
    (inTime : InTime keys (watched punctual members) (.memory s now) (.memory s later)) :
    Run keys punctual f (events ++ [.passed]) ⟨members, .memory s later, clock⟩ :=
  run.step (.passed (.passes .refl (.memory le) inTime)) inTime

theorem Run.make {g : Locked} {id : Id} {reading : UInt64}
    (run : Run keys punctual f events ⟨members, .memory s now, clock⟩)
    (issuing : (members i).issuing = true) (generator : (members i).generator = some g)
    (healthy : g.poisoned = false) (le : clock ≤ reading)
    (advanced : Generator.advance g.epoch g.last reading = .ok (some id))
    (onTime : OnTime keys punctual
      ⟨Function.update members i { members i with generator := some { g with last := id } },
        .memory s now, reading⟩) :
    Run keys punctual f (events ++ [.made i (some (.value id)) reading])
      ⟨Function.update members i { members i with generator := some { g with last := id } },
        .memory s now, reading⟩ := by
  have next := Coordinator.runs_next issuing generator healthy le advanced
  exact run.step (.made next) onTime

end Fleet

end SlotLease
