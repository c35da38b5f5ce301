import SlotLease.Generator.Basic
import SlotLease.Proofs.Id

namespace SlotLease

theorem Slot.check_of_inRange {slot : Slot} (inRange : slot.InRange) : slot.check = .ok () := by
  have datacenter : ¬ Id.maxDatacenter < slot.datacenter := UInt64.not_lt.2 inRange.1
  have worker : ¬ Id.maxWorker < slot.worker := UInt64.not_lt.2 inRange.2
  rw [check, outOfRange?, if_neg datacenter, if_neg worker]

theorem Slot.inRange_of_check {slot : Slot} (checked : slot.check = .ok ()) : slot.InRange := by
  rw [check, outOfRange?] at checked
  by_cases datacenter : Id.maxDatacenter < slot.datacenter
  · rw [if_pos datacenter] at checked
    cases checked
  · by_cases worker : Id.maxWorker < slot.worker
    · rw [if_neg datacenter, if_pos worker] at checked
      cases checked
    · exact ⟨UInt64.not_lt.1 datacenter, UInt64.not_lt.1 worker⟩

def Id.rank (id : Id) : Nat := id.timestamp.toNat * 4096 + id.sequence.toNat

theorem Id.sequence_lt (id : Id) : id.sequence.toNat < 4096 := by
  rw [Id.toNat_sequence]
  omega

theorem Id.raw_lt_of_rank_lt {id id' : Id} (valid : id.isValid = true) (valid' : id'.isValid = true)
    (slot : Slot.ofId id = Slot.ofId id') (earlier : id.rank < id'.rank) : id.raw < id'.raw := by
  have datacenter : id.datacenter = id'.datacenter := congrArg Slot.datacenter slot
  have worker : id.worker = id'.worker := congrArg Slot.worker slot
  have order : id.timestamp.toNat < id'.timestamp.toNat ∨
      id.timestamp.toNat = id'.timestamp.toNat ∧ id.sequence.toNat < id'.sequence.toNat := by
    have low := id.sequence_lt
    have high := id'.sequence_lt
    rw [rank, rank] at earlier
    omega
  rw [UInt64.lt_iff_toNat_lt, Id.toNat_raw valid, Id.toNat_raw valid', datacenter, worker]
  have fits := id.sequence_lt
  omega

namespace Generator

variable {epoch now : UInt64} {last id : Id} {slot : Slot}

def advance (epoch : UInt64) (last : Id) (now : UInt64) : Except Error (Option Id) := do
  let offset ← offset epoch now
  if offset = last.timestamp then
    return if last.hasRoom then some last.increment else none
  else if last.timestamp < offset then
    return some (last.rollover offset)
  else
    .error (.clockRegression (last.timestamp + epoch) (offset + epoch))

theorem compare_eq_advance {α : Type} (fail : Error → α) (wait : α) (ready : Id → α) :
    (match offset epoch now with
      | .error e => fail e
      | .ok offset =>
        match compare offset last.timestamp with
        | .eq => if last.hasRoom then ready last.increment else wait
        | .gt => ready (last.rollover offset)
        | .lt => fail (.clockRegression (last.timestamp + epoch) (offset + epoch))) =
      match advance epoch last now with
      | .error e => fail e
      | .ok none => wait
      | .ok (some id) => ready id := by
  rw [advance]
  cases offset epoch now with
  | error e => rfl
  | ok offset =>
    have order : compare offset last.timestamp = if offset < last.timestamp then .lt
      else if offset = last.timestamp then .eq else .gt := rfl
    simp only [bind, Except.bind]
    by_cases same : offset = last.timestamp
    · have equal : compare offset last.timestamp = .eq := by
        rw [order, if_neg (same ▸ UInt64.lt_irrefl _), if_pos same]
      simp only [equal, if_pos same]
      cases last.hasRoom <;> rfl
    · by_cases later : last.timestamp < offset
      · have greater : compare offset last.timestamp = .gt := by
          rw [order, if_neg (UInt64.lt_asymm later), if_neg same]
        simp only [greater, if_neg same, if_pos later]
        rfl
      · have less : compare offset last.timestamp = .lt := by
          rw [order, if_pos (UInt64.lt_of_le_of_ne (UInt64.not_lt.1 later) same)]
        simp only [less, if_neg same, if_neg later]

/-- The first id of a slot in a millisecond after the epoch. In that of the epoch itself, the id of
sequence 0 is never given out. -/
def opening (slot : Slot) (offset : UInt64) : Id :=
  .pack offset slot.datacenter slot.worker (if offset = 0 then 1 else 0)

inductive Advances (epoch : UInt64) (last : Id) (now : UInt64) : Except Error (Option Id) → Prop
  | early : now < epoch → Advances epoch last now (.error (.clockBeforeEpoch now epoch))
  | beyond : epoch ≤ now → Id.maxTimestamp < now - epoch →
      Advances epoch last now (.error (.timestampOverflow (now - epoch)))
  | behind : epoch ≤ now → now - epoch < last.timestamp →
      Advances epoch last now (.error (.clockRegression (last.timestamp + epoch) now))
  | spent : epoch ≤ now → now - epoch = last.timestamp → last.hasRoom = false →
      Advances epoch last now (.ok none)
  | again : epoch ≤ now → now - epoch = last.timestamp → last.hasRoom = true →
      Advances epoch last now (.ok (some last.increment))
  | later : epoch ≤ now → now - epoch ≤ Id.maxTimestamp → last.timestamp < now - epoch →
      Advances epoch last now (.ok (some (last.rollover (now - epoch))))

theorem advances (epoch : UInt64) (last : Id) (now : UInt64) :
    Advances epoch last now (advance epoch last now) := by
  rw [advance, offset]
  by_cases early : now < epoch
  · rw [if_pos early]
    exact .early early
  have since := UInt64.not_lt.1 early
  rw [if_neg early]
  by_cases beyond : Id.maxTimestamp < now - epoch
  · rw [if_pos beyond]
    exact .beyond since beyond
  rw [if_neg beyond]
  simp only [bind, Except.bind, pure, Except.pure, UInt64.sub_add_cancel]
  split
  · rename_i same
    cases room : last.hasRoom with
    | true => exact .again since same room
    | false => exact .spent since same room
  · rename_i other
    split
    · rename_i later
      exact .later since (UInt64.not_lt.1 beyond) later
    · rename_i notLater
      exact .behind since (UInt64.lt_of_le_of_ne (UInt64.not_lt.1 notLater) other)

theorem advance_cases (h : advance epoch last now = .ok (some id)) :
    epoch ≤ now ∧ now - epoch ≤ Id.maxTimestamp ∧
      (now - epoch = last.timestamp ∧ last.hasRoom = true ∧ id = last.increment ∨
        last.timestamp < now - epoch ∧ id = last.rollover (now - epoch)) := by
  have way := advances epoch last now
  rw [h] at way
  cases way with
  | again since same room => exact ⟨since, same ▸ last.timestamp_le, .inl ⟨same, room, rfl⟩⟩
  | later since fits later => exact ⟨since, fits, .inr ⟨later, rfl⟩⟩

theorem timestamp_of_advance (h : advance epoch last now = .ok (some id)) :
    id.timestamp = now - epoch := by
  obtain ⟨_, fits, ⟨same, _, rfl⟩ | ⟨_, rfl⟩⟩ := advance_cases h
  · rw [same]
    exact Id.timestamp_pack last.timestamp_le
  · exact Id.timestamp_pack fits

theorem slot_of_advance (h : advance epoch last now = .ok (some id)) :
    Slot.ofId id = Slot.ofId last := by
  obtain ⟨_, _, ⟨_, _, rfl⟩ | ⟨_, rfl⟩⟩ := advance_cases h
  · exact Id.slot_pack last.datacenter_le last.worker_le
  · exact Id.slot_pack last.datacenter_le last.worker_le

theorem Id.sequence_increment {id : Id} (room : id.hasRoom = true) :
    id.increment.sequence.toNat = id.sequence.toNat + 1 := by
  have room : id.sequence.toNat < 4095 := UInt64.lt_iff_toNat_lt.1 (of_decide_eq_true room)
  have next : (id.sequence + 1).toNat = id.sequence.toNat + 1 := by
    rw [UInt64.toNat_add]
    show (id.sequence.toNat + 1) % 2 ^ 64 = _
    omega
  rw [Id.increment, Id.sequence_pack, next]
  rw [UInt64.le_iff_toNat_le, next]
  exact room

theorem sequence_of_advance (h : advance epoch last now = .ok (some id)) :
    id.timestamp = last.timestamp ∧ id.sequence.toNat = last.sequence.toNat + 1 ∨
      last.timestamp < id.timestamp ∧ id.sequence.toNat = 0 := by
  rw [timestamp_of_advance h]
  obtain ⟨_, _, ⟨same, room, rfl⟩ | ⟨later, rfl⟩⟩ := advance_cases h
  · exact .inl ⟨same, Id.sequence_increment room⟩
  · exact .inr ⟨later, congrArg UInt64.toNat (Id.sequence_pack (by decide))⟩

theorem rank_lt_of_advance (h : advance epoch last now = .ok (some id)) : last.rank < id.rank := by
  rw [Id.rank, Id.rank]
  rcases sequence_of_advance h with ⟨same, next⟩ | ⟨later, _⟩
  · rw [same, next]
    omega
  · have later := UInt64.lt_iff_toNat_lt.1 later
    have := last.sequence_lt
    omega

theorem eq_opening_of_lt (h : advance epoch last now = .ok (some id))
    (later : last.timestamp < now - epoch) : id = opening (Slot.ofId last) (now - epoch) := by
  obtain ⟨_, _, ⟨same, _, _⟩ | ⟨_, rfl⟩⟩ := advance_cases h
  · rw [same] at later
    exact absurd later (UInt64.lt_irrefl _)
  · have after : now - epoch ≠ 0 := by
      intro zero
      rw [zero] at later
      exact absurd later UInt64.not_lt_zero
    rw [opening, if_neg after]
    rfl

theorem eq_opening_of_first (inRange : slot.InRange)
    (h : advance epoch (first slot) now = .ok (some id)) : id = opening slot (now - epoch) := by
  have timestamp : (first slot).timestamp = 0 := Id.timestamp_pack (by decide)
  have same : Slot.ofId (first slot) = slot := Id.slot_pack inRange.1 inRange.2
  obtain ⟨_, _, ⟨zero, _, rfl⟩ | ⟨later, _⟩⟩ := advance_cases h
  · rw [zero, timestamp, opening, if_pos rfl, Id.increment, timestamp]
    have sequence : (first slot).sequence = 0 := Id.sequence_pack (by decide)
    have datacenter : (first slot).datacenter = slot.datacenter := congrArg Slot.datacenter same
    have worker : (first slot).worker = slot.worker := congrArg Slot.worker same
    rw [sequence, datacenter, worker]
    rfl
  · rw [eq_opening_of_lt h later, same]

theorem isValid_of_advance (h : advance epoch last now = .ok (some id)) : id.isValid = true := by
  obtain ⟨_, _, ⟨_, _, rfl⟩ | ⟨_, rfl⟩⟩ := advance_cases h
  · exact Id.isValid_pack ..
  · exact Id.isValid_pack ..

theorem raw_lt_of_advance (valid : last.isValid = true)
    (h : advance epoch last now = .ok (some id)) : last.raw < id.raw :=
  Id.raw_lt_of_rank_lt valid (isValid_of_advance h) (slot_of_advance h).symm (rank_lt_of_advance h)

theorem advance_regression {before after : UInt64}
    (h : advance epoch last now = .error (.clockRegression before after)) :
    epoch ≤ now ∧ now - epoch < last.timestamp ∧ before = last.timestamp + epoch ∧ after = now := by
  have way := advances epoch last now
  rw [h] at way
  cases way with
  | behind since back => exact ⟨since, back, rfl, rfl⟩

theorem advance_within (since : epoch ≤ now) (same : now - epoch = last.timestamp) :
    advance epoch last now = .ok (if last.hasRoom then some last.increment else none) := by
  have way := advances epoch last now
  generalize advance epoch last now = outcome at way ⊢
  cases way with
  | early early => exact absurd early (UInt64.not_lt.2 since)
  | beyond _ beyond => exact absurd beyond (UInt64.not_lt.2 (same ▸ last.timestamp_le))
  | behind _ back => exact absurd same (UInt64.ne_of_lt back)
  | spent _ _ full => rw [full]; rfl
  | again _ _ room => rw [room]; rfl
  | later _ _ later => exact absurd same.symm (UInt64.ne_of_lt later)

theorem advance_eq_none_iff : advance epoch last now = .ok none ↔
    epoch ≤ now ∧ now - epoch = last.timestamp ∧ last.sequence = Id.maxSequence := by
  have full : last.hasRoom = false ↔ last.sequence = Id.maxSequence := by
    have fits := last.sequence_lt
    rw [Id.hasRoom, decide_eq_false_iff_not, UInt64.lt_iff_toNat_lt, ← UInt64.toNat_inj]
    show ¬ last.sequence.toNat < 4095 ↔ last.sequence.toNat = 4095
    omega
  rw [← full]
  constructor
  · intro h
    have way := advances epoch last now
    rw [h] at way
    cases way with
    | spent since same full => exact ⟨since, same, full⟩
  · rintro ⟨since, same, full⟩
    rw [advance_within since same, full]
    rfl

end Generator

end SlotLease
