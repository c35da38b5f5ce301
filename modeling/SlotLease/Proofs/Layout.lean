import Mathlib.Data.Prod.Lex
import SlotLease.Proofs.Generator.Basic

/-!
The layout of ids as an isomorphism of orders. The fields of an id can be read back from it and a
valid id is made up of its fields; ids are ordered as words, signed or not, as their fields are
lexicographically. So both ways to a next id lead to a greater one.
-/

namespace SlotLease.Id

structure Fields where
  timestamp : UInt64
  datacenter : UInt64
  worker : UInt64
  sequence : UInt64
deriving DecidableEq, Repr

namespace Fields

def pack (f : Fields) : Id := Id.pack f.timestamp f.datacenter f.worker f.sequence

structure Fits (f : Fields) : Prop where
  timestamp : f.timestamp ≤ maxTimestamp
  datacenter : f.datacenter ≤ maxDatacenter
  worker : f.worker ≤ maxWorker
  sequence : f.sequence ≤ maxSequence

def key (f : Fields) : UInt64 ×ₗ UInt64 ×ₗ UInt64 ×ₗ UInt64 :=
  toLex (f.timestamp, toLex (f.datacenter, toLex (f.worker, f.sequence)))

end Fields

def fields (id : Id) : Fields := ⟨id.timestamp, id.datacenter, id.worker, id.sequence⟩

structure Fields.Cut (f cut : Fields) : Prop where
  timestamp : cut.timestamp.toNat = f.timestamp.toNat % 2 ^ timestampBits
  datacenter : cut.datacenter.toNat = f.datacenter.toNat % 2 ^ datacenterBits
  worker : cut.worker.toNat = f.worker.toNat % 2 ^ workerBits
  sequence : cut.sequence.toNat = f.sequence.toNat % 2 ^ sequenceBits

theorem fields_fits (id : Id) : id.fields.Fits where
  timestamp := id.timestamp_le
  datacenter := id.datacenter_le
  worker := id.worker_le
  sequence := by
    have := id.sequence_lt
    exact UInt64.le_iff_toNat_le.2 (Nat.le_of_lt_succ this)

variable {f g : Fields} {id : Id}

theorem Fields.isValid_pack (f : Fields) : f.pack.isValid = true := Id.isValid_pack ..

theorem Fields.cut_fields (f : Fields) : f.Cut f.pack.fields := by
  have sum : f.pack.raw.toNat = _ := toNat_pack f.timestamp f.datacenter f.worker f.sequence
  refine ⟨?_, ?_, ?_, ?_⟩
  · show f.pack.timestamp.toNat = f.timestamp.toNat % 2 ^ 41
    rw [toNat_timestamp, sum]
    omega
  · show f.pack.datacenter.toNat = f.datacenter.toNat % 2 ^ 5
    rw [toNat_datacenter, sum]
    omega
  · show f.pack.worker.toNat = f.worker.toNat % 2 ^ 5
    rw [toNat_worker, sum]
    omega
  · show f.pack.sequence.toNat = f.sequence.toNat % 2 ^ 12
    rw [toNat_sequence, sum]
    omega

theorem Fields.Fits.fields_pack (fits : f.Fits) : f.pack.fields = f := by
  simp only [fields, pack, timestamp_pack fits.timestamp, datacenter_pack fits.datacenter,
    worker_pack fits.worker, sequence_pack fits.sequence]

theorem pack_fields (valid : id.isValid = true) : id.fields.pack = id := by
  have same : id.fields.pack.fields = id.fields := id.fields_fits.fields_pack
  have timestamp : id.fields.pack.timestamp = id.timestamp := congrArg Fields.timestamp same
  have datacenter : id.fields.pack.datacenter = id.datacenter := congrArg Fields.datacenter same
  have worker : id.fields.pack.worker = id.worker := congrArg Fields.worker same
  have sequence : id.fields.pack.sequence = id.sequence := congrArg Fields.sequence same
  have raw : id.fields.pack.raw = id.raw := by
    rw [← UInt64.toNat_inj, toNat_raw valid, toNat_raw id.fields.isValid_pack, timestamp,
      datacenter, worker, sequence]
  exact congrArg Id.mk raw

theorem Fields.key_lt_iff : f.key < g.key ↔
    f.timestamp < g.timestamp ∨ f.timestamp = g.timestamp ∧ (f.datacenter < g.datacenter ∨
      f.datacenter = g.datacenter ∧ (f.worker < g.worker ∨
        f.worker = g.worker ∧ f.sequence < g.sequence)) := by
  simp only [key, Prod.Lex.toLex_lt_toLex]

theorem raw_lt_iff {id' : Id} (valid : id.isValid = true) (valid' : id'.isValid = true) :
    id.raw < id'.raw ↔ id.fields.key < id'.fields.key := by
  have fits := id.fields_fits
  have fits' := id'.fields_fits
  have bounds : ∀ {f : Fields}, f.Fits →
      f.datacenter.toNat < 32 ∧ f.worker.toNat < 32 ∧ f.sequence.toNat < 4096 := fun fits =>
    ⟨Nat.lt_succ_of_le (UInt64.le_iff_toNat_le.1 fits.datacenter),
      Nat.lt_succ_of_le (UInt64.le_iff_toNat_le.1 fits.worker),
      Nat.lt_succ_of_le (UInt64.le_iff_toNat_le.1 fits.sequence)⟩
  have := bounds fits
  have := bounds fits'
  rw [UInt64.lt_iff_toNat_lt, toNat_raw valid, toNat_raw valid', Fields.key_lt_iff]
  simp only [UInt64.lt_iff_toNat_lt, ← UInt64.toNat_inj, fields] at *
  omega

theorem Fields.Fits.raw_lt_iff (fits : f.Fits) (fits' : g.Fits) :
    f.pack.raw < g.pack.raw ↔ f.key < g.key := by
  rw [Id.raw_lt_iff f.isValid_pack g.isValid_pack, fits.fields_pack, fits'.fields_pack]

structure Precedes (id id' : Id) : Prop where
  raw : id.raw < id'.raw
  signed : id.toInt64 < id'.toInt64
  slot : Slot.ofId id' = Slot.ofId id

theorem Precedes.of_raw_lt {id' : Id} (valid : id.isValid = true) (valid' : id'.isValid = true)
    (raw : id.raw < id'.raw) (slot : Slot.ofId id' = Slot.ofId id) : id.Precedes id' :=
  ⟨raw, (toInt64_lt_iff valid valid').2 raw, slot⟩

theorem precedes_increment (valid : id.isValid = true) (room : id.hasRoom = true) :
    id.Precedes id.increment := by
  have slot : Slot.ofId id.increment = Slot.ofId id := slot_pack id.datacenter_le id.worker_le
  have timestamp : id.increment.timestamp = id.timestamp := timestamp_pack id.timestamp_le
  have rank : id.rank < id.increment.rank := by
    rw [rank, rank, timestamp, Generator.Id.sequence_increment room]
    omega
  have valid' : id.increment.isValid = true := isValid_pack ..
  exact .of_raw_lt valid valid' (raw_lt_of_rank_lt valid valid' slot.symm rank) slot

theorem precedes_rollover {timestamp : UInt64} (valid : id.isValid = true)
    (fits : timestamp ≤ maxTimestamp) (later : id.timestamp < timestamp) :
    id.Precedes (id.rollover timestamp) := by
  have slot : Slot.ofId (id.rollover timestamp) = Slot.ofId id :=
    slot_pack id.datacenter_le id.worker_le
  have stamped : (id.rollover timestamp).timestamp = timestamp := timestamp_pack fits
  have valid' : (id.rollover timestamp).isValid = true := isValid_pack ..
  have later : id.fields.timestamp < (id.rollover timestamp).fields.timestamp := by
    rw [fields, fields, stamped]
    exact later
  exact .of_raw_lt valid valid'
    ((raw_lt_iff valid valid').2 (Fields.key_lt_iff.2 (.inl later))) slot

/-- Packing cuts the fields and gives a valid id; it is an isomorphism of orders from the fields
that fit to the valid ids; and the ways to a next id ascend within a slot. -/
theorem layout_isomorphism :
    (∀ f : Fields, f.pack.isValid = true ∧ f.Cut f.pack.fields) ∧
    (∀ id : Id, id.isValid = true → id.fields.pack = id) ∧
    (∀ f g : Fields, f.Fits → g.Fits →
      (f.pack.raw < g.pack.raw ↔ f.key < g.key) ∧
        (f.pack.toInt64 < g.pack.toInt64 ↔ f.key < g.key)) ∧
    (∀ id : Id, id.isValid = true → id.hasRoom = true → id.Precedes id.increment) ∧
    (∀ (id : Id) (timestamp : UInt64), id.isValid = true → timestamp ≤ maxTimestamp →
      id.timestamp < timestamp → id.Precedes (id.rollover timestamp)) := by
  refine ⟨fun f => ⟨f.isValid_pack, f.cut_fields⟩, fun _ valid => pack_fields valid,
    fun f g fits fits' => ?_, fun _ valid room => precedes_increment valid room,
    fun _ _ valid fits later => precedes_rollover valid fits later⟩
  have order := fits.raw_lt_iff fits'
  exact ⟨order, (toInt64_lt_iff f.isValid_pack g.isValid_pack).trans order⟩

theorem layout_isomorphism_at_the_last_number :
    let last : Fields := ⟨1000, maxDatacenter, maxWorker, maxSequence⟩
    last.pack.fields.pack = last.pack ∧
      last.pack.raw < (Fields.pack ⟨1001, 0, 0, 0⟩).raw ∧
      Precedes ⟨0x10⟩ (increment ⟨0x10⟩) ∧ last.pack.Precedes (last.pack.rollover 1001) := by
  intro last
  obtain ⟨packed, made, ordered, within, later⟩ := layout_isomorphism
  refine ⟨made _ (packed last).1, ?_, within _ (by decide) (by decide),
    later _ 1001 (packed last).1 (by decide) (by decide)⟩
  have fits : last.Fits := by constructor <;> decide
  have fits' : Fields.Fits ⟨1001, 0, 0, 0⟩ := by constructor <;> decide
  exact (ordered last _ fits fits').1.2 (Fields.key_lt_iff.2 (.inl (by decide)))

end SlotLease.Id
