import Mathlib.Data.List.Nodup
import Mathlib.Data.List.Pairwise
import SlotLease.Proofs.Fleet.Exclusion
import SlotLease.Proofs.Generator.Basic

namespace SlotLease.Fleet

open Interaction Lease

variable {ι : Type}

abbrev Event.issued (i : ι) (id : Id) (reading : UInt64) : Event ι :=
  .made i (some (.value id)) reading

def Event.id? : Event ι → Option Id
  | .made _ (some (.value id)) _ => some id
  | _ => none

def ids (events : List (Event ι)) : List Id := events.filterMap Event.id?

/-- A member takes the slot that another one gave back, and makes an id in a millisecond in which
the other made one. -/
def HandedOver (events : List (Event ι)) : Prop :=
  ∃ i j id id' reading result, i ≠ j ∧ Slot.ofId id = Slot.ofId id' ∧
    [.issued i id reading, .released i result, .acquired j (.ok (Slot.ofId id)),
      .issued j id' reading].Sublist events

theorem HandedOver.append {events : List (Event ι)} (h : HandedOver events) (event : Event ι) :
    HandedOver (events ++ [event]) := by
  obtain ⟨i, j, id, id', reading, result, other, same, order⟩ := h
  exact ⟨i, j, id, id', reading, result, other, same, order.trans (List.sublist_append_left ..)⟩

theorem mem_ids {events : List (Event ι)} {id : Id} :
    id ∈ ids events ↔ ∃ i reading, Event.issued i id reading ∈ events := by
  rw [ids, List.mem_filterMap]
  constructor
  · rintro ⟨event, mem, found⟩
    unfold Event.id? at found
    split at found
    · cases found
      exact ⟨_, _, mem⟩
    · cases found
  · rintro ⟨i, reading, mem⟩
    exact ⟨_, mem, rfl⟩

theorem issuer_unique {events : List (Event ι)} {id : Id} (unique : (ids events).Nodup)
    (mine : Event.issued i id reading ∈ events) (theirs : Event.issued j id reading' ∈ events) :
    i = j := by
  have pairwise := List.pairwise_filterMap.1 unique
  by_contra other
  have : Std.Symm fun a b : Event ι => ∀ id, a.id? = some id → ∀ id', b.id? = some id' → id ≠ id' :=
    ⟨fun a b h id found id' found' => (h id' found' id found).symm⟩
  exact pairwise.forall mine theirs (by rintro ⟨⟩; exact other rfl) id rfl id rfl rfl

structure Traced (epoch : UInt64) (events : List (Event ι)) (i : ι) (c : Coordinator) : Prop where
  sameEpoch : Generator.epochWord c.epoch = epoch
  idle : c.generator = none → ∀ id reading, Event.issued i id reading ∉ events
  last : ∀ g, c.generator = some g → g.epoch = epoch ∧ Slot.ofId g.last = g.slot ∧
    (g.last = Generator.first g.slot ∨ ∃ reading, Event.issued i g.last reading ∈ events)
  issued : ∀ g, c.generator = some g → ∀ id reading, Event.issued i id reading ∈ events →
    Slot.ofId id = g.slot ∧ epoch ≤ reading ∧ id.timestamp = reading - epoch ∧
      id.rank ≤ g.last.rank ∧
      Event.issued i (Generator.opening g.slot (reading - epoch)) reading ∈ events

variable {epoch : UInt64} {events : List (Event ι)} {i j : ι} {c c' : Coordinator}

theorem Traced.opening (h : Traced epoch events i c) {id : Id} {reading : UInt64}
    (mem : Event.issued i id reading ∈ events) :
    epoch ≤ reading ∧ id.timestamp = reading - epoch ∧
      Event.issued i (Generator.opening (Slot.ofId id) (reading - epoch)) reading ∈ events := by
  cases generator : c.generator with
  | none => exact absurd mem (h.idle generator id reading)
  | some g =>
    obtain ⟨slot, after, timestamp, _, opening⟩ := h.issued g generator id reading mem
    rw [slot]
    exact ⟨after, timestamp, opening⟩

theorem reading_unique {reading reading' : UInt64} (same : reading' - epoch = reading - epoch) :
    reading' = reading := by
  rw [← UInt64.sub_add_cancel reading' epoch, same, UInt64.sub_add_cancel]

theorem Traced.quiet (h : Traced epoch events i c) {event : Event ι}
    (quiet : ∀ id reading, event ≠ .issued i id reading) (same : c'.epoch = c.epoch)
    (generator : c'.generator = c.generator) : Traced epoch (events ++ [event]) i c' := by
  have old : ∀ {id reading}, Event.issued i id reading ∈ events ++ [event] ↔
      Event.issued i id reading ∈ events := by
    intro id reading
    rw [List.mem_append, List.mem_singleton]
    exact or_iff_left fun eq => quiet id reading eq.symm
  refine ⟨by rw [same, h.sameEpoch], fun none id reading => ?_, fun g found => ?_,
    fun g found id reading mem => ?_⟩
  · rw [old]
    exact h.idle (generator ▸ none) id reading
  · simp only [old]
    exact h.last g (generator ▸ found)
  · rw [old] at mem ⊢
    exact h.issued g (generator ▸ found) id reading mem

theorem Traced.poisoned (h : Traced epoch events i c) {g : Locked}
    (generator : c.generator = some g) {poisoned : Bool} :
    Traced epoch events i { c with generator := some { g with poisoned } } := by
  refine ⟨h.sameEpoch, (by rintro ⟨⟩), ?_, ?_⟩
  · rintro _ ⟨⟩
    exact h.last g generator
  · rintro _ ⟨⟩
    exact h.issued g generator

theorem Traced.holding (h : Traced epoch events i c) (fresh : c.generator = none) {slot : Slot}
    (inRange : slot.InRange) (result : Except Error Slot) :
    Traced epoch (events ++ [.acquired i result]) i (c.holding slot) := by
  have none : ∀ id reading, Event.issued i id reading ∉ events ++ [.acquired i result] := by
    intro id reading mem
    rw [List.mem_append, List.mem_singleton] at mem
    rcases mem with mem | eq
    · exact h.idle fresh id reading mem
    · cases eq
  refine ⟨h.sameEpoch, fun _ => none, ?_, ?_⟩
  · rintro g ⟨⟩
    exact ⟨h.sameEpoch, Id.slot_pack inRange.1 inRange.2, .inl rfl⟩
  · rintro g ⟨⟩ id reading mem
    exact absurd mem (none id reading)

theorem Traced.make (h : Traced epoch events i c) {g : Locked} {id : Id} {reading : UInt64}
    (generator : c.generator = some g) (inRange : g.slot.InRange)
    (advanced : Generator.advance g.epoch g.last reading = .ok (some id)) :
    Traced epoch (events ++ [.issued i id reading]) i
      { c with generator := some { g with last := id } } := by
  obtain ⟨same, slot, origin⟩ := h.last g generator
  rw [same] at advanced
  obtain ⟨after, _, _⟩ := Generator.advance_cases advanced
  have timestamp := Generator.timestamp_of_advance advanced
  have slot' : Slot.ofId id = g.slot := (Generator.slot_of_advance advanced).trans slot
  have rank := Generator.rank_lt_of_advance advanced
  refine ⟨h.sameEpoch, (by rintro ⟨⟩), ?_, ?_⟩
  · rintro _ ⟨⟩
    exact ⟨same, slot', .inr ⟨reading, List.mem_append_right _ List.mem_cons_self⟩⟩
  · rintro _ ⟨⟩ id' reading' mem
    rw [List.mem_append, List.mem_singleton] at mem
    rcases mem with mem | eq
    · obtain ⟨slot', after', timestamp', rank', opening⟩ := h.issued g generator id' reading' mem
      exact ⟨slot', after', timestamp', Nat.le_of_lt (Nat.lt_of_le_of_lt rank' rank),
        List.mem_append_left _ opening⟩
    · cases eq
      refine ⟨slot', after, timestamp, Nat.le_refl _, ?_⟩
      -- the first id of the millisecond is this one, or it was made before the last one
      obtain ⟨_, _, ⟨within, _, _⟩ | ⟨later, _⟩⟩ := Generator.advance_cases advanced
      · rcases origin with first | ⟨reading', mem⟩
        · rw [first] at advanced
          rw [← Generator.eq_opening_of_first inRange advanced]
          exact List.mem_append_right _ List.mem_cons_self
        · obtain ⟨_, _, timestamp', _, opening⟩ := h.issued g generator g.last reading' mem
          obtain rfl := reading_unique (timestamp'.symm.trans within.symm)
          exact List.mem_append_left _ opening
      · rw [← slot, ← Generator.eq_opening_of_lt advanced later]
        exact List.mem_append_right _ List.mem_cons_self

structure Recorded (epoch : UInt64) (events : List (Event ι)) (members : ι → Coordinator) : Prop
    where
  traced : ∀ i, Traced epoch events i (members i)
  released : ∀ i id reading, Event.issued i id reading ∈ events →
    (members i).state ≠ .bound (Slot.ofId id) →
      ∃ result, [.issued i id reading, .released i result].Sublist events
  taken : ∀ i j id reading, i ≠ j → Event.issued i id reading ∈ events →
    (members j).state = .bound (Slot.ofId id) →
      ∃ result, [.issued i id reading, .released i result,
        .acquired j (.ok (Slot.ofId id))].Sublist events
  unique : (ids events).Nodup ∨ HandedOver events

variable {f f' : Fleet ι} {members members' : ι → Coordinator} {event : Event ι}

theorem Initial.recorded {keys : KeySpace} (h : f.Initial keys)
    (sameEpoch : ∀ i, Generator.epochWord (f.members i).epoch = epoch) :
    Recorded epoch [] f.members where
  traced i := by
    have generator := (h.fresh i).generator
    refine ⟨sameEpoch i, fun _ _ _ => List.not_mem_nil, ?_, ?_⟩
    · intro g found
      rw [generator] at found
      cases found
    · intro g found
      rw [generator] at found
      cases found
  released _ _ _ mem := nomatch mem
  taken _ _ _ _ _ mem := nomatch mem
  unique := .inl List.nodup_nil

theorem ids_quiet (quiet : ∀ i id reading, event ≠ .issued i id reading) :
    ids (events ++ [event]) = ids events := by
  have none : event.id? = none := by
    unfold Event.id?
    split
    · exact absurd rfl (quiet _ _ _)
    · rfl
  simp [ids, none]

theorem mem_quiet (quiet : ∀ i id reading, event ≠ .issued i id reading) {id : Id}
    {reading : UInt64} (mem : Event.issued i id reading ∈ events ++ [event]) :
    Event.issued i id reading ∈ events := by
  rw [List.mem_append, List.mem_singleton] at mem
  exact mem.resolve_right fun eq => quiet i id reading eq.symm

theorem sublist_append_event {before : List (Event ι)} (h : before.Sublist events) :
    before.Sublist (events ++ [event]) := h.trans (List.sublist_append_left ..)

theorem Recorded.quiet (h : Recorded epoch events members)
    (quiet : ∀ i id reading, event ≠ .issued i id reading)
    (kept : ∀ i, (members' i).epoch = (members i).epoch ∧
      (members' i).generator = (members i).generator)
    (left : ∀ i slot, (members i).state = .bound slot →
      (members' i).state = .bound slot ∨ ∃ result, event = .released i result)
    (entered : ∀ i slot, (members' i).state = .bound slot → (members i).state = .bound slot) :
    Recorded epoch (events ++ [event]) members' where
  traced i := (h.traced i).quiet (quiet i) (kept i).1 (kept i).2
  released i id reading mem free := by
    have before := mem_quiet quiet mem
    by_cases held : (members i).state = .bound (Slot.ofId id)
    · obtain still | ⟨result, rfl⟩ := left i _ held
      · exact absurd still free
      · exact ⟨result, (List.singleton_sublist.2 before).append (.refl _)⟩
    · obtain ⟨result, order⟩ := h.released i id reading before held
      exact ⟨result, sublist_append_event order⟩
  taken i j id reading other mem held := by
    obtain ⟨result, order⟩ :=
      h.taken i j id reading other (mem_quiet quiet mem) (entered j _ held)
    exact ⟨result, sublist_append_event order⟩
  unique := by
    rw [ids_quiet quiet]
    exact h.unique.imp_right fun handed => handed.append event

theorem Recorded.unchanged (h : Recorded epoch events members)
    (quiet : ∀ i id reading, event ≠ .issued i id reading) :
    Recorded epoch (events ++ [event]) members :=
  h.quiet quiet (fun _ => ⟨rfl, rfl⟩) (fun _ _ held => .inl held) fun _ _ held => held

theorem Recorded.again (h : Recorded epoch events members) {g : Locked} {id : Id}
    {reading : UInt64} (state : (members i).state = .bound g.slot)
    (generator : (members i).generator = some g)
    (advanced : Generator.advance g.epoch g.last reading = .ok (some id))
    (again : id ∈ ids events) : HandedOver (events ++ [.issued i id reading]) := by
  obtain ⟨j, reading', before⟩ := mem_ids.1 again
  obtain ⟨sameEpoch, slot, _⟩ := (h.traced i).last g generator
  rw [← slot, ← Generator.slot_of_advance advanced] at state
  have own : j ≠ i := by
    -- the ids of one generator ascend
    rintro rfl
    obtain ⟨_, _, _, rank, _⟩ := (h.traced j).issued g generator id reading' before
    exact absurd (Generator.rank_lt_of_advance advanced) (Nat.not_lt.2 rank)
  obtain ⟨result, order⟩ := h.taken j i id reading' own before state
  obtain ⟨_, timestamp, _⟩ := (h.traced j).opening before
  rw [sameEpoch] at advanced
  obtain rfl := reading_unique (timestamp.symm.trans (Generator.timestamp_of_advance advanced))
  exact ⟨j, i, id, id, reading', result, own, rfl, order.append (.refl [_])⟩

variable [DecidableEq ι] {keys : KeySpace} {bound : Slot → Prop} {σ : SharedStore}

theorem put_generator_state (f : Fleet ι) (i : ι) (g : Option Locked) (σ : SharedStore) (j : ι) :
    ((f.put i { f.members i with generator := g } σ).members j).state = (f.members j).state :=
  put_state (by rfl) j

theorem Recorded.poisoning (h : Recorded epoch events f.members) {g : Locked}
    (generator : (f.members i).generator = some g) (poisoned : Bool) (σ : SharedStore) :
    Recorded epoch events
      (f.put i { f.members i with generator := some { g with poisoned } } σ).members where
  traced j := by
    by_cases other : j = i
    · subst other
      rw [put_members_self]
      exact (h.traced j).poisoned generator
    · rw [put_members_other _ _ _ other]
      exact h.traced j
  released j id reading mem free := by
    rw [put_generator_state] at free
    exact h.released j id reading mem free
  taken j k id reading other mem held := by
    rw [put_generator_state] at held
    exact h.taken j k id reading other mem held
  unique := h.unique

theorem Recorded.taking (h : Recorded epoch events f.members) {slot : Slot}
    (fresh : (f.members i).generator = none) (inRange : slot.InRange)
    (distinct : ∀ j, j ≠ i → (f.members j).state ≠ .bound slot) (σ : SharedStore) :
    Recorded epoch (events ++ [.acquired i (.ok slot)])
      (f.put i ((f.members i).holding slot) σ).members where
  traced j := by
    by_cases other : j = i
    · subst other
      rw [put_members_self]
      exact (h.traced j).holding fresh inRange _
    · rw [put_members_other _ _ _ other]
      exact (h.traced j).quiet (by rintro id reading ⟨⟩) rfl rfl
  released j id reading mem free := by
    have before := mem_quiet (by rintro _ _ _ ⟨⟩) mem
    have other : j ≠ i := by
      rintro rfl
      exact (h.traced j).idle fresh id reading before
    rw [put_members_other _ _ _ other] at free
    obtain ⟨result, order⟩ := h.released j id reading before free
    exact ⟨result, sublist_append_event order⟩
  taken j k id reading other mem held := by
    have before := mem_quiet (by rintro _ _ _ ⟨⟩) mem
    by_cases new : k = i
    · subst new
      rw [put_members_self] at held
      cases held
      obtain ⟨result, order⟩ := h.released j id reading before (distinct j other)
      exact ⟨result, order.append (.refl [_])⟩
    · rw [put_members_other _ _ _ new] at held
      obtain ⟨result, order⟩ := h.taken j k id reading other before held
      exact ⟨result, sublist_append_event order⟩
  unique := by
    rw [ids_quiet (by rintro _ _ _ ⟨⟩)]
    exact h.unique.imp_right fun handed => handed.append _

theorem Recorded.making (h : Recorded epoch events f.members) {g : Locked} {id : Id}
    {reading : UInt64} (state : (f.members i).state = .bound g.slot)
    (generator : (f.members i).generator = some g) (inRange : g.slot.InRange)
    (distinct : ∀ j, (f.members j).state = .bound g.slot → i = j)
    (advanced : Generator.advance g.epoch g.last reading = .ok (some id)) (σ : SharedStore) :
    Recorded epoch (events ++ [.issued i id reading])
      (f.put i { f.members i with generator := some { g with last := id } } σ).members := by
  obtain ⟨sameEpoch, slot, _⟩ := (h.traced i).last g generator
  have named : Slot.ofId id = g.slot := (Generator.slot_of_advance advanced).trans slot
  refine ⟨fun j => ?_, fun j id' reading' mem free => ?_, fun j k id' reading' other mem held => ?_,
    ?_⟩
  · by_cases other : j = i
    · subst other
      rw [put_members_self]
      exact (h.traced j).make generator inRange advanced
    · rw [put_members_other _ _ _ other]
      refine (h.traced j).quiet ?_ rfl rfl
      rintro _ _ ⟨⟩
      exact other rfl
  · rw [put_generator_state] at free
    rw [List.mem_append, List.mem_singleton] at mem
    rcases mem with before | eq
    · obtain ⟨result, order⟩ := h.released j id' reading' before free
      exact ⟨result, sublist_append_event order⟩
    · cases eq
      rw [named] at free
      exact absurd state free
  · rw [put_generator_state] at held
    rw [List.mem_append, List.mem_singleton] at mem
    rcases mem with before | eq
    · obtain ⟨result, order⟩ := h.taken j k id' reading' other before held
      exact ⟨result, sublist_append_event order⟩
    · cases eq
      rw [named] at held
      exact absurd (distinct k held) other
  · rcases h.unique with unique | handed
    · -- only a handover makes an id come again
      by_cases again : id ∈ ids events
      · exact .inr (h.again state generator advanced again)
      · left
        have made : ids (events ++ [.issued i id reading]) = ids events ++ [id] :=
          List.filterMap_append
        rw [made, ← List.concat_eq_append, List.nodup_concat]
        exact ⟨again, unique⟩
    · exact .inr (handed.append _)

theorem Recorded.releases (h : Recorded epoch events f.members)
    (releases : (f.members i).Releases bound f.store result c σ) :
    Recorded epoch (events ++ [.released i result]) (f.put i c σ).members := by
  have quiet : ∀ j id reading, Event.released i result ≠ .issued j id reading := by
    rintro _ _ _ ⟨⟩
  -- in every case the member is changed in its state alone, and does not take a slot
  have kept : c.epoch = (f.members i).epoch ∧ c.generator = (f.members i).generator := by
    cases releases <;> exact ⟨rfl, rfl⟩
  have entered : ∀ slot, c.state = .bound slot → (f.members i).state = .bound slot := by
    cases releases with
    | idle => exact fun _ held => held
    | _ => rintro _ ⟨⟩
  refine h.quiet quiet (fun j => ?_) (fun j slot held => ?_) fun j slot held => ?_
  · by_cases other : j = i
    · subst other
      rwa [put_members_self]
    · rw [put_members_other _ _ _ other]
      exact ⟨rfl, rfl⟩
  · by_cases other : j = i
    · subst other
      exact .inr ⟨result, rfl⟩
    · rw [put_members_other _ _ _ other]
      exact .inl held
  · by_cases other : j = i
    · subst other
      rw [put_members_self] at held
      exact entered slot held
    · rwa [put_members_other _ _ _ other] at held

theorem Step.recorded (step : Step keys True f event f') (onTime : OnTime keys True f')
    (sound : f.Sound keys) (leased : f.Leased keys) (h : Recorded epoch events f.members) :
    Recorded epoch (events ++ [event]) f'.members := by
  have leased' := step.leased onTime sound leased
  cases step with
  | @acquired i result c σ run =>
    have acquires := sound.acquires run
    cases acquires with
    | taken state inRange _ _ _ _ _ _ =>
      have fresh : (f.members i).generator = none := by
        simpa [state, LeaseState.slot?] using (sound.consistent i).generator
      refine h.taking fresh inRange (fun j other held => other ?_) σ
      refine leased'.distinct j i _ ?_ (by rw [put_members_self]; rfl)
      rwa [put_members_other _ _ _ other]
    | _ =>
      rw [put_same]
      exact h.unchanged (by rintro _ _ _ ⟨⟩)
  | @renewed i result c σ run =>
    cases sound.renews run with
    | lost state around gone =>
      rw [sound.keys i] at around gone
      exact absurd (leased.still_live sound state around) gone
    | _ =>
      rw [put_same]
      exact h.unchanged (by rintro _ _ _ ⟨⟩)
  | released run => exact h.releases (sound.releases run)
  | verified run => exact h.unchanged (by rintro _ _ _ ⟨⟩)
  | @made i spins result c later run =>
    cases run.ensured ((f.members i).next_ensures spins f.clock) with
    | idle none =>
      rw [put_same]
      exact h.unchanged fun _ id _ made => none id (Event.made.inj made).2.1
    | @asked g _ _ _ issuing generator makes =>
      cases makes with
      | failed _ none =>
        refine (h.poisoning generator _ f.store).unchanged fun _ id _ made => ?_
        exact none id (Event.made.inj made).2.1
      | made _ advanced =>
        have state := (sound.consistent i).bound_of_issuing issuing generator
        have inRange := (sound.watched i g.slot state).2.1
        exact h.making state generator inRange (leased.distinct i · g.slot state) advanced f.store
  | passed outside => exact h.unchanged (by rintro _ _ _ ⟨⟩)

theorem Run.recorded {f₀ : Fleet ι} (run : Run keys True f₀ events f) (initial : f₀.Initial keys)
    (sameEpoch : ∀ i, Generator.epochWord (f₀.members i).epoch = epoch) :
    Recorded epoch events f.members := by
  induction run with
  | start => exact initial.recorded sameEpoch
  | step before step onTime ih =>
    exact step.recorded onTime (before.sound initial.sound)
      (before.leased initial.sound initial.leased) ih

/-- The ids of a punctual fleet are different exactly if no slot is handed over within a
millisecond. -/
theorem nodup_ids_iff {f₀ : Fleet ι} {epoch : Duration} (initial : f₀.Initial keys)
    (sameEpoch : ∀ i, (f₀.members i).epoch = epoch) (run : Run keys True f₀ events f) :
    (ids events).Nodup ↔ ¬ HandedOver events := by
  have recorded : Recorded (Generator.epochWord epoch) events f.members :=
    run.recorded initial fun i => by rw [sameEpoch]
  constructor
  · rintro unique ⟨i, j, id, id', reading, result, other, slot, order⟩
    have mine : Event.issued i id reading ∈ events := order.subset (by simp)
    have theirs : Event.issued j id' reading ∈ events := order.subset (by simp)
    -- both made the first id of the millisecond
    obtain ⟨_, _, mine⟩ := (recorded.traced i).opening mine
    obtain ⟨_, _, theirs⟩ := (recorded.traced j).opening theirs
    rw [slot] at mine
    exact other (issuer_unique unique mine theirs)
  · exact recorded.unique.resolve_right

def repeatedId : Id := ⟨1934266310456246272⟩

def handover : List (Event Bool) :=
  [.acquired false (.ok ⟨0, 0⟩), .issued false repeatedId 1750000000000,
    .released false (.ok true), .acquired true (.ok ⟨0, 0⟩), .issued true repeatedId 1750000000000]

theorem run_handover : ∃ f, Run Coordinator.standard.keys True
    (standard Bool (.ofMillis 1750000000000)) handover f := by
  have first : Generator.advance (Generator.epochWord Coordinator.standard.epoch)
      (Generator.first ⟨0, 0⟩) 1750000000000 = .ok (some repeatedId) := by decide +kernel
  have live : MemoryStore.Entry.isLive ⟨Slot.toJson ⟨0, 0⟩,
      (Instant.ofMillis 1750000000000).add Coordinator.standard.leaseTtl⟩
      (.ofMillis 1750000000000) = true := by decide
  obtain ⟨s, only, run⟩ := (Run.standard Bool True (.ofMillis 1750000000000)).acquire
    (i := false) Coordinator.standard_fresh rfl (by rintro _ _ ⟨⟩) (by decide) (by decide)
    (inTime_of_none fun _ => rfl)
  have run := run.make (i := false) rfl rfl rfl (by decide) first (inTime_of_only only live)
  obtain ⟨s', none, run⟩ := run.release (i := false) rfl rfl only live
  have ended : ∀ key entry, s'.table.get? key = some entry →
      entry.isLive (.ofMillis 1750000000000) = false := by
    intro key entry found
    cases (none key).symm.trans found
  obtain ⟨s'', only, run⟩ := run.acquire (i := true) Coordinator.standard_fresh rfl ended
    (by decide) (by decide) (inTime_of_none none)
  have run := run.make (i := true) rfl rfl rfl (by decide) first (inTime_of_only only live)
  exact ⟨_, run⟩

theorem ids_handover : (∃ f, Run Coordinator.standard.keys True
    (standard Bool (.ofMillis 1750000000000)) handover f) ∧ ¬ (ids handover).Nodup :=
  ⟨run_handover, by decide⟩

theorem handedOver_handover : HandedOver handover := by
  obtain ⟨f, run⟩ := run_handover
  by_contra none
  have unique := (nodup_ids_iff (standard_initial _) (fun _ => rfl) run).2 none
  exact absurd unique (by decide)

end SlotLease.Fleet
