import SlotLease.Proofs.Fleet.Progress

namespace SlotLease.Fleet

open Interaction Lease

variable {ι : Type} {keys : KeySpace} {bound p : Slot → Prop} {f f' : Fleet ι} {i : ι}
  {σ : SharedStore}

structure Leased (keys : KeySpace) (f : Fleet ι) : Prop where
  held : ∀ i slot, (f.members i).state = .bound slot →
    ∃ e, f.store.shelf.entries (keys.leaseKey slot) = some e ∧
      f.store.shelf.now < e.deadline ∧ Slot.ofText? e.value = some slot
  distinct : ∀ i j slot, (f.members i).state = .bound slot → (f.members j).state = .bound slot →
    i = j

theorem Initial.leased (h : f.Initial keys) : f.Leased keys where
  held i slot state := by
    rw [(h.fresh i).state] at state
    cases state
  distinct i _ slot state := by
    rw [(h.fresh i).state] at state
    cases state

theorem Leased.around (h : f.Leased keys) (around : Around keys bound p f.store σ)
    {members : ι → Coordinator} (each : ∀ i slot, (members i).state = .bound slot →
      (f.members i).state = .bound slot ∧ p slot ∧ bound slot) (clock : UInt64) :
    Leased keys ⟨members, σ, clock⟩ where
  held i slot state := by
    obtain ⟨before, mem, watched⟩ := each i slot state
    obtain ⟨e, found, live, value⟩ := h.held i slot before
    obtain ⟨found, live⟩ := around.held slot mem watched e found live
    exact ⟨e, found, live, value⟩
  distinct i j slot state state' := h.distinct i j slot (each i slot state).1 (each j slot state').1

theorem Sound.watched (h : f.Sound keys) (i : ι) (slot : Slot)
    (state : (f.members i).state = .bound slot) :
    (f.members i).state = .bound slot ∧ slot.InRange ∧ Fleet.watched True f.members slot :=
  ⟨state, (h.consistent i).inRange slot (by rw [state]; rfl), trivial, i, state⟩

theorem Leased.outside (h : f.Leased keys) (sound : f.Sound keys)
    (around : Around keys (Fleet.watched True f.members) Slot.InRange f.store σ) :
    Leased keys { f with store := σ } :=
  h.around around sound.watched f.clock

theorem Leased.still_live (h : f.Leased keys) (sound : f.Sound keys) {slot : Slot}
    (state : (f.members i).state = .bound slot)
    (around : Around keys (Fleet.watched True f.members) Slot.InRange f.store σ) :
    σ.shelf.Live (keys.leaseKey slot) := by
  obtain ⟨e, found, live, _⟩ := (h.outside sound around).held i slot state
  exact ⟨e, found, live⟩

variable [DecidableEq ι] {c : Coordinator}

theorem Leased.acquires (h : f.Leased keys) (sound : f.Sound keys)
    (acquires : (f.members i).Acquires (Fleet.watched True f.members) f.store result c σ)
    (onTime : OnTime keys True (f.put i c σ)) : (f.put i c σ).Leased keys := by
  have same := sound.keys i
  cases acquires with
  | again =>
    rw [put_same]
    exact h
  | ended =>
    rw [put_same]
    exact h
  | failed _ around =>
    rw [same] at around
    rw [put_same]
    exact h.outside sound around
  | @taken slot σ₁ _ t _ inRange before free around _ _ entry =>
    rw [same] at before free around entry
    -- whoever holds a slot has a live lease on it, so nobody holds the one that was found free
    have others : ∀ j slot', (f.members j).state = .bound slot' → slot ≠ slot' := by
      rintro j slot' state rfl
      obtain ⟨_, inRange, watched⟩ := sound.watched j slot state
      obtain ⟨e, found, live, _⟩ := h.held j slot state
      exact free ⟨e, before.held slot inRange watched e found live⟩
    refine ⟨fun j slot' state => ?_, fun j j' slot' state state' => ?_⟩
    · rcases put_bound state with ⟨rfl, new⟩ | ⟨_, old⟩
      · cases new
        exact ⟨_, entry, onTime slot ⟨trivial, j, state⟩ _ entry, Slot.ofText?_toJson slot⟩
      · obtain ⟨_, inRange, watched⟩ := sound.watched j slot' old
        obtain ⟨e, found, live, value⟩ := h.held j slot' old
        obtain ⟨found, live⟩ := before.held slot' inRange watched e found live
        obtain ⟨found, live⟩ :=
          around.held slot' ⟨inRange, others j slot' old⟩ watched e found live
        exact ⟨e, found, live, value⟩
    · rcases put_bound state with ⟨rfl, new⟩ | ⟨_, old⟩
      · rcases put_bound state' with ⟨rfl, _⟩ | ⟨_, old'⟩
        · rfl
        · cases new
          exact absurd rfl (others j' slot old')
      · rcases put_bound state' with ⟨rfl, new⟩ | ⟨_, old'⟩
        · cases new
          exact absurd rfl (others j slot old)
        · exact h.distinct j j' slot' old old'

theorem Leased.renews (h : f.Leased keys) (sound : f.Sound keys)
    (renews : (f.members i).Renews (Fleet.watched True f.members) f.store result c σ)
    (onTime : OnTime keys True (f.put i c σ)) : (f.put i c σ).Leased keys := by
  have same := sound.keys i
  cases renews with
  | idle =>
    rw [put_same]
    exact h
  | failed _ around =>
    rw [same] at around
    rw [put_same]
    exact h.outside sound around
  | lost state around gone =>
    rw [same] at around gone
    exact absurd (h.still_live sound state around) gone
  | @renewed slot _ e t state around found live _ _ entry =>
    rw [same] at around found entry
    rw [put_same] at onTime ⊢
    refine ⟨fun j slot' state' => ?_, h.distinct⟩
    obtain ⟨_, inRange, watched⟩ := sound.watched j slot' state'
    obtain ⟨e', found', live', value⟩ := h.held j slot' state'
    by_cases eq : slot = slot'
    · subst eq
      rw [found] at found'
      cases found'
      exact ⟨_, entry, onTime slot watched _ entry, value⟩
    · obtain ⟨found', live'⟩ := around.held slot' ⟨inRange, eq⟩ watched e' found' live'
      exact ⟨e', found', live', value⟩

theorem Leased.releases (h : f.Leased keys) (sound : f.Sound keys)
    (releases : (f.members i).Releases (Fleet.watched True (f.put i c σ).members) f.store result
      c σ) : (f.put i c σ).Leased keys := by
  have same := sound.keys i
  -- the others hold other slots, and time does not end their leases
  have each : ∀ slot, (f.members i).state = .bound slot → (∀ slot', c.state ≠ .bound slot') →
      ∀ j slot', ((f.put i c σ).members j).state = .bound slot' →
        (f.members j).state = .bound slot' ∧ slot.Beside slot' ∧
          Fleet.watched True (f.put i c σ).members slot' := by
    intro slot held free j slot' state
    obtain ⟨other, before⟩ := bound_of_put free state
    refine ⟨before, ⟨(sound.watched j slot' before).2.1, ?_⟩, trivial, j, state⟩
    rintro rfl
    exact other (h.distinct j i slot before held)
  cases releases with
  | idle =>
    rw [put_same]
    exact h
  | late state =>
    have around : Around keys (Fleet.watched True f.members) Slot.InRange f.store f.store :=
      .refl sound.store
    refine h.around around (fun j slot' now => sound.watched j slot' ?_) f.clock
    exact (bound_of_put (σ := f.store) (by rintro slot ⟨⟩) now).2
  | removed state around =>
    rw [same] at around
    exact h.around around (each _ state (by rintro slot' ⟨⟩)) f.clock
  | missing state around =>
    rw [same] at around
    exact h.around (around.beside _) (each _ state (by rintro slot' ⟨⟩)) f.clock
  | failed state around =>
    rw [same] at around
    exact h.around (around.beside _) (each _ state (by rintro slot' ⟨⟩)) f.clock

theorem Step.leased (step : Step keys True f event f') (onTime : OnTime keys True f')
    (sound : f.Sound keys) (h : f.Leased keys) : f'.Leased keys := by
  cases step with
  | acquired run => exact h.acquires sound (sound.acquires run) onTime
  | renewed run => exact h.renews sound (sound.renews run) onTime
  | released run => exact h.releases sound (sound.releases run)
  | verified run => exact h.outside sound (sound.verify_around (sound.verifies run))
  | @made i spins _ _ later run =>
    have makes := run.ensured ((f.members i).next_ensures spins f.clock)
    obtain ⟨_, same, _⟩ := makes.keeps (sound.consistent i)
    have around : Around keys (Fleet.watched True f.members) Slot.InRange f.store f.store :=
      .refl sound.store
    refine h.around around (fun j slot state => sound.watched j slot ?_) later
    exact (put_state same j).symm.trans state
  | passed outside => exact h.outside sound (outside.around sound.store)

theorem Run.leased (run : Run keys True f events f') (sound : f.Sound keys) (h : f.Leased keys) :
    f'.Leased keys := by
  induction run with
  | start => exact h
  | step before step onTime ih => exact step.leased onTime (before.sound sound) ih

theorem Leased.verified (h : f.Leased keys) (sound : f.Sound keys) {slot : Slot}
    (state : (f.members i).state = .bound slot)
    (step : Step keys True f (.verified i result) f') :
    result = .ok () ∨ ∃ cause, result = .error (.store cause) := by
  obtain ⟨e, found, _, value⟩ := h.held i slot state
  have names : ∀ e', f.store.shelf.entries (keys.leaseKey slot) = some e' →
      Slot.ofText? e'.value = some slot := by
    intro e' found'
    rw [found] at found'
    cases found'
    exact value
  obtain failed | ⟨ok, _⟩ | ⟨_, gone⟩ := step.verified_lease sound state names
  · exact .inr failed
  · exact .inl ok
  · exact absurd (h.still_live sound state (step.verified_around sound)) gone

theorem Leased.renewed (h : f.Leased keys) (sound : f.Sound keys) {slot : Slot}
    (state : (f.members i).state = .bound slot)
    (step : Step keys True f (.renewed i result) f') :
    result = .ok true ∨ ∃ cause, result = .error (.store cause) := by
  cases step with
  | renewed run =>
    have same := sound.keys i
    cases sound.renews run with
    | idle free =>
      rw [state] at free
      cases free
    | renewed => exact .inl rfl
    | lost state' around gone =>
      rw [state] at state'
      cases state'
      rw [same] at around gone
      exact absurd (h.still_live sound state around) gone
    | failed => exact .inr ⟨_, rfl⟩

theorem Step.verify_failed (step : Step keys True f (.verified i (.error (.store cause))) f')
    (sound : f.Sound keys) {slot : Slot} (state : (f.members i).state = .bound slot) :
    Answers keys (watched True f.members) (.store (.get (keys.leaseKey slot))) f.store
      (.error cause) f'.store := by
  cases step with
  | verified run =>
    rw [← sound.keys i] at run ⊢
    exact Coordinator.verify_failed (sound.consistent i) state run

theorem Step.renew_failed (step : Step keys True f (.renewed i (.error (.store cause))) f')
    (sound : f.Sound keys) {slot : Slot} (state : (f.members i).state = .bound slot) :
    Answers keys (watched True f.members)
      (.store (.refresh (keys.leaseKey slot) (f.members i).leaseTtl)) f.store (.error cause)
      f'.store := by
  cases step with
  | renewed run =>
    rw [← sound.keys i] at run ⊢
    exact Coordinator.renew_failed state run

/-- In every state that a punctual fleet reaches, members hold different slots, and the lease of
each that holds one is in the store under the name of the slot: a verification succeeds then, and
so does a renewal, unless the store fails the one call that it makes. -/
theorem mutual_exclusion {f₀ : Fleet ι} (initial : f₀.Initial keys)
    (run : Run keys True f₀ events f) :
    (∀ i j slot, (f.members i).state = .bound slot → (f.members j).state = .bound slot → i = j) ∧
      ∀ i slot, (f.members i).state = .bound slot →
        (∃ e, f.store.shelf.entries (keys.leaseKey slot) = some e ∧
          f.store.shelf.now < e.deadline ∧ Slot.ofText? e.value = some slot) ∧
        (∀ result f', Step keys True f (.verified i result) f' →
          result = .ok () ∨ ∃ cause, result = .error (.store cause) ∧
            Answers keys (watched True f.members) (.store (.get (keys.leaseKey slot))) f.store
              (.error cause) f'.store) ∧
        ∀ result f', Step keys True f (.renewed i result) f' →
          result = .ok true ∨ ∃ cause, result = .error (.store cause) ∧
            Answers keys (watched True f.members)
              (.store (.refresh (keys.leaseKey slot) (f.members i).leaseTtl)) f.store
              (.error cause) f'.store := by
  have sound := run.sound initial.sound
  have leased := run.leased initial.sound initial.leased
  refine ⟨leased.distinct, fun i slot state => ⟨leased.held i slot state, ?_, ?_⟩⟩
  · intro result f' step
    refine (leased.verified sound state step).imp_right ?_
    rintro ⟨cause, rfl⟩
    exact ⟨cause, rfl, step.verify_failed sound state⟩
  · intro result f' step
    refine (leased.renewed sound state step).imp_right ?_
    rintro ⟨cause, rfl⟩
    exact ⟨cause, rfl, step.renew_failed sound state⟩

theorem mutual_exclusion_standard :
    let c := Coordinator.standard
    ∃ f, Run c.keys True (standard Bool (.ofMillis 1750000000000))
        [.acquired false (.ok ⟨0, 0⟩), .acquired true (.ok ⟨0, 1⟩), .verified false (.ok ()),
          .renewed true (.ok true)] f ∧
      (f.members false).state = .bound ⟨0, 0⟩ ∧ (f.members true).state = .bound ⟨0, 1⟩ ∧
        ∀ i slot, (f.members i).state = .bound slot →
          ∃ e, f.store.shelf.entries (c.keys.leaseKey slot) = some e ∧
            f.store.shelf.now < e.deadline ∧ Slot.ofText? e.value = some slot := by
  intro c
  let now : Instant := .ofMillis 1750000000000
  have initial : Initial c.keys (standard Bool now) := standard_initial _
  let entry (slot : Slot) : MemoryStore.Entry := ⟨slot.toJson, now.add c.leaseTtl⟩
  have other : c.keys.leaseKey ⟨0, 1⟩ ≠ c.keys.leaseKey ⟨0, 0⟩ := fun same =>
    absurd (c.keys.leaseKey_injective same) (by decide)
  obtain ⟨s, only, run⟩ := (Run.standard Bool True now).acquire (i := false)
    Coordinator.standard_fresh rfl (by rintro _ _ ⟨⟩) (by decide) (by decide)
    (inTime_of_none fun _ => rfl)
  have run := run.acquire_beside (i := true) Coordinator.standard_fresh rfl only (by decide)
    (by decide +kernel) (by decide) (by decide)
  let t := s.table.insert (c.keys.leaseKey ⟨0, 1⟩) (entry ⟨0, 1⟩)
  have current : MemoryStore.Current ⟨t⟩ now := (only.current (by decide)).insert _ (by decide)
  have here : t.get? (c.keys.leaseKey ⟨0, 0⟩) = some (entry ⟨0, 0⟩) := by
    rw [Table.get?_insert, if_neg other, only.here]
  have run := run.step (.verify (i := false) rfl rfl rfl current here (Slot.ofText?_toJson ⟨0, 0⟩))
    (inTime_of_current current)
  have run := run.renew (i := true) rfl rfl current
    ((Table.get?_insert ..).trans (if_pos rfl)) (by decide) (by decide)
  exact ⟨_, run, rfl, rfl, fun i slot state => ((mutual_exclusion initial run).2 i slot state).1⟩

end SlotLease.Fleet
