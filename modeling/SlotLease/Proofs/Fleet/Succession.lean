import SlotLease.Proofs.Fleet.Progress

namespace SlotLease

open Interaction Lease

variable {keys : KeySpace} {bound : Slot → Prop} {σ σ' : SharedStore} {slot : Slot}

namespace Lease

def Signed (keys : KeySpace) (slot : Slot) (σ : SharedStore) : Prop :=
  ∀ e, σ.shelf.entries (keys.leaseKey slot) = some e → e.value = slot.toJson

def Signs (keys : KeySpace) (σ σ' : SharedStore) : Prop :=
  ∀ slot, slot.InRange → Signed keys slot σ → Signed keys slot σ'

theorem Around.signed {p : Slot → Prop} (h : Around keys bound p σ σ') (mem : p slot)
    (signed : Signed keys slot σ) : Signed keys slot σ' :=
  fun e found => signed e (h.ages.old ⟨slot, mem, rfl⟩ found)

theorem Around.signs (h : Around keys bound Slot.InRange σ σ') : Signs keys σ σ' :=
  fun _ inRange => h.signed inRange

theorem Around.signs_beside (h : Around keys bound slot.Beside σ σ')
    (own : Signed keys slot σ → Signed keys slot σ') : Signs keys σ σ' := by
  intro other inRange signed
  by_cases same : slot = other
  · subst same
    exact own signed
  · exact h.signed ⟨inRange, same⟩ signed

end Lease

namespace Coordinator

variable {c c' : Coordinator}

structure Signing (c : Coordinator) (σ : SharedStore) (c' : Coordinator) (σ' : SharedStore) :
    Prop where
  signs : Signs c.keys σ σ'
  taken : ∀ slot, c'.state.slot? = some slot →
    c.state.slot? = some slot ∨ Signed c.keys slot σ'

theorem Signing.of_slot? (signs : Signs c.keys σ σ') (same : c'.state.slot? = c.state.slot?) :
    Signing c σ c' σ' := ⟨signs, fun _ held => .inl (same ▸ held)⟩

theorem Acquires.signing (h : Acquires bound c σ result c' σ') : Signing c σ c' σ' := by
  cases h with
  | again => exact .of_slot? (fun _ _ signed => signed) rfl
  | ended => exact .of_slot? (fun _ _ signed => signed) rfl
  | failed _ around => exact .of_slot? around.signs rfl
  | @taken slot _ _ _ _ _ before _ around _ _ entry =>
    have signed : Signed c.keys slot σ' := by
      intro e found
      rw [entry] at found
      cases found
      rfl
    refine ⟨fun other inRange signed' => ?_, ?_⟩
    · -- the slot may have had another lease before, which has ended
      exact around.signs_beside (fun _ => signed) other inRange (before.signs other inRange signed')
    · rintro _ ⟨⟩
      exact .inr signed

theorem Renews.signing (h : Renews bound c σ result c' σ') : Signing c σ c' σ' := by
  cases h with
  | idle => exact .of_slot? (fun _ _ signed => signed) rfl
  | renewed _ around found _ _ _ entry =>
    refine .of_slot? (around.signs_beside fun signed e found' => ?_) rfl
    have same := signed _ found
    rw [entry] at found'
    cases found'
    exact same
  | lost state around => exact .of_slot? around.signs (by rw [state]; rfl)
  | failed _ around => exact .of_slot? around.signs rfl

theorem Releases.signing (h : Releases bound c σ result c' σ') : Signing c σ c' σ' := by
  cases h with
  | idle => exact .of_slot? (fun _ _ signed => signed) rfl
  | late state => exact .of_slot? (fun _ _ signed => signed) (by rw [state]; rfl)
  | removed state around _ gone =>
    refine .of_slot? (around.signs_beside fun _ e found => ?_) (by rw [state]; rfl)
    rw [gone] at found
    cases found
  | missing state around => exact .of_slot? around.signs (by rw [state]; rfl)
  | failed state around => exact .of_slot? around.signs (by rw [state]; rfl)

end Coordinator

namespace Fleet

variable {ι : Type} {f f' : Fleet ι} {i j : ι} {c : Coordinator} {punctual : Prop}

def Named (keys : KeySpace) (f : Fleet ι) : Prop :=
  ∀ i slot, (f.members i).state.slot? = some slot → Signed keys slot f.store

theorem Initial.named (h : f.Initial keys) : f.Named keys := by
  intro i slot held
  rw [(h.fresh i).state] at held
  cases held

theorem Named.names (h : f.Named keys) (held : (f.members i).state.slot? = some slot) :
    ∀ e, f.store.shelf.entries (keys.leaseKey slot) = some e →
      Slot.ofText? e.value = some slot := by
  intro e found
  rw [h i slot held e found]
  exact Slot.ofText?_toJson slot

theorem Named.signs (h : f.Named keys) (sound : f.Sound keys) (signs : Signs keys f.store σ)
    {members : ι → Coordinator} (same : ∀ i, (members i).state = (f.members i).state)
    (clock : UInt64) : Named keys ⟨members, σ, clock⟩ := by
  intro i slot held
  rw [same] at held
  exact signs slot ((sound.consistent i).inRange slot held) (h i slot held)

variable [DecidableEq ι]

theorem Named.put (h : f.Named keys) (sound : f.Sound keys)
    (signing : (f.members i).Signing f.store c σ) : (f.put i c σ).Named keys := by
  have kept : ∀ j slot, (f.members j).state.slot? = some slot → Signed keys slot σ := by
    intro j slot held
    have signs := signing.signs
    rw [sound.keys i] at signs
    exact signs slot ((sound.consistent j).inRange slot held) (h j slot held)
  intro j slot held
  by_cases other : j = i
  · subst other
    rw [put_members_self] at held
    rcases signing.taken slot held with before | signed
    · exact kept j slot before
    · rwa [sound.keys j] at signed
  · rw [put_members_other _ _ _ other] at held
    exact kept j slot held

theorem Step.signs (step : Step keys punctual f event f') (sound : f.Sound keys) :
    Signs keys f.store f'.store := by
  cases step with
  | @acquired i _ _ _ run =>
    rw [← sound.keys i]
    exact (sound.acquires run).signing.signs
  | @renewed i _ _ _ run =>
    rw [← sound.keys i]
    exact (sound.renews run).signing.signs
  | @released i _ _ _ run =>
    rw [← sound.keys i]
    exact (sound.releases run).signing.signs
  | verified run => exact (sound.verify_around (sound.verifies run)).signs
  | made => exact fun _ _ signed => signed
  | passed outside => exact (outside.around sound.store).signs

theorem Step.named (step : Step keys punctual f event f') (sound : f.Sound keys)
    (h : f.Named keys) : f'.Named keys := by
  cases step with
  | acquired run => exact h.put sound (sound.acquires run).signing
  | renewed run => exact h.put sound (sound.renews run).signing
  | released run => exact h.put sound (sound.releases run).signing
  | verified run =>
    have around := sound.verify_around (sound.verifies run)
    exact h.signs sound around.signs (fun _ => rfl) f.clock
  | @made i spins _ _ later run =>
    have makes := run.ensured ((f.members i).next_ensures spins f.clock)
    obtain ⟨_, same, _⟩ := makes.keeps (sound.consistent i)
    exact h.signs sound (fun _ _ signed => signed) (put_state same) later
  | passed outside =>
    exact h.signs sound (outside.around sound.store).signs (fun _ => rfl) f.clock

theorem Run.named (run : Run keys punctual f events f') (sound : f.Sound keys)
    (h : f.Named keys) : f'.Named keys := by
  induction run with
  | start => exact h
  | step before step _ ih => exact step.named (before.sound sound) ih

theorem Step.renewed_lease (step : Step keys punctual f (.renewed i result) f')
    (sound : f.Sound keys) (former : (f.members i).state.slot? = some slot) {e : Shelf.Entry}
    (lease : f.store.shelf.entries (keys.leaseKey slot) = some e)
    (inForce : f'.store.shelf.now < e.deadline) :
    (result = .ok false ∧ f'.store.shelf.entries (keys.leaseKey slot) = some e ↔
        (f.members i).state ≠ .bound slot) ∧
      ((f.members i).state = .bound slot → (∃ cause, result = .error (.store cause)) ∨
        result = .ok true ∧ f'.members = f.members ∧
          ∃ t, f.store.shelf.now ≤ t ∧ t ≤ f'.store.shelf.now ∧
            f'.store.shelf.entries (keys.leaseKey slot) =
              some ⟨e.value, t + f.store.span (f.members i).leaseTtl⟩) := by
  cases step with
  | renewed run =>
    have same := sound.keys i
    cases sound.renews run with
    | idle free =>
      rw [put_same]
      have free : (f.members i).state ≠ .bound slot := by
        intro state
        rw [state] at free
        cases free
      exact ⟨iff_of_true ⟨rfl, lease⟩ free, fun state => absurd state free⟩
    | @renewed slot' _ e' t state around found live low high entry =>
      rw [same] at found entry
      rw [state] at former ⊢
      cases former
      rw [lease] at found
      cases found
      refine ⟨iff_of_false ?_ fun other => other rfl, fun _ => .inr ⟨rfl, ?_, t, low, high, entry⟩⟩
      · rintro ⟨⟨⟩, _⟩
      · rw [put_same]
    | lost state around gone =>
      -- a lease in force to the end is found
      rw [same] at around gone
      rw [state] at former
      cases former
      have inRange := (sound.consistent i).inRange slot (by rw [state]; rfl)
      exact absurd ⟨e, around.ages.stays ⟨slot, inRange, rfl⟩ lease inForce, inForce⟩ gone
    | failed state around =>
      rw [state] at former ⊢
      cases former
      refine ⟨iff_of_false ?_ fun other => other rfl, fun _ => .inl ⟨_, rfl⟩⟩
      rintro ⟨⟨⟩, _⟩

theorem Step.released_lease (step : Step keys punctual f (.released i result) f')
    (sound : f.Sound keys) (former : (f.members i).state.slot? = some slot) {e : Shelf.Entry}
    (lease : f.store.shelf.entries (keys.leaseKey slot) = some e)
    (inForce : f'.store.shelf.now < e.deadline) :
    f'.store.shelf.entries (keys.leaseKey slot) = some e ↔
      (f.members i).state ≠ .bound slot ∨ ∃ cause, result = .error (.store cause) := by
  have inRange := (sound.consistent i).inRange slot former
  cases step with
  | @released i result c σ run =>
    have same := sound.keys i
    cases sound.releases run with
    | idle free =>
      refine iff_of_true lease (.inl fun state => ?_)
      rw [state] at free
      cases free
    | late state =>
      refine iff_of_true lease (.inl fun held => ?_)
      rw [state] at held
      cases held
    | removed state around live gone =>
      rw [same] at gone
      rw [state] at former ⊢
      cases former
      refine iff_of_false (fun left => ?_) (by rintro (other | ⟨_, ⟨⟩⟩); exact other rfl)
      exact Option.some_ne_none e (left.symm.trans gone)
    | missing state around gone =>
      rw [same] at around gone
      rw [state] at former
      cases former
      exact absurd ⟨e, around.ages.stays ⟨slot, inRange, rfl⟩ lease inForce, inForce⟩ gone
    | failed state around =>
      rw [same] at around
      exact iff_of_true (around.ages.stays ⟨slot, inRange, rfl⟩ lease inForce) (.inr ⟨_, rfl⟩)

theorem Step.renewed_ended (step : Step keys punctual f (.renewed i result) f')
    (sound : f.Sound keys) (state : (f.members i).state = .bound slot)
    (ended : ¬ f.store.shelf.Live (keys.leaseKey slot)) :
    (∃ cause, result = .error (.store cause)) ∨
      result = .ok false ∧ (f'.members i).state = .expired slot := by
  cases step with
  | renewed run =>
    have same := sound.keys i
    cases sound.renews run with
    | idle free =>
      rw [state] at free
      cases free
    | renewed state' _ found live =>
      rw [same] at found
      rw [state] at state'
      cases state'
      exact absurd ⟨_, found, live⟩ ended
    | lost state' =>
      rw [state] at state'
      cases state'
      rw [put_members_self]
      exact .inr ⟨rfl, rfl⟩
    | failed => exact .inl ⟨_, rfl⟩

/-- A member acts on the lease in force of another that holds the slot after it, exactly while it
takes the slot for its own: it renews that lease and removes it as if it were its own, and the other
does not notice. Only after that lease has ended too does a renewal fail. -/
theorem acts_on_successor_iff {f₀ : Fleet ι} (initial : f₀.Initial keys)
    (run : Run keys False f₀ events f) (other : i ≠ j)
    (former : (f.members i).state.slot? = some slot) (holder : (f.members j).state = .bound slot)
    {e : Shelf.Entry} (lease : f.store.shelf.entries (keys.leaseKey slot) = some e) :
    e.value = slot.toJson ∧
      (∀ result f', Step keys False f (.renewed i result) f' →
        (f'.members j).state = .bound slot ∧
          (f'.store.shelf.now < e.deadline →
            (result = .ok false ∧ f'.store.shelf.entries (keys.leaseKey slot) = some e ↔
                (f.members i).state ≠ .bound slot) ∧
              ((f.members i).state = .bound slot → (∃ cause, result = .error (.store cause)) ∨
                result = .ok true ∧ f'.members = f.members ∧
                  ∃ t, f.store.shelf.now ≤ t ∧ t ≤ f'.store.shelf.now ∧
                    f'.store.shelf.entries (keys.leaseKey slot) =
                      some ⟨e.value, t + f.store.span (f.members i).leaseTtl⟩)) ∧
          (e.deadline ≤ f.store.shelf.now → (f.members i).state = .bound slot →
            (∃ cause, result = .error (.store cause)) ∨
              result = .ok false ∧ (f'.members i).state = .expired slot)) ∧
      ∀ result f', Step keys False f (.released i result) f' →
        (f'.members j).state = .bound slot ∧
          (f'.store.shelf.now < e.deadline →
            (f'.store.shelf.entries (keys.leaseKey slot) = some e ↔
              (f.members i).state ≠ .bound slot ∨ ∃ cause, result = .error (.store cause))) := by
  have sound := run.sound initial.sound
  have named := run.named initial.sound initial.named
  refine ⟨named j slot (by rw [holder]; rfl) e lease, fun result f' step => ⟨?_, ?_, ?_⟩,
    fun result f' step => ⟨?_, ?_⟩⟩
  · rw [step.members_other fun same => other (Option.some.inj same)]
    exact holder
  · exact step.renewed_lease sound former lease
  · intro ended state
    refine step.renewed_ended sound state ?_
    rintro ⟨e', found, live⟩
    rw [lease] at found
    cases found
    exact absurd live (Int.not_lt.2 ended)
  · rw [step.members_other fun same => other (Option.some.inj same)]
    exact holder
  · exact step.released_lease sound former lease

def takeover : List (Event Bool) :=
  [.acquired false (.ok ⟨0, 0⟩), .passed, .acquired true (.ok ⟨0, 0⟩)]

def takenOver (s : MemoryStore) : Fleet Bool :=
  ⟨fun _ => Coordinator.standard.holding ⟨0, 0⟩, .memory s (.ofMillis 1750086400000), 0⟩

theorem run_takeover : ∃ s : MemoryStore,
    s.Only (Coordinator.standard.keys.leaseKey ⟨0, 0⟩)
        ⟨Slot.toJson ⟨0, 0⟩, (Instant.ofMillis 1750086400000).add Coordinator.standard.leaseTtl⟩ ∧
      Run Coordinator.standard.keys False (standard Bool (.ofMillis 1750000000000)) takeover
        (takenOver s) := by
  obtain ⟨s, only, run⟩ := (Run.standard Bool False (.ofMillis 1750000000000)).acquire
    (i := false) Coordinator.standard_fresh rfl (by rintro _ _ ⟨⟩) (by decide) (by decide)
    inTime_of_unpunctual
  have run := run.pass (show _ ≤ (Instant.ofMillis 1750086400000).nanos by decide)
    inTime_of_unpunctual
  have ended : ∀ key entry, s.table.get? key = some entry →
      entry.isLive (.ofMillis 1750086400000) = false := by
    intro key entry found
    rw [only] at found
    split at found
    · cases found
      decide
    · cases found
  obtain ⟨s, only, run⟩ := run.acquire (i := true) Coordinator.standard_fresh rfl ended
    (by decide) (by decide) inTime_of_unpunctual
  have both : (fun _ : Bool => Coordinator.standard.holding ⟨0, 0⟩) =
      Function.update (Function.update (fun _ => .standard) false (.holding .standard ⟨0, 0⟩)) true
        (.holding .standard ⟨0, 0⟩) := by
    funext i
    cases i <;> rfl
  refine ⟨s, only, ?_⟩
  rw [takenOver, both]
  exact run

theorem takeover_undone : ∃ f, Run Coordinator.standard.keys False
    (standard Bool (.ofMillis 1750000000000))
    (takeover ++ [.passed] ++ [.renewed false (.ok true)] ++ [.released false (.ok true)]) f ∧
      (f.members true).state = .bound ⟨0, 0⟩ ∧
        ¬ f.store.shelf.Live (Coordinator.standard.keys.leaseKey ⟨0, 0⟩) := by
  obtain ⟨s, only, run⟩ := run_takeover
  have run := run.pass (show _ ≤ (Instant.ofMillis 1750090000000).nanos by decide)
    inTime_of_unpunctual
  have run := run.renew (i := false) rfl rfl (only.current (by decide)) only.here (by decide)
    (by decide)
  obtain ⟨s, none, run⟩ := run.release (i := false) rfl rfl only.insert (by decide)
  refine ⟨_, run, rfl, ?_⟩
  rintro ⟨e, found, _⟩
  obtain ⟨entry, here, _⟩ := MemoryStore.stored_eq_some.1 found
  cases (none _).symm.trans here

theorem takeover_renewed : ∃ (f : Fleet Bool) (e : Shelf.Entry),
    Run Coordinator.standard.keys False (standard Bool (.ofMillis 1750000000000)) takeover f ∧
      f.store.shelf.entries (Coordinator.standard.keys.leaseKey ⟨0, 0⟩) = some e ∧
      ∀ result f', Step Coordinator.standard.keys False f (.renewed false result) f' →
        f'.store.shelf.now < e.deadline →
          (∃ cause, result = .error (.store cause)) ∨ result = .ok true := by
  obtain ⟨s, only, run⟩ := run_takeover
  have lease := MemoryStore.stored_eq_some.2 ⟨_, (only _).trans (if_pos rfl), rfl⟩
  refine ⟨_, _, run, lease, fun result f' step inForce => ?_⟩
  obtain ⟨_, renewed, _⟩ := acts_on_successor_iff (standard_initial _) run Bool.false_ne_true
    rfl rfl lease
  obtain ⟨_, acts, _⟩ := renewed result f' step
  exact ((acts inForce).2 rfl).imp_right fun h => h.1

end Fleet

end SlotLease
