import SlotLease.Proofs.Coordinator.Acquisition

namespace SlotLease

open Interaction

inductive LeaseState.Moves : LeaseState → LeaseState → Prop
  | stays : Moves s s
  | taken {slot : Slot} : slot.InRange → Moves .unbound (.bound slot)
  | released : Moves (.bound slot) (.released slot)
  | expired : Moves (.bound slot) (.expired slot)
  | late : Moves (.expired slot) (.released slot)

namespace Locked

variable {g g' : Locked}

inductive Mints (g : Locked) : Option Error → Option Id → Locked → Prop
  | made {id : Id} {poisoned : Bool} : Slot.ofId id = Slot.ofId g.last →
      Mints g none (some id) { g with last := id, poisoned }
  | failed {e : Error} {poisoned : Bool} : e ≠ .unbound → (∀ slot, e ≠ .leaseEnded slot) →
      Mints g (some e) none { g with poisoned }
  | nothing {poisoned : Bool} : Mints g none none { g with poisoned }

theorem Mints.poisoned {poisoned : Bool} {id : Option Id}
    (h : Mints { g with poisoned } refusal id g') : Mints g refusal id g' := by
  cases h with
  | made own => exact .made own
  | failed unbound ended => exact .failed unbound ended
  | nothing => exact .nothing

theorem Mints.own {id : Id} (h : Mints g refusal (some id) g') :
    Slot.ofId id = Slot.ofId g.last := by
  cases h with
  | made own => exact own

theorem Mints.not_of_lease {refusal : Option Error} {id : Option Id} (h : Mints g refusal id g') :
    refusal ≠ some .unbound ∧ ∀ slot, refusal ≠ some (.leaseEnded slot) := by
  cases h with
  | failed unbound ended => simp [unbound, ended]
  | _ => exact ⟨nofun, nofun⟩

end Locked

namespace Coordinator

inductive Event where
  | acquired (result : Except Error Slot)
  | renewed (result : Except Error Bool)
  | released (result : Except Error Bool)
  | verified (result : Except Error Unit)
  | polled (outcome : Outcome Poll)
  | made (outcome : Option (Outcome Id))
  | numbered (outcome : Option (Outcome Int64))

namespace Event

def isMinting : Event → Bool
  | .polled _ => true
  | .made _ => true
  | .numbered _ => true
  | _ => false

def id? : Event → Option Id
  | .polled (.value (.ready id)) => some id
  | .made (some (.value id)) => some id
  | .numbered (some (.value n)) => some ⟨n.toUInt64⟩
  | _ => none

def refusal? : Event → Option Error
  | .polled (.error e) => some e
  | .made (some (.error e)) => some e
  | .numbered (some (.error e)) => some e
  | _ => none

end Event

inductive Step (c : Coordinator) : Event → Coordinator → Prop
  | acquired : Ends c.acquire (result, c') → Step c (.acquired result) c'
  | renewed : Ends c.renew (result, c') → Step c (.renewed result) c'
  | released : Ends c.release (result, c') → Step c (.released result) c'
  | verified : Ends c.verify result → Step c (.verified result) c
  | polled : Ends c.poll (outcome, c') → Step c (.polled outcome) c'
  | made {spins : Nat} : Ends (c.next spins) (outcome, c') → Step c (.made outcome) c'
  | numbered {spins : Nat} : Ends (c.nextSigned spins) (outcome, c') →
      Step c (.numbered outcome) c'

inductive Run (c₀ : Coordinator) : List Event → Coordinator → Prop
  | start : Run c₀ [] c₀
  | step : Run c₀ events c → Step c event c' → Run c₀ (events ++ [event]) c'

inductive Does (c : Coordinator) : Event → Coordinator → Prop
  | again : c.state = .bound slot → Does c (.acquired (.ok slot)) c
  | past : c.state.isTerminal = true → c.state.slot? = some slot →
      Does c (.acquired (.error (.leaseEnded slot))) c
  | without : c.state = .unbound → Does c (.acquired (.error e)) c
  | taken {slot : Slot} : c.state = .unbound → slot.InRange →
      Does c (.acquired (.ok slot)) (c.holding slot)
  | kept : Does c (.renewed result) c
  | lost : c.state = .bound slot → Does c (.renewed result) (c.losing slot)
  | idle : Does c (.released result) c
  | given : c.state = .bound slot → Does c (.released result) (c.releasing slot)
  | late : c.state = .expired slot → Does c (.released result) { c with state := .released slot }
  | verified : Does c (.verified result) c
  | early {event : Event} : c.generator = none → event.isMinting = true →
      event.refusal? = some .unbound → event.id? = none → Does c event c
  | ended {event : Event} : c.generator = some g → c.issuing = false → event.isMinting = true →
      event.refusal? = some (.leaseEnded g.slot) → event.id? = none → Does c event c
  | minted {event : Event} : c.generator = some g → c.issuing = true → event.isMinting = true →
      g.Mints event.refusal? event.id? g' → Does c event { c with generator := some g' }

end Coordinator

namespace Generator

theorem advance_error (h : advance epoch last now = .error e) :
    e ≠ .unbound ∧ ∀ slot, e ≠ .leaseEnded slot := by
  have way := advances epoch last now
  rw [h] at way
  cases way <;> simp

end Generator

namespace Locked

open Coordinator (Event)

variable {g g' : Locked}

theorem mints_of_poll (h : Ends g.poll (outcome, g')) :
    g.Mints (Event.polled outcome).refusal? (Event.polled outcome).id? g' := by
  rw [poll_eq_advance] at h
  split at h
  · obtain ⟨rfl, rfl⟩ := ends_pure.1 h
    exact .failed (by simp) (by simp)
  · obtain ⟨reading, _, h⟩ := ends_bind.1 h
    cases reading with
    | none =>
      obtain ⟨rfl, rfl⟩ := ends_pure.1 h
      exact .nothing
    | some now =>
      simp only at h
      cases advanced : Generator.advance g.epoch g.last now with
      | error e =>
        rw [advanced] at h
        obtain ⟨rfl, rfl⟩ := ends_pure.1 h
        exact .failed (Generator.advance_error advanced).1 (Generator.advance_error advanced).2
      | ok id =>
        rw [advanced] at h
        cases id with
        | none =>
          obtain ⟨rfl, rfl⟩ := ends_pure.1 h
          exact .nothing
        | some id =>
          obtain ⟨rfl, rfl⟩ := ends_pure.1 h
          exact .made (Generator.slot_of_advance advanced)

theorem mints_of_next {spins : Nat} (h : Ends (g.next spins) (outcome, g')) :
    g.Mints (Event.made outcome).refusal? (Event.made outcome).id? g' := by
  induction spins generalizing g with
  | zero =>
    obtain ⟨rfl, rfl⟩ := ends_pure.1 h
    exact .nothing
  | succ spins ih =>
    obtain ⟨⟨polled, g₁⟩, first, h⟩ := ends_bind.1 h
    have first := mints_of_poll first
    rcases polled with (id | wait) | e | _
    · obtain ⟨rfl, rfl⟩ := ends_pure.1 h
      exact first
    · cases first
      exact (ih h).poisoned
    · obtain ⟨rfl, rfl⟩ := ends_pure.1 h
      exact first
    · obtain ⟨rfl, rfl⟩ := ends_pure.1 h
      exact first

end Locked

namespace Coordinator

variable {c c' : Coordinator}

theorem inRange_of_reserve {slot : Slot} (h : Ends c.reserve (.ok slot)) : slot.InRange := by
  rw [reserve] at h
  obtain ⟨found, first, h⟩ := ends_bind.1 h
  rcases found with _ | _ | free
  · cases ends_pure.1 h
  · cases ends_pure.1 h
  · obtain ⟨written, _, h⟩ := ends_bind.1 h
    cases written <;> cases ends_pure.1 h
    exact first.always c.always_findSlot slot rfl

theorem does_of_acquire (fresh : c.state = .unbound → c.generator = none)
    (h : Ends c.acquire (result, c')) : c.Does (.acquired result) c' := by
  rw [acquire] at h
  cases state : c.state with
  | bound slot =>
    rw [state] at h
    obtain ⟨rfl, rfl⟩ := ends_pure.1 h
    exact .again state
  | released slot =>
    rw [state] at h
    obtain ⟨rfl, rfl⟩ := ends_pure.1 h
    exact .past (by rw [state]; rfl) (by rw [state]; rfl)
  | expired slot =>
    rw [state] at h
    obtain ⟨rfl, rfl⟩ := ends_pure.1 h
    exact .past (by rw [state]; rfl) (by rw [state]; rfl)
  | unbound =>
    rw [state] at h
    obtain ⟨reserved, first, h⟩ := ends_bind.1 h
    cases reserved with
    | error e =>
      obtain ⟨rfl, rfl⟩ := ends_pure.1 h
      exact .without state
    | ok slot =>
      have inRange := inRange_of_reserve first
      simp only [hold_of_inRange inRange (fresh state)] at h
      obtain ⟨rfl, rfl⟩ := ends_pure.1 h
      exact .taken state inRange

theorem does_of_renew (h : Ends c.renew (result, c')) : c.Does (.renewed result) c' := by
  rw [renew] at h
  cases state : c.state with
  | bound slot =>
    rw [state] at h
    obtain ⟨reply, _, h⟩ := ends_bind.1 h
    rcases reply with cause | _ | _
    · obtain ⟨rfl, rfl⟩ := ends_pure.1 h
      exact .kept
    · obtain ⟨rfl, rfl⟩ := ends_pure.1 h
      exact .lost state
    · obtain ⟨rfl, rfl⟩ := ends_pure.1 h
      exact .kept
  | _ =>
    rw [state] at h
    obtain ⟨rfl, rfl⟩ := ends_pure.1 h
    exact .kept

theorem does_of_release (h : Ends c.release (result, c')) : c.Does (.released result) c' := by
  rw [release] at h
  cases state : c.state with
  | bound slot =>
    rw [state] at h
    obtain ⟨reply, _, h⟩ := ends_bind.1 h
    cases reply <;> obtain ⟨rfl, rfl⟩ := ends_pure.1 h <;> exact .given state
  | expired slot =>
    rw [state] at h
    obtain ⟨rfl, rfl⟩ := ends_pure.1 h
    exact .late state
  | _ =>
    rw [state] at h
    obtain ⟨rfl, rfl⟩ := ends_pure.1 h
    exact .idle

theorem does_of_active {β : Type} {refuse : Error → β} {ask : Locked → Clock.Program (β × Locked)}
    {answer : β → Event} {b : β} (minting : (answer b).isMinting = true)
    (refuses : ∀ e, (answer (refuse e)).refusal? = some e ∧ (answer (refuse e)).id? = none)
    (asks : ∀ g g', Ends (ask g) (b, g') → g.Mints (answer b).refusal? (answer b).id? g')
    (h : Ends (match c.activeGenerator with
      | .error e => return (refuse e, c)
      | .ok generator => do
        let (b, generator) ← ask generator
        return (b, { c with generator := some generator })) (b, c')) : c.Does (answer b) c' := by
  rw [activeGenerator] at h
  cases generator : c.generator with
  | none =>
    rw [generator] at h
    obtain ⟨rfl, rfl⟩ := ends_pure.1 h
    exact .early generator minting (refuses _).1 (refuses _).2
  | some g =>
    rw [generator] at h
    by_cases issuing : c.issuing = true
    · simp only [if_pos issuing] at h
      obtain ⟨⟨_, g'⟩, first, h⟩ := ends_bind.1 h
      obtain ⟨rfl, rfl⟩ := ends_pure.1 h
      exact .minted generator issuing minting (asks g g' first)
    · simp only [if_neg issuing] at h
      obtain ⟨rfl, rfl⟩ := ends_pure.1 h
      exact .ended generator (Bool.eq_false_iff.2 issuing) minting (refuses _).1 (refuses _).2

theorem does_of_poll (h : Ends c.poll (outcome, c')) : c.Does (.polled outcome) c' := by
  rw [poll] at h
  exact does_of_active rfl (fun e => ⟨rfl, rfl⟩) (fun g g' => Locked.mints_of_poll) h

theorem does_of_next {spins : Nat} (h : Ends (c.next spins) (outcome, c')) :
    c.Does (.made outcome) c' := by
  rw [next] at h
  exact does_of_active rfl (fun e => ⟨rfl, rfl⟩) (fun g g' => Locked.mints_of_next) h

theorem does_of_nextSigned {spins : Nat} (h : Ends (c.nextSigned spins) (outcome, c')) :
    c.Does (.numbered outcome) c' := by
  obtain ⟨⟨made, c₁⟩, first, h⟩ := ends_bind.1 h
  obtain ⟨rfl, rfl⟩ := ends_pure.1 h
  have same : (Event.made made).refusal? =
      (Event.numbered (made.map (·.map Id.toInt64))).refusal? ∧
        (Event.made made).id? = (Event.numbered (made.map (·.map Id.toInt64))).id? := by
    rcases made with _ | id | _ | _ <;> exact ⟨rfl, rfl⟩
  cases does_of_next first with
  | early unbuilt _ refused none => exact .early unbuilt rfl (same.1 ▸ refused) (same.2 ▸ none)
  | ended built off _ refused none =>
    exact .ended built off rfl (same.1 ▸ refused) (same.2 ▸ none)
  | minted built on _ mints => exact .minted built on rfl (same.1 ▸ same.2 ▸ mints)

theorem Step.does (step : Step c event c') (fresh : c.state = .unbound → c.generator = none) :
    c.Does event c' := by
  cases step with
  | acquired h => exact does_of_acquire fresh h
  | renewed h => exact does_of_renew h
  | released h => exact does_of_release h
  | verified => exact .verified
  | polled h => exact does_of_poll h
  | made h => exact does_of_next h
  | numbered h => exact does_of_nextSigned h

structure Coherent (c : Coordinator) : Prop extends c.Consistent where
  own : ∀ g, c.generator = some g → Slot.ofId g.last = g.slot
  built : ∀ g, c.generator = some g → Locked.create g.slot c.epoch =
    .ok { g with last := Generator.first g.slot, poisoned := false }

theorem Fresh.coherent (h : c.Fresh) : c.Coherent where
  toConsistent := h.consistent
  own := by simp [h.generator]
  built := by simp [h.generator]

theorem coherent_holding {slot : Slot} (inRange : slot.InRange) : (c.holding slot).Coherent where
  toConsistent := consistent_holding inRange
  own := by
    rintro g ⟨⟩
    exact Id.slot_pack inRange.1 inRange.2
  built := by
    rintro g ⟨⟩
    exact Locked.create_of_inRange inRange c.epoch

theorem Coherent.unbuilt (h : c.Coherent) : c.state = .unbound ↔ c.generator = none := by
  rw [← Option.map_eq_none_iff, h.generator]
  cases c.state <;> simp [LeaseState.slot?]

theorem Coherent.minted (h : c.Coherent) {g g' : Locked} {id : Option Id}
    (generator : c.generator = some g) (mints : g.Mints refusal id g') :
    Coherent { c with generator := some g' } := by
  have same : c.generator.map (·.slot) = some g.slot := by rw [generator]; rfl
  have own := h.own g generator
  have built := h.built g generator
  cases mints with
  | made made =>
    exact ⟨⟨h.issuing, same.symm.trans h.generator, h.inRange⟩,
      by rintro _ ⟨⟩; exact made.trans own, by rintro _ ⟨⟩; exact built⟩
  | _ =>
    exact ⟨⟨h.issuing, same.symm.trans h.generator, h.inRange⟩,
      by rintro _ ⟨⟩; exact own, by rintro _ ⟨⟩; exact built⟩

theorem Does.coherent (does : c.Does event c') (h : c.Coherent) : c'.Coherent := by
  cases does with
  | taken _ inRange => exact coherent_holding inRange
  | lost state => exact ⟨h.losing state, h.own, h.built⟩
  | given state => exact ⟨h.releasing state, h.own, h.built⟩
  | late state => exact ⟨h.toConsistent.late state, h.own, h.built⟩
  | minted built _ _ mints => exact h.minted built mints
  | _ => exact h

theorem Does.moves (does : c.Does event c') : c.state.Moves c'.state := by
  cases does with
  | taken state inRange => exact state ▸ .taken inRange
  | lost state => exact state ▸ .expired
  | given state => exact state ▸ .released
  | late state => exact state ▸ .late
  | _ => exact .stays

structure Event.Due (before : List Event) (c : Coordinator) (event : Event) : Prop where
  own : ∀ id, event.id? = some id → c.state = .bound (Slot.ofId id)
  unbound : event.isMinting = true →
    (event.refusal? = some .unbound ↔ ∀ slot, .acquired (.ok slot) ∉ before)
  ended : event.isMinting = true → ∀ slot, event.refusal? = some (.leaseEnded slot) ↔
    c.state = .released slot ∨ c.state = .expired slot
  past : ∀ result, event = .acquired result → ∀ slot,
    c.state = .released slot ∨ c.state = .expired slot → result = .error (.leaseEnded slot)

theorem Consistent.ended_of_not_issuing (h : c.Consistent) {g : Locked} (off : c.issuing = false)
    (generator : c.generator = some g) :
    c.state = .released g.slot ∨ c.state = .expired g.slot := by
  have slot := h.generator
  have bound := h.issuing
  rw [generator] at slot
  rw [off] at bound
  cases state : c.state with
  | unbound =>
    rw [state] at slot
    cases slot
  | bound slot' =>
    rw [state] at bound
    cases bound
  | released slot' =>
    rw [state] at slot
    cases slot
    exact .inl rfl
  | expired slot' =>
    rw [state] at slot
    cases slot
    exact .inr rfl

theorem Does.due (does : c.Does event c') (h : c.Coherent)
    (unbound : c.state = .unbound ↔ ∀ slot, .acquired (.ok slot) ∉ before) :
    event.Due before c := by
  cases does with
  | again state => exact ⟨nofun, nofun, nofun, fun _ _ slot => by simp [state]⟩
  | @past slot _ slot? =>
    refine ⟨nofun, nofun, nofun, ?_⟩
    rintro _ ⟨⟩ slot' state
    rcases state with state | state <;> rw [state] at slot? <;> cases slot? <;> rfl
  | without state => exact ⟨nofun, nofun, nofun, fun _ _ slot => by simp [state]⟩
  | taken state => exact ⟨nofun, nofun, nofun, fun _ _ slot => by simp [state]⟩
  | early unbuilt minting refused none =>
    have state := h.unbuilt.2 unbuilt
    refine ⟨by simp [none], fun _ => ?_, fun _ slot => ?_, by rintro _ rfl; cases minting⟩
    · exact ⟨fun _ => unbound.1 state, fun _ => refused⟩
    · simp [refused, state]
  | @ended g _ built off minting refused none =>
    have state := h.ended_of_not_issuing off built
    refine ⟨by simp [none], fun _ => ?_, fun _ slot => ?_, by rintro _ rfl; cases minting⟩
    · rw [← unbound]
      rcases state with state | state <;> simp [refused, state]
    · rcases state with state | state <;> simp [refused, state]
  | @minted g g' _ built on minting mints =>
    have state := h.bound_of_issuing on built
    have own := h.own g built
    refine ⟨fun id given => ?_, fun _ => ?_, fun _ slot => ?_, by rintro _ rfl; cases minting⟩
    · rw [given] at mints
      rw [mints.own, own, state]
    · rw [← unbound, state]
      simp [mints.not_of_lease.1]
    · rw [state]
      simp [mints.not_of_lease.2 slot]
  | _ => exact ⟨nofun, nofun, nofun, nofun⟩

theorem Does.unbound_iff (does : c.Does event c')
    (unbound : c.state = .unbound ↔ ∀ slot, .acquired (.ok slot) ∉ before) :
    c'.state = .unbound ↔ ∀ slot, .acquired (.ok slot) ∉ before ++ [event] := by
  have left : c'.state = .unbound ↔
      c.state = .unbound ∧ ∀ slot, .acquired (.ok slot) ≠ event := by
    cases does with
    | again state => simp [state]
    | taken => simp [holding]
    | lost state => simp [state, losing]
    | given state => simp [state, releasing]
    | late state => simp [state]
    | early _ minting => exact ⟨fun h => ⟨h, by rintro _ rfl; cases minting⟩, And.left⟩
    | ended _ _ minting => exact ⟨fun h => ⟨h, by rintro _ rfl; cases minting⟩, And.left⟩
    | minted _ _ minting => exact ⟨fun h => ⟨h, by rintro _ rfl; cases minting⟩, And.left⟩
    | _ => simp
  simp [left, unbound, not_or, forall_and]

theorem Run.coherent (run : Run c₀ events c) (fresh : c₀.Fresh) :
    c.Coherent ∧ (c.state = .unbound ↔ ∀ slot, .acquired (.ok slot) ∉ events) := by
  induction run with
  | start => exact ⟨fresh.coherent, by simp [fresh.state]⟩
  | step _ step ih =>
    have does := step.does ih.1.unbuilt.1
    exact ⟨does.coherent ih.1, does.unbound_iff ih.2⟩

/-- Whatever is answered, a lease never comes back to life, ids are answered only of the slot that
is held, and who asks for one otherwise is told why there is none. -/
theorem lifecycle (fresh : c₀.Fresh) (run : Run c₀ events c) :
    c.Coherent ∧ ∀ event c', Step c event c' → c.state.Moves c'.state ∧ event.Due events c := by
  obtain ⟨coherent, unbound⟩ := run.coherent fresh
  refine ⟨coherent, fun event c' step => ?_⟩
  have does := step.does coherent.unbuilt.1
  exact ⟨does.moves, does.due coherent unbound⟩

theorem lifecycle_lost : ∃ c, Run standard [.acquired (.ok ⟨0, 0⟩), .renewed (.ok false)] c ∧
    c.Coherent ∧ c.state = .expired ⟨0, 0⟩ ∧
      ∀ outcome c', Step c (.polled outcome) c' → outcome = .error (.leaseEnded ⟨0, 0⟩) := by
  have acquired : Ends standard.acquire (.ok ⟨0, 0⟩, standard.holding ⟨0, 0⟩) := by
    refine .ask (.ok []) ?_
    refine .ask (.ok ()) ?_
    exact .done
  have lost : Ends (standard.holding ⟨0, 0⟩).renew
      (.ok false, (standard.holding ⟨0, 0⟩).losing ⟨0, 0⟩) := by
    refine .ask (.ok false) ?_
    exact .done
  have run : Run standard [.acquired (.ok ⟨0, 0⟩), .renewed (.ok false)] _ :=
    (Run.start.step (.acquired acquired)).step (.renewed lost)
  obtain ⟨coherent, next⟩ := lifecycle standard_fresh run
  refine ⟨_, run, coherent, rfl, fun outcome c' step => ?_⟩
  have refused := ((next _ c' step).2.ended rfl ⟨0, 0⟩).2 (.inr rfl)
  cases outcome <;> cases refused
  rfl

end Coordinator

end SlotLease
