import Mathlib.Logic.Function.Basic
import SlotLease.Proofs.Coordinator.Operations

/-!
Fleets: coordinators of one key space on a shared store that make their ids by a shared clock.
Operations are not interleaved, but what goes on outside may come between any two requests of one,
and every call may fail without effect.
-/

namespace SlotLease

structure Fleet (ι : Type) where
  members : ι → Coordinator
  store : SharedStore
  /-- What the clock showed last that ids are made by. -/
  clock : UInt64

namespace Fleet

open Interaction Lease

variable {ι : Type}

structure Initial (keys : KeySpace) (f : Fleet ι) : Prop where
  store : f.store.Sound
  fresh : ∀ i, (f.members i).Fresh
  keys : ∀ i, (f.members i).keys = keys

inductive Event (ι : Type) where
  | acquired (i : ι) (result : Except Error Slot)
  | renewed (i : ι) (result : Except Error Bool)
  | released (i : ι) (result : Except Error Bool)
  | verified (i : ι) (result : Except Error Unit)
  | made (i : ι) (result : Option (Outcome Id)) (clock : UInt64)
  | passed

def Event.member? : Event ι → Option ι
  | .acquired i _ => some i
  | .renewed i _ => some i
  | .released i _ => some i
  | .verified i _ => some i
  | .made i _ _ => some i
  | .passed => none

/-- The slots whose leases time does not end: in a punctual fleet, those that members hold. -/
def watched (punctual : Prop) (members : ι → Coordinator) (slot : Slot) : Prop :=
  punctual ∧ ∃ i, (members i).state = .bound slot

def OnTime (keys : KeySpace) (punctual : Prop) (f : Fleet ι) : Prop :=
  InTime keys (watched punctual f.members) f.store f.store

def put [DecidableEq ι] (f : Fleet ι) (i : ι) (c : Coordinator) (σ : SharedStore) : Fleet ι :=
  { f with members := Function.update f.members i c, store := σ }

inductive Step [DecidableEq ι] (keys : KeySpace) (punctual : Prop) (f : Fleet ι) :
    Event ι → Fleet ι → Prop
  | acquired : Runs (Answers keys (watched punctual f.members)) (f.members i).acquire f.store
      (result, c) σ → Step keys punctual f (.acquired i result) (f.put i c σ)
  | renewed : Runs (Answers keys (watched punctual f.members)) (f.members i).renew f.store
      (result, c) σ → Step keys punctual f (.renewed i result) (f.put i c σ)
  -- a member that gives its slot back holds it no longer, not even while it calls the store
  | released : Runs (Answers keys (watched punctual (f.put i c σ).members)) (f.members i).release
      f.store (result, c) σ → Step keys punctual f (.released i result) (f.put i c σ)
  | verified : Runs (Answers keys (watched punctual f.members)) (f.members i).verify f.store
      result σ → Step keys punctual f (.verified i result) { f with store := σ }
  | made : Runs Clock.Answers ((f.members i).next spins) f.clock (result, c) later →
      Step keys punctual f (.made i result later) { f.put i c f.store with clock := later }
  | passed : Outside keys (watched punctual f.members) f.store σ →
      Step keys punctual f .passed { f with store := σ }

inductive Run [DecidableEq ι] (keys : KeySpace) (punctual : Prop) (f : Fleet ι) :
    List (Event ι) → Fleet ι → Prop
  | start : Run keys punctual f [] f
  | step : Run keys punctual f events f' → Step keys punctual f' event f'' →
      OnTime keys punctual f'' → Run keys punctual f (events ++ [event]) f''

structure Sound (keys : KeySpace) (f : Fleet ι) : Prop where
  store : f.store.Sound
  keys : ∀ i, (f.members i).keys = keys
  consistent : ∀ i, (f.members i).Consistent

variable {keys : KeySpace} {punctual : Prop} {bound : Slot → Prop} {f f' : Fleet ι} {i j : ι}
  {c : Coordinator} {σ : SharedStore}

theorem Initial.sound (h : f.Initial keys) : f.Sound keys where
  store := h.store
  keys := h.keys
  consistent i := (h.fresh i).consistent

namespace Sound

theorem acquires (h : f.Sound keys)
    (run : Runs (Answers keys bound) (f.members i).acquire f.store (result, c) σ) :
    (f.members i).Acquires bound f.store result c σ := by
  rw [← h.keys i] at run
  exact run.ensured (Coordinator.acquire_ensures (h.consistent i) h.store)

theorem renews (h : f.Sound keys)
    (run : Runs (Answers keys bound) (f.members i).renew f.store (result, c) σ) :
    (f.members i).Renews bound f.store result c σ := by
  rw [← h.keys i] at run
  exact run.ensured (Coordinator.renew_ensures (h.consistent i) h.store)

theorem releases (h : f.Sound keys)
    (run : Runs (Answers keys bound) (f.members i).release f.store (result, c) σ) :
    (f.members i).Releases bound f.store result c σ := by
  rw [← h.keys i] at run
  exact run.ensured (Coordinator.release_ensures (h.consistent i) h.store)

theorem verifies (h : f.Sound keys)
    (run : Runs (Answers keys bound) (f.members i).verify f.store result σ) :
    (f.members i).Verifies bound f.store result σ := by
  rw [← h.keys i] at run
  exact run.ensured (Coordinator.verify_ensures (h.consistent i) h.store)

theorem verify_around (h : f.Sound keys)
    (verifies : (f.members i).Verifies bound f.store result σ) :
    Around keys bound Slot.InRange f.store σ := by
  rw [← h.keys i]
  cases verifies with
  | idle => exact .refl h.store
  | failed _ around => exact around
  | missing _ around => exact around
  | matching _ around => exact around
  | other _ around => exact around

end Sound

variable [DecidableEq ι]

@[simp] theorem put_members_self (f : Fleet ι) (i : ι) (c : Coordinator) (σ : SharedStore) :
    (f.put i c σ).members i = c := Function.update_self ..

@[simp] theorem put_members_other (f : Fleet ι) (c : Coordinator) (σ : SharedStore) (h : j ≠ i) :
    (f.put i c σ).members j = f.members j := Function.update_of_ne h ..

@[simp] theorem put_same (f : Fleet ι) (i : ι) (σ : SharedStore) :
    f.put i (f.members i) σ = { f with store := σ } := by
  simp [put]

theorem put_cases {P : Coordinator → Prop} (self : P c) (other : ∀ j, P (f.members j)) (j : ι) :
    P ((f.put i c σ).members j) := by
  by_cases eq : j = i
  · subst eq
    rw [put_members_self]
    exact self
  · rw [put_members_other f c σ eq]
    exact other j

theorem put_state (same : c.state = (f.members i).state) (j : ι) :
    ((f.put i c σ).members j).state = (f.members j).state := by
  by_cases eq : j = i
  · subst eq
    rw [put_members_self, same]
  · rw [put_members_other f c σ eq]

theorem put_bound {slot : Slot} (state : ((f.put i c σ).members j).state = .bound slot) :
    j = i ∧ c.state = .bound slot ∨ j ≠ i ∧ (f.members j).state = .bound slot := by
  by_cases same : j = i
  · subst same
    rw [put_members_self] at state
    exact .inl ⟨rfl, state⟩
  · rw [put_members_other _ _ _ same] at state
    exact .inr ⟨same, state⟩

theorem bound_of_put {slot : Slot} (free : ∀ slot, c.state ≠ .bound slot)
    (state : ((f.put i c σ).members j).state = .bound slot) :
    j ≠ i ∧ (f.members j).state = .bound slot :=
  (put_bound state).resolve_left fun ⟨_, new⟩ => free slot new

theorem Sound.put (h : f.Sound keys)
    (kept : c.keys = (f.members i).keys ∧ c.Consistent ∧ σ.Sound) : (f.put i c σ).Sound keys where
  store := kept.2.2
  keys := put_cases (P := (·.keys = keys)) (kept.1.trans (h.keys i)) h.keys
  consistent := put_cases (P := Coordinator.Consistent) kept.2.1 h.consistent

theorem Step.members_other (step : Step keys punctual f event f') (other : event.member? ≠ some j) :
    f'.members j = f.members j := by
  cases step with
  | acquired => exact put_members_other _ _ _ fun same => other (congrArg some same.symm)
  | renewed => exact put_members_other _ _ _ fun same => other (congrArg some same.symm)
  | released => exact put_members_other _ _ _ fun same => other (congrArg some same.symm)
  | verified => rfl
  | @made i _ _ c => exact put_members_other f c f.store fun same => other (congrArg some same.symm)
  | passed => rfl

theorem Step.sound (step : Step keys punctual f event f') (h : f.Sound keys) : f'.Sound keys := by
  cases step with
  | @acquired i _ _ _ run => exact h.put ((h.acquires run).keeps (h.consistent i) h.store)
  | @renewed i _ _ _ run => exact h.put ((h.renews run).keeps (h.consistent i) h.store)
  | @released i _ _ _ run => exact h.put ((h.releases run).keeps (h.consistent i) h.store)
  | verified run => exact ⟨(h.verifies run).sound h.store, h.keys, h.consistent⟩
  | @made i spins _ _ _ run =>
    have makes := run.ensured ((f.members i).next_ensures spins f.clock)
    obtain ⟨same, _, consistent⟩ := makes.keeps (h.consistent i)
    have := h.put ⟨same, consistent, h.store⟩
    exact ⟨this.store, this.keys, this.consistent⟩
  | passed outside => exact ⟨(outside.around h.store).sound, h.keys, h.consistent⟩

theorem Run.sound (run : Run keys punctual f events f') (h : f.Sound keys) : f'.Sound keys := by
  induction run with
  | start => exact h
  | step _ step _ ih => exact step.sound ih

theorem Step.verified_around (step : Step keys punctual f (.verified i result) f')
    (sound : f.Sound keys) :
    Around keys (watched punctual f.members) Slot.InRange f.store f'.store := by
  cases step with
  | verified run => exact sound.verify_around (sound.verifies run)

theorem Step.verified_lease (step : Step keys punctual f (.verified i result) f')
    (sound : f.Sound keys) {slot : Slot} (state : (f.members i).state = .bound slot)
    (names : ∀ e, f.store.shelf.entries (keys.leaseKey slot) = some e →
      Slot.ofText? e.value = some slot) :
    (∃ cause, result = .error (.store cause)) ∨
      result = .ok () ∧ f.store.shelf.Live (keys.leaseKey slot) ∨
        result = .error (.leaseMismatch (keys.leaseKey slot) slot none) ∧
          ¬ f'.store.shelf.Live (keys.leaseKey slot) := by
  rw [← sound.keys i] at names ⊢
  cases step with
  | verified run =>
    cases sound.verifies run with
    | idle free =>
      rw [state] at free
      cases free
    | failed => exact .inl ⟨_, rfl⟩
    | missing state' _ gone =>
      rw [state] at state'
      cases state'
      exact .inr (.inr ⟨rfl, gone⟩)
    | matching state' _ found live =>
      rw [state] at state'
      cases state'
      exact .inr (.inl ⟨rfl, _, found, live⟩)
    | other state' _ found _ different =>
      rw [state] at state'
      cases state'
      exact absurd (names _ found) different

end Fleet

end SlotLease
