import SlotLease.Coordinator.Basic
import SlotLease.Proofs.Coordinator.Allocation
import SlotLease.Proofs.Generator.Locked
import SlotLease.Proofs.Leasing

namespace SlotLease.Coordinator

open Interaction Lease

structure Fresh (c : Coordinator) : Prop where
  state : c.state = .unbound
  issuing : c.issuing = false
  generator : c.generator = none

def standard : Coordinator where
  keys := Settings.default.keySpace
  leaseTtl := Settings.default.leaseTtl
  epoch := Settings.default.epoch
  retry := Settings.default.retry
  schedule := (Schedule.ofString? Settings.default.renewalSchedule).getD
    ⟨"", [], [], [], [], [], [], []⟩

theorem standard_fresh : standard.Fresh := ⟨rfl, rfl, rfl⟩

/-- Ids may be made exactly while a slot is held, by a generator of that slot. -/
structure Consistent (c : Coordinator) : Prop where
  issuing : c.issuing = c.state.isBound
  generator : c.generator.map (·.slot) = c.state.slot?
  inRange : ∀ slot, c.state.slot? = some slot → slot.InRange

variable {c : Coordinator} {bound : Slot → Prop} {σ : SharedStore} {W : Type}
  {answers : (r : Request) → W → Reply r → W → Prop} {w w' : W}

theorem firstFree_ensures (r : Retry) (sound : σ.Sound) (slots : List Slot)
    (inRange : ∀ slot ∈ slots, slot.InRange) :
    Ensures (Answers c.keys bound)
      (Allocation.firstFree (fun slot => r.run (.has (c.keys.leaseKey slot))) slots)
      (fun result σ' => Around c.keys bound Slot.InRange σ σ' ∧ ∀ slot, result = .ok (some slot) →
        slot.InRange ∧ ¬ σ'.shelf.Live (c.keys.leaseKey slot)) σ := by
  induction slots generalizing σ with
  | nil => exact ⟨.refl sound, fun slot ok => nomatch ok⟩
  | cons slot rest ih =>
    rw [Allocation.firstFree, ensures_bind]
    apply r.run_ensures sound
    · intro σ₁ before
      refine (has_ensures before.sound _).mono fun reply σ₂ ⟨around, free⟩ => ?_
      rcases reply with cause | _ | _
      · exact around
      · refine ⟨before.trans around, ?_⟩
        rintro slot ⟨⟩
        exact ⟨inRange _ List.mem_cons_self, free rfl⟩
      · have before := before.trans around
        refine (ih before.sound fun slot mem => inRange slot (List.mem_cons_of_mem _ mem)).mono ?_
        exact fun result σ' ⟨around, free⟩ => ⟨before.trans around, free⟩
    · exact fun e σ' around => ⟨around, fun slot ok => nomatch ok⟩

theorem findSlot_ensures (sound : σ.Sound) :
    Ensures (Answers c.keys bound) c.findSlot (fun result σ' =>
      Around c.keys bound Slot.InRange σ σ' ∧ ∀ slot, result = .ok (some slot) →
        slot.InRange ∧ ¬ σ'.shelf.Live (c.keys.leaseKey slot)) σ := by
  rw [findSlot, ensures_bind]
  apply c.retry.run_ensures sound
  · intro σ₁ before
    refine (list_ensures before.sound).mono fun reply σ₂ ⟨around, free⟩ => ?_
    rcases reply with cause | _ | ⟨key, listed⟩
    · exact around
    · refine ⟨before.trans around, ?_⟩
      rintro slot ⟨⟩
      have zero : Slot.InRange ⟨0, 0⟩ := by decide
      exact ⟨zero, free rfl _ zero⟩
    · have before := before.trans around
      refine (firstFree_ensures c.retry before.sound _
        fun slot => Allocation.inRange_of_mem_candidates).mono ?_
      exact fun result σ' ⟨around, free⟩ => ⟨before.trans around, free⟩
  · exact fun e σ' around => ⟨around, fun slot ok => nomatch ok⟩

def holding (c : Coordinator) (slot : Slot) : Coordinator :=
  { c with
    state := .bound slot
    issuing := true
    generator := some ⟨slot, Generator.epochWord c.epoch, Generator.first slot, false⟩ }

def losing (c : Coordinator) (slot : Slot) : Coordinator :=
  { c with state := .expired slot, issuing := false }

def releasing (c : Coordinator) (slot : Slot) : Coordinator :=
  { c with state := .released slot, issuing := false }

theorem hold_of_inRange {slot : Slot} (inRange : slot.InRange) (fresh : c.generator = none) :
    c.hold slot = .ok (c.holding slot) := by
  rw [hold, Locked.create_of_inRange inRange, fresh]
  rfl

inductive Acquires (bound : Slot → Prop) (c : Coordinator) (σ : SharedStore) :
    Except Error Slot → Coordinator → SharedStore → Prop
  | again : c.state = .bound slot → Acquires bound c σ (.ok slot) c σ
  | ended : c.state.isTerminal = true → c.state.slot? = some slot →
      Acquires bound c σ (.error (.leaseEnded slot)) c σ
  | failed : c.state = .unbound → Around c.keys bound Slot.InRange σ σ' →
      Acquires bound c σ (.error e) c σ'
  | taken {slot : Slot} {σ₁ σ' : SharedStore} {t : Int} : c.state = .unbound → slot.InRange →
      Around c.keys bound Slot.InRange σ σ₁ →
      ¬ σ₁.shelf.Live (c.keys.leaseKey slot) → Around c.keys bound slot.Beside σ₁ σ' →
      σ₁.shelf.now ≤ t → t ≤ σ'.shelf.now →
      σ'.shelf.entries (c.keys.leaseKey slot) = some ⟨slot.toJson, t + σ.span c.leaseTtl⟩ →
      Acquires bound c σ (.ok slot) (c.holding slot) σ'

theorem acquire_ensures (consistent : c.Consistent) (sound : σ.Sound) :
    Ensures (Answers c.keys bound) c.acquire
      (fun result σ' => Acquires bound c σ result.1 result.2 σ') σ := by
  unfold acquire
  cases state : c.state with
  | bound slot => exact .again state
  | released slot => exact .ended (by rw [state]; rfl) (by rw [state]; rfl)
  | expired slot => exact .ended (by rw [state]; rfl) (by rw [state]; rfl)
  | unbound =>
    have fresh : c.generator = none := by simpa [state, LeaseState.slot?] using consistent.generator
    simp only [reserve, ensures_bind]
    refine (findSlot_ensures sound).mono fun result σ₁ h => ?_
    obtain ⟨before, free⟩ := h
    rcases result with e | _ | slot
    · exact .failed state before
    · exact .failed state before
    · obtain ⟨inRange, free⟩ := free slot rfl
      simp only [ensures_bind]
      apply c.retry.run_ensures before.sound
      · intro σ₂ waited
        refine (set_ensures waited.sound slot slot.toJson c.leaseTtl).mono fun reply σ' h => ?_
        cases reply with
        | error cause => exact h
        | ok =>
          obtain ⟨around, t, low, high, entry⟩ := h
          have before := before.trans waited
          simp only [ensures_pure, hold_of_inRange inRange fresh]
          rw [before.span] at entry
          exact .taken state inRange before (waited.not_live inRange free) around low high entry
      · exact fun e σ' around => .failed state (before.trans around)

inductive Renews (bound : Slot → Prop) (c : Coordinator) (σ : SharedStore) :
    Except Error Bool → Coordinator → SharedStore → Prop
  | idle : c.state.held? = none → Renews bound c σ (.ok false) c σ
  | renewed {slot : Slot} {σ' : SharedStore} {e : Shelf.Entry} {t : Int} : c.state = .bound slot →
      Around c.keys bound slot.Beside σ σ' →
      σ.shelf.entries (c.keys.leaseKey slot) = some e → σ.shelf.now < e.deadline →
      σ.shelf.now ≤ t → t ≤ σ'.shelf.now →
      σ'.shelf.entries (c.keys.leaseKey slot) = some ⟨e.value, t + σ.span c.leaseTtl⟩ →
      Renews bound c σ (.ok true) c σ'
  | lost : c.state = .bound slot → Around c.keys bound Slot.InRange σ σ' →
      ¬ σ'.shelf.Live (c.keys.leaseKey slot) → Renews bound c σ (.ok false) (c.losing slot) σ'
  | failed : c.state = .bound slot → Around c.keys bound Slot.InRange σ σ' →
      Renews bound c σ (.error (.store cause)) c σ'

theorem renew_ensures (consistent : c.Consistent) (sound : σ.Sound) :
    Ensures (Answers c.keys bound) c.renew
      (fun result σ' => Renews bound c σ result.1 result.2 σ') σ := by
  unfold renew
  cases state : c.state with
  | unbound => exact .idle (by rw [state]; rfl)
  | released slot => exact .idle (by rw [state]; rfl)
  | expired slot => exact .idle (by rw [state]; rfl)
  | bound slot =>
    have inRange := consistent.inRange slot (by rw [state]; rfl)
    simp only [ensures_bind]
    refine (refresh_ensures sound inRange c.leaseTtl).mono fun reply σ' h => ?_
    rcases reply with cause | _ | _
    · exact .failed state h
    · exact .lost state h.1 h.2
    · obtain ⟨around, e, found, live, t, low, high, entry⟩ := h
      exact .renewed state around found live low high entry

theorem renew_failed {slot : Slot} (state : c.state = .bound slot)
    (run : Runs answers c.renew w (.error (.store cause), c') w') :
    answers (.store (.refresh (c.keys.leaseKey slot) c.leaseTtl)) w (.error cause) w' := by
  rw [renew, state] at run
  obtain ⟨reply, w₁, called, rest⟩ := runs_bind_iff.1 run
  rcases reply with cause | _ | _
  · cases rest
    exact runs_ask_done.1 called
  · cases rest
  · cases rest

inductive Releases (bound : Slot → Prop) (c : Coordinator) (σ : SharedStore) :
    Except Error Bool → Coordinator → SharedStore → Prop
  | idle : c.state.held? = none → (∀ slot, c.state ≠ .expired slot) →
      Releases bound c σ (.ok false) c σ
  | late : c.state = .expired slot → Releases bound c σ (.ok false)
      { c with state := .released slot } σ
  | removed : c.state = .bound slot → Around c.keys bound slot.Beside σ σ' →
      σ.shelf.Live (c.keys.leaseKey slot) → σ'.shelf.entries (c.keys.leaseKey slot) = none →
      Releases bound c σ (.ok true) (c.releasing slot) σ'
  | missing : c.state = .bound slot → Around c.keys bound Slot.InRange σ σ' →
      ¬ σ'.shelf.Live (c.keys.leaseKey slot) →
      Releases bound c σ (.ok false) (c.releasing slot) σ'
  | failed : c.state = .bound slot → Around c.keys bound Slot.InRange σ σ' →
      Releases bound c σ (.error (.store cause)) (c.releasing slot) σ'

theorem release_ensures (consistent : c.Consistent) (sound : σ.Sound) :
    Ensures (Answers c.keys bound) c.release
      (fun result σ' => Releases bound c σ result.1 result.2 σ') σ := by
  unfold release
  cases state : c.state with
  | unbound => exact .idle (by rw [state]; rfl) (by simp [state])
  | released slot => exact .idle (by rw [state]; rfl) (by simp [state])
  | expired slot => exact .late state
  | bound slot =>
    have inRange := consistent.inRange slot (by rw [state]; rfl)
    simp only [ensures_bind]
    refine (delete_ensures sound inRange).mono fun reply σ' h => ?_
    rcases reply with cause | _ | _
    · exact .failed state h
    · exact .missing state h.1 h.2
    · exact .removed state h.1 h.2.1 h.2.2

inductive Verifies (bound : Slot → Prop) (c : Coordinator) (σ : SharedStore) :
    Except Error Unit → SharedStore → Prop
  | idle : c.state.held? = none → Verifies bound c σ (.error .unbound) σ
  | failed : c.state = .bound slot → Around c.keys bound Slot.InRange σ σ' →
      Verifies bound c σ (.error (.store cause)) σ'
  | missing : c.state = .bound slot → Around c.keys bound Slot.InRange σ σ' →
      ¬ σ'.shelf.Live (c.keys.leaseKey slot) →
      Verifies bound c σ (.error (.leaseMismatch (c.keys.leaseKey slot) slot none)) σ'
  | matching : c.state = .bound slot → Around c.keys bound Slot.InRange σ σ' →
      σ.shelf.entries (c.keys.leaseKey slot) = some e → σ.shelf.now < e.deadline →
      Slot.ofText? e.value = some slot → Verifies bound c σ (.ok ()) σ'
  | other : c.state = .bound slot → Around c.keys bound Slot.InRange σ σ' →
      σ.shelf.entries (c.keys.leaseKey slot) = some e → σ.shelf.now < e.deadline →
      Slot.ofText? e.value ≠ some slot →
      Verifies bound c σ (.error (.leaseMismatch (c.keys.leaseKey slot) slot (some e.value))) σ'

theorem verify_ensures (consistent : c.Consistent) (sound : σ.Sound) :
    Ensures (Answers c.keys bound) c.verify (fun result σ' => Verifies bound c σ result σ') σ := by
  unfold verify
  rw [consistent.issuing]
  cases state : c.state with
  | unbound => exact .idle (by rw [state]; rfl)
  | released slot => exact .idle (by rw [state]; rfl)
  | expired slot => exact .idle (by rw [state]; rfl)
  | bound slot =>
    have inRange := consistent.inRange slot (by rw [state]; rfl)
    simp only [LeaseState.isBound, if_true, LeaseState.slot?, ensures_bind]
    refine (get_ensures sound inRange).mono fun reply σ' h => ?_
    obtain ⟨around, found⟩ := h
    rcases reply with cause | _ | value
    · exact .failed state around
    · exact .missing state around found
    · obtain ⟨e, found, live, rfl⟩ := found
      simp only [Option.bind_some]
      split
      · rename_i same
        exact .matching state around found live same
      · rename_i different
        exact .other state around found live different

theorem verify_failed {slot : Slot} (consistent : c.Consistent) (state : c.state = .bound slot)
    (run : Runs answers c.verify w (.error (.store cause)) w') :
    answers (.store (.get (c.keys.leaseKey slot))) w (.error cause) w' := by
  rw [verify, consistent.issuing, state] at run
  obtain ⟨reply, w₁, called, rest⟩ := runs_bind_iff.1 run
  rcases reply with cause | found
  · cases rest
    exact runs_ask_done.1 called
  · dsimp only at rest
    split at rest <;> cases rest

inductive Makes (c : Coordinator) (shown : UInt64) :
    Option (Outcome Id) → Coordinator → UInt64 → Prop
  | idle : (∀ id, result ≠ some (.value id)) → Makes c shown result c shown
  | asked : c.issuing = true → c.generator = some g → g.Makes shown result g' later →
      Makes c shown result { c with generator := some g' } later

theorem next_ensures (c : Coordinator) (spins : Nat) (shown : UInt64) :
    Ensures Clock.Answers (c.next spins)
      (fun result later => Makes c shown result.1 result.2 later) shown := by
  rw [next, activeGenerator]
  cases generator : c.generator with
  | none => exact .idle (by rintro id ⟨⟩)
  | some g =>
    by_cases issuing : c.issuing = true
    · simp only [if_pos issuing, ensures_bind]
      exact (g.next_ensures spins shown).mono fun _ _ makes => .asked issuing generator makes
    · simp only [if_neg issuing]
      exact .idle (by rintro id ⟨⟩)

theorem fresh_of_create {settings : Settings} (h : create settings now = .ok c) : c.Fresh := by
  simp only [create] at h
  cases checked : settings.check now with
  | error e =>
    rw [checked] at h
    cases h
  | ok schedule =>
    rw [checked] at h
    cases h
    exact ⟨rfl, rfl, rfl⟩

theorem Fresh.consistent (h : c.Fresh) : c.Consistent where
  issuing := by rw [h.state, h.issuing]; rfl
  generator := by rw [h.state, h.generator]; rfl
  inRange := by simp [h.state, LeaseState.slot?]

theorem Consistent.bound_of_issuing (h : c.Consistent) {g : Locked} (issuing : c.issuing = true)
    (generator : c.generator = some g) : c.state = .bound g.slot := by
  have slot := h.generator
  have bound := h.issuing
  rw [generator] at slot
  rw [issuing] at bound
  cases state : c.state with
  | bound slot' =>
    rw [state] at slot
    cases slot
    rfl
  | _ =>
    rw [state] at bound
    cases bound

theorem consistent_holding {slot : Slot} (inRange : slot.InRange) :
    (c.holding slot).Consistent where
  issuing := rfl
  generator := rfl
  inRange := by
    rintro slot ⟨⟩
    exact inRange

theorem Consistent.losing (h : c.Consistent) (state : c.state = .bound slot) :
    (c.losing slot).Consistent where
  issuing := rfl
  generator := h.generator.trans (by rw [state]; rfl)
  inRange := by
    rintro slot ⟨⟩
    exact h.inRange _ (by rw [state]; rfl)

theorem Consistent.releasing (h : c.Consistent) (state : c.state = .bound slot) :
    (c.releasing slot).Consistent where
  issuing := rfl
  generator := h.generator.trans (by rw [state]; rfl)
  inRange := by
    rintro slot ⟨⟩
    exact h.inRange _ (by rw [state]; rfl)

theorem Consistent.late (h : c.Consistent) (state : c.state = .expired slot) :
    Consistent { c with state := .released slot } where
  issuing := h.issuing.trans (by rw [state]; rfl)
  generator := h.generator.trans (by rw [state]; rfl)
  inRange := by
    rintro slot ⟨⟩
    exact h.inRange _ (by rw [state]; rfl)

theorem Acquires.keeps (h : Acquires bound c σ result c' σ') (consistent : c.Consistent)
    (sound : σ.Sound) : c'.keys = c.keys ∧ c'.Consistent ∧ σ'.Sound := by
  cases h with
  | again => exact ⟨rfl, consistent, sound⟩
  | ended => exact ⟨rfl, consistent, sound⟩
  | failed _ around => exact ⟨rfl, consistent, around.sound⟩
  | taken _ inRange _ _ around => exact ⟨rfl, consistent_holding inRange, around.sound⟩

theorem Renews.keeps (h : Renews bound c σ result c' σ') (consistent : c.Consistent)
    (sound : σ.Sound) : c'.keys = c.keys ∧ c'.Consistent ∧ σ'.Sound := by
  cases h with
  | idle => exact ⟨rfl, consistent, sound⟩
  | renewed _ around => exact ⟨rfl, consistent, around.sound⟩
  | lost state around => exact ⟨rfl, consistent.losing state, around.sound⟩
  | failed _ around => exact ⟨rfl, consistent, around.sound⟩

theorem Releases.keeps (h : Releases bound c σ result c' σ') (consistent : c.Consistent)
    (sound : σ.Sound) : c'.keys = c.keys ∧ c'.Consistent ∧ σ'.Sound := by
  cases h with
  | idle => exact ⟨rfl, consistent, sound⟩
  | late state => exact ⟨rfl, consistent.late state, sound⟩
  | removed state around => exact ⟨rfl, consistent.releasing state, around.sound⟩
  | missing state around => exact ⟨rfl, consistent.releasing state, around.sound⟩
  | failed state around => exact ⟨rfl, consistent.releasing state, around.sound⟩

theorem Verifies.sound (h : Verifies bound c σ result σ') (sound : σ.Sound) : σ'.Sound := by
  cases h with
  | idle => exact sound
  | failed _ around => exact around.sound
  | missing _ around => exact around.sound
  | matching _ around => exact around.sound
  | other _ around => exact around.sound

theorem Makes.keeps (h : Makes c shown result c' later) (consistent : c.Consistent) :
    c'.keys = c.keys ∧ c'.state = c.state ∧ c'.Consistent := by
  cases h with
  | idle => exact ⟨rfl, rfl, consistent⟩
  | @asked g _ g' _ issuing generator makes =>
    have slot : g'.slot = g.slot := by cases makes <;> rfl
    refine ⟨rfl, rfl, consistent.issuing, ?_, consistent.inRange⟩
    rw [← consistent.generator, generator]
    exact congrArg some slot

end SlotLease.Coordinator
