import SlotLease.Proofs.Coordinator.Acquisition
import SlotLease.Proofs.Fleet.Succession

namespace SlotLease

open Interaction Lease

structure Race (ι : Type) where
  fleet : Fleet ι
  pending : ι → Option (Lease.Program (Except Error Slot × Coordinator))

namespace Race

variable {ι : Type}

def still (f : Fleet ι) : Race ι := ⟨f, fun _ => none⟩

inductive Step [DecidableEq ι] (keys : KeySpace) (r : Race ι) : Race ι → Prop
  | whole : (∀ i, Fleet.Event.member? event = some i → r.pending i = none) →
      Fleet.Step keys False r.fleet event f → Step keys r { r with fleet := f }
  | begun : r.pending i = none →
      Step keys r { r with
        pending := Function.update r.pending i (some (r.fleet.members i).acquire) }
  | asked {request : Request} {reply : Reply request}
      {next : Reply request → Lease.Program (Except Error Slot × Coordinator)} :
      r.pending i = some (.ask request next) →
      Answers keys (fun _ => False) request r.fleet.store reply σ →
      Step keys r ⟨{ r.fleet with store := σ }, Function.update r.pending i (some (next reply))⟩
  | ended : r.pending i = some (.done (result, c)) →
      Step keys r ⟨r.fleet.put i c r.fleet.store, Function.update r.pending i none⟩

inductive Run [DecidableEq ι] (keys : KeySpace) (r : Race ι) : Race ι → Prop
  | start : Run keys r r
  | step : Run keys r r' → Step keys r' r'' → Run keys r r''

variable {keys : KeySpace} {σ σ' : SharedStore} {c : Coordinator} {r r' : Race ι} {i j : ι}

def Underway (keys : KeySpace) (c : Coordinator) (σ : SharedStore)
    (p : Lease.Program (Except Error Slot × Coordinator)) : Prop :=
  c.Orderly p ∨ ∃ slot : Slot, slot.InRange ∧ p = .done (.ok slot, c.holding slot) ∧
    Signed keys slot σ

theorem Underway.signs {p : Lease.Program (Except Error Slot × Coordinator)}
    (h : Underway keys c σ p) (signs : Signs keys σ σ') : Underway keys c σ' p := by
  rcases h with orderly | ⟨slot, inRange, done, signed⟩
  · exact .inl orderly
  · exact .inr ⟨slot, inRange, done, signs slot inRange signed⟩

theorem reads_around {bound : Slot → Prop} {call : Store.Call} {reply : call.Reply}
    (sound : σ.Sound) (reads : call.written? = none)
    (answered : Answers keys bound (.store call) σ reply σ') :
    Around keys bound Slot.InRange σ σ' := by
  refine call_ensures (Q := fun _ σ' => Around keys bound Slot.InRange σ σ') sound ?_ ?_ reply σ'
    answered
  · intro reply σ₁ σ' _ conforms around
    refine around _ _ conforms.ages fun slot inRange => ⟨inRange, ?_⟩
    rw [reads]
    exact nofun
  · exact fun _ _ around => around

theorem asked_underway {bound : Slot → Prop} {request : Request} {reply : Reply request}
    {next : Reply request → Lease.Program (Except Error Slot × Coordinator)} (sound : σ.Sound)
    (h : Underway c.keys c σ (.ask request next))
    (answered : Answers c.keys bound request σ reply σ') :
    σ'.Sound ∧ Signs c.keys σ σ' ∧ Underway c.keys c σ' (next reply) := by
  -- a program that is done asks nothing
  rcases h with orderly | ⟨slot, _, ⟨⟩, _⟩
  cases orderly with
  | reads reads rest =>
    have around := reads_around sound reads answered
    exact ⟨around.sound, around.signs, .inl (rest reply)⟩
  | sleeps rest =>
    have around := sleep_ensures sound _ reply σ' answered
    exact ⟨around.sound, around.signs, .inl rest⟩
  | @writes _ slot _ inRange written rest =>
    have set := set_ensures sound slot _ _ reply σ' answered
    cases reply with
    | error cause => exact ⟨set.sound, set.signs, .inl (rest cause)⟩
    | ok =>
      obtain ⟨around, t, _, _, entry⟩ := set
      have signed : Signed c.keys slot σ' := by
        intro e found
        rw [entry] at found
        cases found
        rfl
      exact ⟨around.sound, around.signs_beside fun _ => signed,
        .inr ⟨slot, inRange, written, signed⟩⟩

structure Sound (keys : KeySpace) (r : Race ι) : Prop where
  fleet : r.fleet.Sound keys
  named : r.fleet.Named keys
  pending : ∀ i p, r.pending i = some p → Underway keys (r.fleet.members i) r.fleet.store p

theorem still_sound {f : Fleet ι} (initial : f.Initial keys) : (still f).Sound keys where
  fleet := initial.sound
  named := initial.named
  pending _ _ found := nomatch found

theorem Sound.ended (h : r.Sound keys) {result : Except Error Slot}
    (found : r.pending i = some (.done (result, c))) :
    c.keys = (r.fleet.members i).keys ∧ c.Consistent ∧
      (r.fleet.members i).Signing r.fleet.store c r.fleet.store := by
  rcases h.pending i _ found with orderly | ⟨slot, inRange, done, signed⟩
  · cases orderly
    exact ⟨rfl, h.fleet.consistent i, .of_slot? (fun _ _ signed => signed) rfl⟩
  · cases done
    refine ⟨rfl, Coordinator.consistent_holding inRange, fun _ _ signed => signed, ?_⟩
    rintro _ ⟨⟩
    rw [h.fleet.keys i]
    exact .inr signed

variable [DecidableEq ι]

theorem pending_update {x : Option (Lease.Program (Except Error Slot × Coordinator))}
    {p : Lease.Program (Except Error Slot × Coordinator)}
    (found : Function.update r.pending i x j = some p) :
    j = i ∧ x = some p ∨ j ≠ i ∧ r.pending j = some p := by
  by_cases same : j = i
  · subst same
    rw [Function.update_self] at found
    exact .inl ⟨rfl, found⟩
  · rw [Function.update_of_ne same] at found
    exact .inr ⟨same, found⟩

theorem Step.sound (step : Step keys r r') (h : r.Sound keys) : r'.Sound keys := by
  cases step with
  | whole free step =>
    -- others are in the middle of their acquisitions, and the operation is of none of them
    refine ⟨step.sound h.fleet, step.named h.fleet h.named, fun j p found => ?_⟩
    have same := step.members_other fun own => Option.some_ne_none p (found.symm.trans (free j own))
    rw [same]
    exact (h.pending j p found).signs (step.signs h.fleet)
  | @begun i free =>
    refine ⟨h.fleet, h.named, fun j p found => ?_⟩
    rcases pending_update found with ⟨rfl, ⟨⟩⟩ | ⟨_, found⟩
    · exact .inl (Coordinator.acquire_orderly (h.fleet.consistent j))
    · exact h.pending j p found
  | @asked i σ request reply next found answered =>
    have same := h.fleet.keys i
    have underway := h.pending i _ found
    rw [← same] at underway answered
    obtain ⟨sound, signs, rest⟩ := asked_underway h.fleet.store underway answered
    rw [same] at signs rest
    refine ⟨⟨sound, h.fleet.keys, h.fleet.consistent⟩,
      h.named.signs h.fleet signs (fun _ => rfl) r.fleet.clock, fun j p found => ?_⟩
    rcases pending_update found with ⟨rfl, ⟨⟩⟩ | ⟨_, found⟩
    · exact rest
    · exact (h.pending j p found).signs signs
  | @ended i result c found =>
    obtain ⟨same, consistent, signing⟩ := h.ended found
    refine ⟨h.fleet.put ⟨same, consistent, h.fleet.store⟩, h.named.put h.fleet signing,
      fun j p found => ?_⟩
    rcases pending_update found with ⟨_, ⟨⟩⟩ | ⟨other, found⟩
    rw [Fleet.put_members_other _ _ _ other]
    exact h.pending j p found

theorem Run.sound (run : Run keys r r') (h : r.Sound keys) : r'.Sound keys := by
  induction run with
  | start => exact h
  | step _ step ih => exact step.sound ih

/-- If two members hold one slot, a verification of either finds so exactly if no lease is left on
the slot. -/
theorem sharing_detected_iff {f₀ f₁ f₂ : Fleet ι} {slot : Slot} (initial : f₀.Initial keys)
    (run : Run keys (still f₀) r) (mine : (r.fleet.members i).state = .bound slot)
    (theirs : (r.fleet.members j).state = .bound slot)
    (first : Fleet.Step keys False r.fleet (.verified i a) f₁)
    (second : Fleet.Step keys False f₁ (.verified j b) f₂)
    (answered : ∀ cause, a ≠ .error (.store cause) ∧ b ≠ .error (.store cause))
    (lasts : r.fleet.store.shelf.Live (keys.leaseKey slot) →
      f₂.store.shelf.Live (keys.leaseKey slot)) :
    ((∃ found, a = .error (.leaseMismatch (keys.leaseKey slot) slot found)) ∨
        ∃ found, b = .error (.leaseMismatch (keys.leaseKey slot) slot found)) ↔
      ¬ r.fleet.store.shelf.Live (keys.leaseKey slot) := by
  have sound := run.sound (still_sound initial)
  have inRange := (sound.fleet.consistent i).inRange slot (by rw [mine]; rfl)
  have sound₁ := first.sound sound.fleet
  have theirs : (f₁.members j).state = .bound slot := by
    cases first
    exact theirs
  have named₁ := first.named sound.fleet sound.named
  have own := (first.verified_lease sound.fleet mine
    (sound.named.names (by rw [mine]; rfl))).resolve_left
    fun ⟨cause, failed⟩ => (answered cause).1 failed
  have other := (second.verified_lease sound₁ theirs
    (named₁.names (by rw [theirs]; rfl))).resolve_left
    fun ⟨cause, failed⟩ => (answered cause).2 failed
  constructor
  · intro mismatch live
    have live₂ := lasts live
    have live₁ := (second.verified_around sound₁).ages.live ⟨slot, inRange, rfl⟩ live₂
    obtain ⟨rfl, _⟩ | ⟨_, gone⟩ := own
    · obtain ⟨rfl, _⟩ | ⟨_, gone⟩ := other
      · rcases mismatch with ⟨_, ⟨⟩⟩ | ⟨_, ⟨⟩⟩
      · exact gone live₂
    · exact gone live₁
  · intro ended
    obtain ⟨_, live⟩ | ⟨mismatch, _⟩ := own
    · exact absurd live ended
    · exact .inl ⟨none, mismatch⟩

theorem run_of_fleet {f₀ f : Fleet ι} (run : Fleet.Run keys False f₀ events f) :
    Run keys (still f₀) (still f) := by
  induction run with
  | start => exact .start
  | step _ step _ ih => exact ih.step (.whole (fun _ _ => rfl) step)

theorem sharing_undetected : ∃ r, Run Coordinator.standard.keys
    (still (Fleet.standard Bool (.ofMillis 1750000000000))) r ∧
      (∀ i, (r.fleet.members i).state = .bound ⟨0, 0⟩) ∧
        ∀ i, Fleet.Step Coordinator.standard.keys False r.fleet (.verified i (.ok ())) r.fleet := by
  obtain ⟨s, only, run⟩ := Fleet.run_takeover
  refine ⟨_, run_of_fleet run, fun _ => rfl, fun i => ?_⟩
  exact .verify rfl rfl rfl (only.current (by decide)) only.here (Slot.ofText?_toJson _)

theorem sharing_in_force : ∃ r, Run Coordinator.standard.keys
    (still (Fleet.standard Bool (.ofMillis 1750000000000))) r ∧
      (∀ i, (r.fleet.members i).state = .bound ⟨0, 0⟩) ∧
        r.fleet.store.shelf.Live (Coordinator.standard.keys.leaseKey ⟨0, 0⟩) := by
  obtain ⟨s, only, run⟩ := Fleet.run_takeover
  have verified : ∀ i, Fleet.Step Coordinator.standard.keys False (Fleet.takenOver s)
      (.verified i (.ok ())) (Fleet.takenOver s) :=
    fun i => .verify rfl rfl rfl (only.current (by decide)) only.here (Slot.ofText?_toJson _)
  refine ⟨_, run_of_fleet run, fun _ => rfl, ?_⟩
  by_contra ended
  obtain ⟨_, ⟨⟩⟩ | ⟨_, ⟨⟩⟩ := (sharing_detected_iff (Fleet.standard_initial _) (run_of_fleet run)
    rfl rfl (verified false) (verified true) (fun _ => ⟨nofun, nofun⟩) id).2 ended

end Race

end SlotLease
