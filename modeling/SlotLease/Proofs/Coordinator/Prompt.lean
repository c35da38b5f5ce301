import SlotLease.Proofs.Coordinator.Acquisition

namespace SlotLease

open Interaction Lease

namespace SharedStore

/-- What the clock of a store shows at a wall time. A store in memory has a clock of its own, which
goes along with the wall clock; `origin` is how far it is ahead. -/
def reading : SharedStore → (origin : Int) → (wall : Instant) → Int
  | .memory _ _, origin, wall => wall.nanos + origin
  | .files _, _, wall => wall.clock.toNat

inductive Meanwhile (kept : String → Prop) : SharedStore → SharedStore → Prop
  | refl : Meanwhile kept σ σ
  | calls {call : Store.Call} {reply : call.Reply} : Meanwhile kept σ σ₁ →
      (∀ key, call.written? = some key → ¬ kept key) → Answers call σ₁ reply σ₂ →
      σ₂.shelf.now = σ₁.shelf.now → Meanwhile kept σ σ₂

variable {kept kept' : String → Prop} {σ σ₁ σ' : SharedStore}

structure Stands (kept : String → Prop) (σ σ' : SharedStore) : Prop where
  span : σ'.span = σ.span
  reading : σ'.reading = σ.reading
  sound : σ'.Sound
  now : σ'.shelf.now = σ.shelf.now
  ages : σ.shelf.Ages kept σ'.shelf

theorem Answers.reading {call : Store.Call} {reply : call.Reply} (h : Answers call σ reply σ') :
    σ'.reading = σ.reading := by
  cases h <;> rfl

theorem Passes.reading (h : Passes σ σ') : σ'.reading = σ.reading := by
  cases h <;> rfl

theorem Stands.refl (sound : σ.Sound) : Stands kept σ σ := ⟨rfl, rfl, sound, rfl, .refl _⟩

theorem Stands.trans (h : Stands kept σ σ₁) (h' : Stands kept σ₁ σ') : Stands kept σ σ' where
  span := h'.span.trans h.span
  reading := h'.reading.trans h.reading
  sound := h'.sound
  now := h'.now.trans h.now
  ages := h.ages.trans h'.ages

theorem Stands.mono (h : Stands kept σ σ') (fewer : ∀ key, kept' key → kept key) :
    Stands kept' σ σ' := ⟨h.span, h.reading, h.sound, h.now, h.ages.mono fewer⟩

theorem Stands.entry (h : Stands kept σ σ') {key : String} {e : Shelf.Entry} (mem : kept key)
    (found : σ.shelf.entries key = some e) (live : σ.shelf.now < e.deadline) :
    σ'.shelf.entries key = some e :=
  h.ages.stays mem found (h.now.symm ▸ live)

theorem Answers.stands {call : Store.Call} {reply : call.Reply} (h : Answers call σ reply σ')
    (sound : σ.Sound) (now : σ'.shelf.now = σ.shelf.now) :
    Stands (call.written? ≠ some ·) σ σ' := by
  obtain ⟨span, sound', conforms⟩ := h.conforms sound
  exact ⟨span, h.reading, sound', now, conforms.ages⟩

theorem Meanwhile.stands (h : Meanwhile kept σ σ') (sound : σ.Sound) : Stands kept σ σ' := by
  induction h with
  | refl => exact .refl sound
  | calls _ foreign answers now ih =>
    have before := ih
    refine before.trans ((answers.stands before.sound now).mono fun key mem same => ?_)
    exact foreign key same mem

end SharedStore

namespace Lease

open SharedStore (Meanwhile Stands)

inductive Promptly (kept : String → Prop) :
    (request : Request) → SharedStore → Reply request → SharedStore → Prop
  | call {call : Store.Call} {value : call.Value} : Meanwhile kept σ σ₁ →
      SharedStore.Answers call σ₁ (.ok value) σ₂ → σ₂.shelf.now = σ₁.shelf.now →
      Promptly kept (.store call) σ (.ok value) σ₂

variable {kept : String → Prop} {σ σ' : SharedStore}

theorem Promptly.stands {request : Request} {reply : Reply request}
    (h : Promptly kept request σ reply σ') (sound : σ.Sound) :
    Stands (fun _ => False) σ σ' := by
  cases h with
  | call meanwhile answers now =>
    have before := meanwhile.stands sound
    have after := answers.stands before.sound now
    exact (before.mono fun _ => False.elim).trans (after.mono fun _ => False.elim)

theorem ensures_promptly {α : Type} {call : Store.Call} {next : call.Reply → Program α}
    {Q : α → SharedStore → Prop}
    (answered : ∀ value σ', Promptly kept (.store call) σ (.ok value) σ' →
      Ensures (Promptly kept) (next (.ok value)) Q σ') :
    Ensures (Promptly kept) (.ask (.store call) next) Q σ := by
  intro reply σ' h
  cases reply with
  | error cause => cases h
  | ok value => exact answered value σ' h

theorem set_promptly (sound : σ.Sound) {key value : String} {ttl : Duration} {done : Unit}
    (h : Promptly kept (.store (.set key value ttl)) σ (.ok done) σ') :
    σ'.shelf.entries key = some ⟨value, σ.shelf.now + σ.span ttl⟩ := by
  cases h with
  | call meanwhile answers now =>
    have before := meanwhile.stands sound
    obtain ⟨_, _, _, t, low, high, entry⟩ := answers.conforms before.sound
    have same : t = σ.shelf.now := by
      rw [now] at high
      exact (Int.le_antisymm high low).trans before.now
    rw [entry, before.span, same]

theorem refresh_promptly (sound : σ.Sound) {key : String} {ttl : Duration} {e : Shelf.Entry}
    {done : Bool} (mem : kept key) (found : σ.shelf.entries key = some e)
    (live : σ.shelf.now < e.deadline)
    (h : Promptly kept (.store (.refresh key ttl)) σ (.ok done) σ') : done = true ∧
      σ'.shelf.entries key = some ⟨e.value, σ.shelf.now + σ.span ttl⟩ := by
  cases h with
  | @call _ σ₁ _ _ _ meanwhile answers now =>
    have before := meanwhile.stands sound
    have found := before.entry mem found live
    obtain ⟨_, _, conforms⟩ := answers.conforms before.sound
    cases done with
    | false =>
      obtain ⟨ages, gone⟩ := conforms
      have live' : σ'.shelf.now < e.deadline := by
        rw [now, before.now]
        exact live
      exact absurd ⟨e, ages.stays trivial found live', live'⟩ gone
    | true =>
      obtain ⟨_, e', found', _, t, low, high, entry⟩ := conforms
      rw [found] at found'
      cases found'
      have same : t = σ.shelf.now := by
        rw [now] at high
        exact (Int.le_antisymm high low).trans before.now
      rw [entry, before.span, same]
      exact ⟨rfl, rfl⟩

end Lease

open Lease SharedStore

variable {kept : String → Prop} {σ : SharedStore}

theorem Retry.run_promptly (r : Retry) {call : Store.Call}
    {Q : Except Error call.Value → SharedStore → Prop}
    (answered : ∀ value σ', Promptly kept (.store call) σ (.ok value) σ' → Q (.ok value) σ') :
    Ensures (Promptly kept) (r.run call) Q σ := by
  rw [Retry.run]
  cases r.attempts - 1 with
  | zero => exact ensures_promptly answered
  | succ left => exact ensures_promptly answered

namespace Coordinator

variable {c : Coordinator} {slot : Slot}

theorem acquire_promptly (fresh : c.Fresh) (sound : σ.Sound) :
    Ensures (Promptly kept) c.acquire (fun result σ' => ∀ slot, result.1 = .ok slot →
      result.2 = c.holding slot ∧ Stands (fun _ => False) σ σ' ∧
        σ'.shelf.entries (c.keys.leaseKey slot) =
          some ⟨slot.toJson, σ.shelf.now + σ.span c.leaseTtl⟩) σ := by
  rw [acquire, fresh.state]
  simp only [reserve, ensures_bind]
  refine (c.always_findSlot.ensures (I := Stands (fun _ => False) σ) (.refl sound)
    fun r σ₁ reply σ₂ _ stands answered => stands.trans (answered.stands stands.sound)).mono ?_
  rintro (e | _ | slot) σ₁ ⟨inRange, stands⟩
  · rintro slot ⟨⟩
  · rintro slot ⟨⟩
  -- up to here the store was only read, and the lease is written at the first attempt
  · simp only [ensures_bind]
    refine c.retry.run_promptly fun _ σ₂ answered => ?_
    simp only [ensures_pure, hold_of_inRange (inRange slot rfl) fresh.generator]
    rintro slot ⟨⟩
    refine ⟨rfl, stands.trans (answered.stands stands.sound), ?_⟩
    rw [set_promptly stands.sound answered, stands.now, stands.span]

theorem renew_promptly (sound : σ.Sound) (state : c.state = .bound slot)
    (mem : kept (c.keys.leaseKey slot))
    (found : σ.shelf.entries (c.keys.leaseKey slot) = some e) (live : σ.shelf.now < e.deadline) :
    Ensures (Promptly kept) c.renew (fun result σ' => result = (.ok true, c) ∧
      Stands (fun _ => False) σ σ' ∧ σ'.shelf.entries (c.keys.leaseKey slot) =
        some ⟨e.value, σ.shelf.now + σ.span c.leaseTtl⟩) σ := by
  rw [renew, state]
  refine ensures_promptly fun renewed σ' answered => ?_
  obtain ⟨rfl, entry⟩ := refresh_promptly sound mem found live answered
  exact ⟨rfl, answered.stands sound, entry⟩

end Coordinator

end SlotLease
