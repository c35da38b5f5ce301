import SlotLease.Proofs.KeySpace
import SlotLease.Proofs.Retry
import SlotLease.Proofs.Store.Shared

/-!
Leasing on a shared store. Between any two requests of a program time goes on and others call the
store, only they write no lease of the key space; and any call may fail without effect.
-/

namespace SlotLease

def KeySpace.leases (keys : KeySpace) (p : Slot → Prop) (key : String) : Prop :=
  ∃ slot, p slot ∧ key = keys.leaseKey slot

def Slot.Beside (slot other : Slot) : Prop := other.InRange ∧ slot ≠ other

namespace Lease

def InTime (keys : KeySpace) (bound : Slot → Prop) (σ σ' : SharedStore) : Prop :=
  ∀ slot, bound slot → ∀ e, σ.shelf.entries (keys.leaseKey slot) = some e →
    σ'.shelf.now < e.deadline

inductive Outside (keys : KeySpace) (bound : Slot → Prop) : SharedStore → SharedStore → Prop
  | refl : Outside keys bound σ σ
  | passes : Outside keys bound σ σ₁ → σ₁.Passes σ₂ → InTime keys bound σ₁ σ₂ →
      Outside keys bound σ σ₂
  | calls {call : Store.Call} {reply : call.Reply} : Outside keys bound σ σ₁ →
      (∀ key, call.written? = some key → ¬ keys.leases Slot.InRange key) →
      SharedStore.Answers call σ₁ reply σ₂ → InTime keys bound σ₁ σ₂ → Outside keys bound σ σ₂

inductive Answers (keys : KeySpace) (bound : Slot → Prop) :
    (request : Request) → SharedStore → Reply request → SharedStore → Prop
  | call {call : Store.Call} {reply : call.Reply} : Outside keys bound σ σ₁ →
      SharedStore.Answers call σ₁ reply σ₂ → InTime keys bound σ₁ σ₂ →
      Answers keys bound (.store call) σ reply σ₂
  | fault {call : Store.Call} : Outside keys bound σ σ₁ →
      Answers keys bound (.store call) σ (.error cause) σ₁
  | sleep : Outside keys bound σ σ₁ → Answers keys bound (.sleep time) σ () σ₁

variable {keys : KeySpace} {bound p q : Slot → Prop} {σ σ₁ σ' : SharedStore}

/-- The leases on slots in `p` only age, and those on bound slots stay. -/
structure Around (keys : KeySpace) (bound p : Slot → Prop) (σ σ' : SharedStore) : Prop where
  span : σ'.span = σ.span
  sound : σ'.Sound
  ages : σ.shelf.Ages (keys.leases p) σ'.shelf
  held : ∀ slot, p slot → bound slot → ∀ e, σ.shelf.entries (keys.leaseKey slot) = some e →
    σ.shelf.now < e.deadline →
    σ'.shelf.entries (keys.leaseKey slot) = some e ∧ σ'.shelf.now < e.deadline

theorem Around.refl (sound : σ.Sound) : Around keys bound p σ σ :=
  ⟨rfl, sound, .refl _, fun _ _ _ _ found live => ⟨found, live⟩⟩

theorem Around.trans (h : Around keys bound p σ σ₁) (h' : Around keys bound p σ₁ σ') :
    Around keys bound p σ σ' where
  span := h'.span.trans h.span
  sound := h'.sound
  ages := h.ages.trans h'.ages
  held slot mem watched e found live := by
    obtain ⟨found, live⟩ := h.held slot mem watched e found live
    exact h'.held slot mem watched e found live

theorem Around.mono (h : Around keys bound p σ σ') (fewer : ∀ slot, q slot → p slot) :
    Around keys bound q σ σ' where
  span := h.span
  sound := h.sound
  ages := h.ages.mono fun _ ⟨slot, mem, same⟩ => ⟨slot, fewer slot mem, same⟩
  held slot mem := h.held slot (fewer slot mem)

theorem Around.beside (h : Around keys bound Slot.InRange σ σ') (slot : Slot) :
    Around keys bound slot.Beside σ σ' := h.mono fun _ mem => mem.1

theorem Around.of_inTime (span : σ'.span = σ.span) (sound : σ'.Sound)
    (ages : σ.shelf.Ages (keys.leases p) σ'.shelf) (inTime : InTime keys bound σ σ') :
    Around keys bound p σ σ' where
  span := span
  sound := sound
  ages := ages
  held slot mem watched e found _ := by
    have live := inTime slot watched e found
    exact ⟨ages.stays ⟨slot, mem, rfl⟩ found live, live⟩

theorem Around.not_live (h : Around keys bound p σ σ') {slot : Slot} (mem : p slot)
    (dead : ¬ σ.shelf.Live (keys.leaseKey slot)) : ¬ σ'.shelf.Live (keys.leaseKey slot) :=
  fun live => dead (h.ages.live ⟨slot, mem, rfl⟩ live)

theorem Outside.around (h : Outside keys bound σ σ') (sound : σ.Sound) :
    Around keys bound Slot.InRange σ σ' := by
  induction h with
  | refl => exact .refl sound
  | passes _ passes inTime ih =>
    have before := ih
    obtain ⟨span, stays, ages⟩ := passes.ages
    exact before.trans (.of_inTime span (stays before.sound) ages.weaken inTime)
  | calls _ foreign answered inTime ih =>
    have before := ih
    obtain ⟨span, sound, conforms⟩ := answered.conforms before.sound
    refine before.trans (.of_inTime span sound (conforms.ages.mono fun key lease same => ?_) inTime)
    exact foreign key same lease

theorem call_ensures {call : Store.Call} {Q : call.Reply → SharedStore → Prop} (sound : σ.Sound)
    (answered : ∀ reply σ₁ σ', Around keys bound Slot.InRange σ σ₁ →
      σ₁.shelf.Conforms σ.span call reply σ'.shelf →
      (∀ kept p, σ₁.shelf.Ages kept σ'.shelf →
        (∀ slot, p slot → slot.InRange ∧ kept (keys.leaseKey slot)) →
        Around keys bound p σ σ') → Q reply σ')
    (failed : ∀ cause σ', Around keys bound Slot.InRange σ σ' → Q (.error cause) σ') :
    Interaction.Ensures (Answers keys bound) (Lease.call call) Q σ := by
  intro reply σ' h
  cases h with
  | @call _ σ₁ _ _ _ outside answers inTime =>
    have around := outside.around sound
    obtain ⟨span, sound, conforms⟩ := answers.conforms around.sound
    rw [around.span] at conforms
    refine answered reply σ₁ σ' around conforms fun kept p ages mem => ?_
    refine (around.mono fun slot m => (mem slot m).1).trans (.of_inTime span sound ?_ inTime)
    exact ages.mono fun key ⟨slot, m, same⟩ => same ▸ (mem slot m).2
  | fault outside => exact failed _ _ (outside.around sound)

theorem list_ensures (sound : σ.Sound) :
    Interaction.Ensures (Answers keys bound) (Lease.call (.list keys.scanRoot)) (fun reply σ' =>
      Around keys bound Slot.InRange σ σ' ∧ (reply = .ok [] →
        ∀ slot : Slot, slot.InRange → ¬ σ'.shelf.Live (keys.leaseKey slot))) σ := by
  apply call_ensures sound
  · intro reply σ₁ σ' _ conforms around
    cases reply with
    | error cause =>
      exact ⟨around _ _ conforms.ages_of_error fun _ mem => ⟨mem, trivial⟩, fun ok => nomatch ok⟩
    | ok listed =>
      obtain ⟨ages, _, complete⟩ := conforms
      refine ⟨around _ _ ages fun _ mem => ⟨mem, trivial⟩, ?_⟩
      rintro ⟨⟩ slot _ live
      have mem := complete _ (keys.leaseKey_ne_empty slot) (keys.scanRoot_isPrefixOf slot) live
      exact nomatch mem
  · intro cause σ' around
    exact ⟨around, fun ok => nomatch ok⟩

theorem has_ensures (sound : σ.Sound) (key : String) :
    Interaction.Ensures (Answers keys bound) (Lease.call (.has key)) (fun reply σ' =>
      Around keys bound Slot.InRange σ σ' ∧ (reply = .ok false → ¬ σ'.shelf.Live key)) σ := by
  apply call_ensures sound
  · intro reply σ₁ σ' _ conforms around
    rcases reply with cause | _ | _
    · exact ⟨around _ _ conforms.ages_of_error fun _ mem => ⟨mem, trivial⟩, fun ok => nomatch ok⟩
    · exact ⟨around _ _ conforms.1 fun _ mem => ⟨mem, trivial⟩, fun _ => conforms.2⟩
    · exact ⟨around _ _ conforms.1 fun _ mem => ⟨mem, trivial⟩, fun ok => nomatch ok⟩
  · intro cause σ' around
    exact ⟨around, fun ok => nomatch ok⟩

theorem get_ensures (sound : σ.Sound) {slot : Slot} (inRange : slot.InRange) :
    Interaction.Ensures (Answers keys bound) (Lease.call (.get (keys.leaseKey slot)))
      (fun reply σ' => Around keys bound Slot.InRange σ σ' ∧ match reply with
        | .ok (some value) => ∃ e, σ.shelf.entries (keys.leaseKey slot) = some e ∧
            σ.shelf.now < e.deadline ∧ e.value = value
        | .ok none => ¬ σ'.shelf.Live (keys.leaseKey slot)
        | .error _ => True) σ := by
  apply call_ensures sound
  · intro reply σ₁ σ' before conforms around
    rcases reply with cause | _ | value
    · exact ⟨around _ _ conforms.ages_of_error fun _ mem => ⟨mem, trivial⟩, trivial⟩
    · exact ⟨around _ _ conforms.1 fun _ mem => ⟨mem, trivial⟩, conforms.2⟩
    · obtain ⟨ages, e, found, live, same⟩ := conforms
      exact ⟨around _ _ ages fun _ mem => ⟨mem, trivial⟩, e,
        before.ages.old ⟨slot, inRange, rfl⟩ found,
        Int.lt_of_le_of_lt before.ages.later live, same⟩
  · intro cause σ' around
    exact ⟨around, trivial⟩

theorem beside_lease {slot other : Slot} (h : slot.Beside other) :
    other.InRange ∧ Shelf.others (keys.leaseKey slot) (keys.leaseKey other) :=
  ⟨h.1, fun same => h.2 (keys.leaseKey_injective same)⟩

theorem set_ensures (sound : σ.Sound) (slot : Slot) (value : String) (ttl : Duration) :
    Interaction.Ensures (Answers keys bound) (Lease.call (.set (keys.leaseKey slot) value ttl))
      (fun reply σ' => match reply with
        | .ok () => Around keys bound slot.Beside σ σ' ∧ ∃ t, σ.shelf.now ≤ t ∧ t ≤ σ'.shelf.now ∧
            σ'.shelf.entries (keys.leaseKey slot) = some ⟨value, t + σ.span ttl⟩
        | .error _ => Around keys bound Slot.InRange σ σ') σ := by
  apply call_ensures sound
  · intro reply σ₁ σ' before conforms around
    cases reply with
    | error cause => exact around _ _ conforms.ages_of_error fun _ mem => ⟨mem, trivial⟩
    | ok =>
      obtain ⟨ages, t, low, high, entry⟩ := conforms
      exact ⟨around _ _ ages fun _ mem => beside_lease mem, t, Int.le_trans before.ages.later low,
        high, entry⟩
  · intro cause σ' around
    exact around

theorem refresh_ensures (sound : σ.Sound) {slot : Slot} (inRange : slot.InRange) (ttl : Duration) :
    Interaction.Ensures (Answers keys bound) (Lease.call (.refresh (keys.leaseKey slot) ttl))
      (fun reply σ' => match reply with
        | .ok true => Around keys bound slot.Beside σ σ' ∧
            ∃ e, σ.shelf.entries (keys.leaseKey slot) = some e ∧ σ.shelf.now < e.deadline ∧
              ∃ t, σ.shelf.now ≤ t ∧ t ≤ σ'.shelf.now ∧
                σ'.shelf.entries (keys.leaseKey slot) = some ⟨e.value, t + σ.span ttl⟩
        | .ok false => Around keys bound Slot.InRange σ σ' ∧
            ¬ σ'.shelf.Live (keys.leaseKey slot)
        | .error _ => Around keys bound Slot.InRange σ σ') σ := by
  apply call_ensures sound
  · intro reply σ₁ σ' before conforms around
    rcases reply with cause | _ | _
    · exact around _ _ conforms.ages_of_error fun _ mem => ⟨mem, trivial⟩
    · exact ⟨around _ _ conforms.1 fun _ mem => ⟨mem, trivial⟩, conforms.2⟩
    · obtain ⟨ages, e, found, live, t, low, high, entry⟩ := conforms
      have later := before.ages.later
      exact ⟨around _ _ ages fun _ mem => beside_lease mem, e,
        before.ages.old ⟨slot, inRange, rfl⟩ found, Int.lt_of_le_of_lt later live, t,
        Int.le_trans later low, high, entry⟩
  · intro cause σ' around
    exact around

theorem delete_ensures (sound : σ.Sound) {slot : Slot} (inRange : slot.InRange) :
    Interaction.Ensures (Answers keys bound) (Lease.call (.delete (keys.leaseKey slot)))
      (fun reply σ' => match reply with
        | .ok true => Around keys bound slot.Beside σ σ' ∧ σ.shelf.Live (keys.leaseKey slot) ∧
            σ'.shelf.entries (keys.leaseKey slot) = none
        | .ok false => Around keys bound Slot.InRange σ σ' ∧
            ¬ σ'.shelf.Live (keys.leaseKey slot)
        | .error _ => Around keys bound Slot.InRange σ σ') σ := by
  apply call_ensures sound
  · intro reply σ₁ σ' before conforms around
    rcases reply with cause | _ | _
    · exact around _ _ conforms.ages_of_error fun _ mem => ⟨mem, trivial⟩
    · exact ⟨around _ _ conforms.1 fun _ mem => ⟨mem, trivial⟩, conforms.2⟩
    · obtain ⟨ages, live, gone⟩ := conforms
      exact ⟨around _ _ ages fun _ mem => beside_lease mem,
        before.ages.live ⟨slot, inRange, rfl⟩ live, gone⟩
  · intro cause σ' around
    exact around

theorem sleep_ensures (sound : σ.Sound) (time : Duration) :
    Interaction.Ensures (Answers keys bound) (Lease.sleep time)
      (fun _ σ' => Around keys bound Slot.InRange σ σ') σ := by
  intro reply σ' h
  cases h with
  | sleep outside => exact outside.around sound

end Lease

open Interaction Lease

variable {keys : KeySpace} {bound : Slot → Prop} {σ : SharedStore}

theorem Retry.run_ensures (r : Retry) {call : Store.Call}
    {Q : Except Error call.Value → SharedStore → Prop} (sound : σ.Sound)
    (succeeded : ∀ σ₁, Around keys bound Slot.InRange σ σ₁ →
      Ensures (Answers keys bound) (Lease.call call) (fun reply σ' => match reply with
        | .ok value => Q (.ok value) σ'
        | .error _ => Around keys bound Slot.InRange σ₁ σ') σ₁)
    (failed : ∀ e σ', Around keys bound Slot.InRange σ σ' → Q (.error e) σ') :
    Ensures (Answers keys bound) (r.run call) Q σ := by
  refine r.run_upholds (I := Around keys bound Slot.InRange σ) ?_ ?_ (.refl sound)
  · intro σ₁ before
    refine (succeeded σ₁ before).mono fun reply σ' h => ?_
    cases reply with
    | error cause => exact ⟨before.trans h, failed _ _ (before.trans h)⟩
    | ok value => exact h
  · intro time σ₁ before
    exact (sleep_ensures before.sound time).mono fun _ _ slept => before.trans slept

end SlotLease
