import SlotLease.Store.Call

/-!
What stores have in common: entries that end at a deadline and may be dropped any time after it.
`Conforms` says of a call what its reply tells and what it does to the entries, while time passes.
-/

namespace SlotLease

def Store.Call.key? : Store.Call → Option String
  | .list _ => none
  | .has key => some key
  | .get key => some key
  | .set key _ _ => some key
  | .refresh key _ => some key
  | .delete key => some key

def Store.Call.written? : Store.Call → Option String
  | .list _ => none
  | .has _ => none
  | .get _ => none
  | .set key _ _ => some key
  | .refresh key _ => some key
  | .delete key => some key

structure Shelf.Entry where
  value : String
  deadline : Int

/-- The entries of a store at a time, with those that have ended and have not been dropped yet. -/
structure Shelf where
  entries : String → Option Shelf.Entry
  now : Int

namespace Shelf

variable {m m' m'' : Shelf} {key : String} {kept kept' : String → Prop} {span : Duration → Int}

def Live (m : Shelf) (key : String) : Prop := ∃ e, m.entries key = some e ∧ m.now < e.deadline

def Within (P : String → Prop) (m : Shelf) : Prop := ∀ key e, m.entries key = some e → P key

def all : String → Prop := fun _ => True

def others (key : String) : String → Prop := (key ≠ ·)

/-- Time passes, and the entry of a key in `kept` stays or is dropped after its end. -/
structure Ages (kept : String → Prop) (m m' : Shelf) : Prop where
  later : m.now ≤ m'.now
  entries : ∀ key, kept key → m'.entries key = m.entries key ∨
    m'.entries key = none ∧ ∀ e, m.entries key = some e → e.deadline ≤ m'.now

theorem Ages.refl (m : Shelf) : m.Ages kept m := ⟨Int.le_refl _, fun _ _ => .inl rfl⟩

theorem Ages.trans (h : m.Ages kept m') (h' : m'.Ages kept m'') : m.Ages kept m'' where
  later := Int.le_trans h.later h'.later
  entries key mem := by
    rcases h'.entries key mem with same' | ⟨gone', ended'⟩
    · rcases h.entries key mem with same | ⟨gone, ended⟩
      · exact .inl (same'.trans same)
      · exact .inr ⟨same'.trans gone, fun e he => Int.le_trans (ended e he) h'.later⟩
    · rcases h.entries key mem with same | ⟨gone, ended⟩
      · exact .inr ⟨gone', fun e he => ended' e (same.trans he)⟩
      · exact .inr ⟨gone', fun e he => Int.le_trans (ended e he) h'.later⟩

theorem Ages.mono (h : m.Ages kept m') (fewer : ∀ key, kept' key → kept key) : m.Ages kept' m' :=
  ⟨h.later, fun key mem => h.entries key (fewer key mem)⟩

theorem Ages.weaken (h : m.Ages all m') : m.Ages kept m' := h.mono fun _ _ => trivial

theorem Ages.stays (h : m.Ages kept m') (mem : kept key) (found : m.entries key = some e)
    (live : m'.now < e.deadline) : m'.entries key = some e := by
  rcases h.entries key mem with same | ⟨_, ended⟩
  · exact same.trans found
  · exact absurd (ended e found) (Int.not_le.2 live)

theorem Ages.old (h : m.Ages kept m') (mem : kept key) (found : m'.entries key = some e) :
    m.entries key = some e := by
  rcases h.entries key mem with same | ⟨gone, _⟩
  · exact same.symm.trans found
  · rw [gone] at found
    exact absurd found.symm (Option.some_ne_none e)

theorem Ages.live (h : m.Ages kept m') (mem : kept key) (live : m'.Live key) : m.Live key := by
  obtain ⟨e, found, before⟩ := live
  exact ⟨e, h.old mem found, Int.lt_of_le_of_lt h.later before⟩

/-- What a reply tells of the entries before a call, and what the call makes of them; a time to live
is `span` long. A call that fails has no effect. -/
def Conforms (span : Duration → Int) (m : Shelf) (call : Store.Call) (reply : call.Reply)
    (m' : Shelf) : Prop :=
  match call, reply with
  | .list root, .ok keys => m.Ages all m' ∧
      (∀ key ∈ keys, root.toList.isPrefixOf key.toList = true ∧ m.Live key) ∧
      ∀ key, key ≠ "" → root.toList.isPrefixOf key.toList = true → m'.Live key → key ∈ keys
  | .has key, .ok true => m.Ages all m' ∧ m.Live key
  | .has key, .ok false => m.Ages all m' ∧ ¬ m'.Live key
  | .get key, .ok (some value) => m.Ages all m' ∧
      ∃ e, m.entries key = some e ∧ m.now < e.deadline ∧ e.value = value
  | .get key, .ok none => m.Ages all m' ∧ ¬ m'.Live key
  | .set key value ttl, .ok () => m.Ages (others key) m' ∧
      ∃ t, m.now ≤ t ∧ t ≤ m'.now ∧ m'.entries key = some ⟨value, t + span ttl⟩
  | .refresh key ttl, .ok true => m.Ages (others key) m' ∧
      ∃ e, m.entries key = some e ∧ m.now < e.deadline ∧
        ∃ t, m.now ≤ t ∧ t ≤ m'.now ∧ m'.entries key = some ⟨e.value, t + span ttl⟩
  | .refresh key _, .ok false => m.Ages all m' ∧ ¬ m'.Live key
  | .delete key, .ok true => m.Ages (others key) m' ∧ m.Live key ∧ m'.entries key = none
  | .delete key, .ok false => m.Ages all m' ∧ ¬ m'.Live key
  | _, .error _ => m.Ages all m'

theorem Conforms.ages {call : Store.Call} {reply : call.Reply}
    (h : m.Conforms span call reply m') : m.Ages (call.written? ≠ some ·) m' := by
  unfold Conforms at h
  split at h
  case h_6 | h_7 | h_9 => exact h.1.mono fun _ other same => other (congrArg some same)
  case h_11 => exact h.weaken
  all_goals exact h.1.weaken

theorem Conforms.after {call : Store.Call} {reply : call.Reply} (earlier : m.Ages all m')
    (h : m'.Conforms span call reply m'') : m.Conforms span call reply m'' := by
  have now := earlier.later
  have live : ∀ {key}, m'.Live key → m.Live key := fun live => earlier.live trivial live
  unfold Conforms at h ⊢
  split at h
  case h_1 =>
    obtain ⟨ages, listed, complete⟩ := h
    refine ⟨earlier.trans ages, fun key mem => ?_, complete⟩
    obtain ⟨begins, present⟩ := listed key mem
    exact ⟨begins, live present⟩
  case h_2 => exact ⟨earlier.trans h.1, live h.2⟩
  case h_4 =>
    obtain ⟨ages, e, found, before, same⟩ := h
    exact ⟨earlier.trans ages, e, earlier.old trivial found, Int.lt_of_le_of_lt now before, same⟩
  case h_6 =>
    obtain ⟨ages, t, low, high, entry⟩ := h
    exact ⟨earlier.weaken.trans ages, t, Int.le_trans now low, high, entry⟩
  case h_7 =>
    obtain ⟨ages, e, found, before, t, low, high, entry⟩ := h
    exact ⟨earlier.weaken.trans ages, e, earlier.old trivial found, Int.lt_of_le_of_lt now before,
      t, Int.le_trans now low, high, entry⟩
  case h_9 => exact ⟨earlier.weaken.trans h.1, live h.2.1, h.2.2⟩
  case h_11 => exact earlier.trans h
  all_goals exact ⟨earlier.trans h.1, h.2⟩

theorem Conforms.ages_of_error {call : Store.Call} {cause : StoreError}
    (h : m.Conforms span call (.error cause) m') : m.Ages all m' := by
  cases call <;> exact h

theorem Conforms.of_error {call : Store.Call} {cause : StoreError} (h : m.Ages all m') :
    m.Conforms span call (.error cause) m' := by
  cases call <;> exact h

theorem Conforms.within {P : String → Prop} {call : Store.Call} {reply : call.Reply}
    (h : m.Conforms span call reply m') (within : m.Within P)
    (named : ∀ key, call.key? = some key → P key) : m'.Within P := by
  intro key e found
  by_cases written : call.written? = some key
  · apply named
    cases call <;> first | exact written | cases written
  · exact within key e (h.ages.old written found)

end Shelf

end SlotLease
