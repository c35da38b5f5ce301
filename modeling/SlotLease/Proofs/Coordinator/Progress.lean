import SlotLease.Proofs.Coordinator.Operations

namespace SlotLease

open Interaction Lease

def MemoryStore.Only (s : MemoryStore) (key : String) (entry : MemoryStore.Entry) : Prop :=
  ∀ key', s.table.get? key' = if key = key' then some entry else none

def MemoryStore.Current (s : MemoryStore) (now : Instant) : Prop :=
  ∀ key entry, s.table.get? key = some entry → entry.isLive now = true

variable {keys : KeySpace} {bound : Slot → Prop} {s s' : MemoryStore} {now : Instant} {W : Type}
  {answers : (r : Request) → W → Reply r → W → Prop} {w w₁ w₂ : W}

theorem SharedStore.answers_memory {call : Store.Call} {reply : call.Reply}
    (answered : s.answer now call = (reply, s')) :
    SharedStore.Answers call (.memory s now) reply (.memory s' now) := by
  have answers : SharedStore.Answers call (.memory s now) _ _ :=
    .memory (Int.le_refl now.nanos)
  rwa [answered] at answers

theorem Lease.runs_memory {call : Store.Call} {reply : call.Reply}
    (answered : s.answer now call = (reply, s'))
    (inTime : InTime keys bound (.memory s now) (.memory s now)) :
    Runs (Answers keys bound) (Lease.call call) (.memory s now) reply (.memory s' now) :=
  .ask (.call .refl (SharedStore.answers_memory answered) inTime) .done

theorem Retry.runs_run (r : Retry) {call : Store.Call} {value : call.Value}
    (run : Runs answers (Lease.call call) w (.ok value) w₁) :
    Runs answers (r.run call) w (.ok value) w₁ := by
  rw [Retry.run]
  cases r.attempts - 1 with
  | zero => exact runs_bind run .done
  | succ left => exact runs_bind run .done

namespace MemoryStore

variable {key value : String} {ttl : Duration} {entry entry' : Entry}

theorem answer_list_of_ended (ended : ∀ key entry, s.table.get? key = some entry →
    entry.isLive now = false) (root : String) :
    ∃ s', s.answer now (.list root) = (.ok [], s') ∧ ∀ key, s'.table.get? key = none := by
  have gone : ∀ key, (s.list now root).2.table.get? key = none := by
    intro key
    rw [list, Table.get?_filter]
    cases found : s.table.get? key with
    | none => rfl
    | some entry => simp [ended key entry found]
  have empty : (s.list now root).1 = [] := by
    refine List.eq_nil_iff_forall_not_mem.2 fun key mem => ?_
    obtain ⟨⟨entry, here⟩, _⟩ := Table.mem_keysFrom.1 mem
    exact Option.some_ne_none entry (here.symm.trans (gone key))
  refine ⟨_, ?_, gone⟩
  simp only [answer, empty]

theorem Only.eq_insert (only : s.Only key entry) : s = ⟨Table.insert ∅ key entry⟩ := by
  suffices s.table = Table.insert ∅ key entry by rw [← this]
  apply Table.ext
  intro key'
  rw [only, Table.get?_insert]
  rfl

theorem answer_list_of_only (only : s.Only key entry) (live : entry.isLive now = true)
    {root : String} (begins : root.toList.isPrefixOf key.toList = true) :
    s.answer now (.list root) = (.ok [key], s) := by
  obtain rfl := only.eq_insert
  have kept : (Table.insert ∅ key entry).filter (fun _ entry => entry.isLive now) =
      Table.insert ∅ key entry := by
    apply Table.ext
    intro key'
    rw [Table.get?_filter, only]
    split <;> simp [live]
  have mem : key ∈ (Table.insert ∅ key entry).keysFrom root :=
    Table.mem_keysFrom.2 ⟨⟨entry, by simp⟩, begins⟩
  have alone : (Table.insert ∅ key entry).keysFrom root = [key] := by
    have sub : ((Table.insert ∅ key entry).keysFrom root).Sublist [key] :=
      (List.takeWhile_sublist _).trans (List.dropWhile_sublist _)
    rcases List.sublist_singleton.1 sub with none | one
    · rw [none] at mem
      cases mem
    · exact one
  simp only [answer, list, kept, alone]

theorem settle_of_live (here : s.table.get? key = some entry) (live : entry.isLive now = true) :
    s.settle now key = s := by
  simp [settle, here, live]

theorem deadline?_of_fits (fits : (now.add ttl).seconds < 0x8000000000000000) :
    deadline? now ttl = .ok (now.add ttl) := by
  rw [deadline?]
  exact if_pos fits

theorem answer_set (s : MemoryStore) (key value : String)
    (fits : (now.add ttl).seconds < 0x8000000000000000) :
    s.answer now (.set key value ttl) = (.ok (), ⟨s.table.insert key ⟨value, now.add ttl⟩⟩) := by
  simp only [answer, set, deadline?_of_fits fits]

theorem answer_refresh (here : s.table.get? key = some entry) (live : entry.isLive now = true)
    (fits : (now.add ttl).seconds < 0x8000000000000000) : s.answer now (.refresh key ttl) =
      (.ok true, ⟨s.table.insert key { entry with deadline := now.add ttl }⟩) := by
  simp only [answer, refresh, deadline?_of_fits fits, settle_of_live here live, here]

theorem Only.here (only : s.Only key entry) : s.table.get? key = some entry := by
  rw [only, if_pos rfl]

theorem Only.current (only : s.Only key entry) (live : entry.isLive now = true) :
    s.Current now := by
  intro key' entry' found
  rw [only] at found
  split at found
  · cases found
    exact live
  · cases found

theorem Current.insert (h : s.Current now) (key : String) (live : entry.isLive now = true) :
    Current ⟨s.table.insert key entry⟩ now := by
  intro key' entry' found
  rw [Table.get?_insert] at found
  split at found
  · cases found
    exact live
  · exact h key' entry' found

theorem Only.insert (only : s.Only key entry) : Only ⟨s.table.insert key entry'⟩ key entry' := by
  intro key'
  rw [Table.get?_insert, only]
  split <;> rfl

end MemoryStore

namespace Coordinator

variable {c : Coordinator} {slot : Slot} {entry : MemoryStore.Entry}

theorem runs_acquire_of_slot {slot : Slot} (fresh : c.Fresh) (inRange : slot.InRange)
    (found : Runs answers c.findSlot w (.ok (some slot)) w₁)
    (set : Runs answers (Lease.call (.set (c.keys.leaseKey slot) slot.toJson c.leaseTtl)) w₁
      (.ok ()) w₂) :
    Runs answers c.acquire w (.ok slot, c.holding slot) w₂ := by
  have reserved : Runs answers c.reserve w (.ok slot) w₂ :=
    runs_bind found (runs_bind (c.retry.runs_run set) .done)
  rw [acquire, fresh.state]
  refine runs_bind reserved ?_
  simp only [hold_of_inRange inRange fresh.generator]
  exact .done

theorem runs_acquire_of_calls (fresh : c.Fresh)
    (list : Runs answers (Lease.call (.list c.keys.scanRoot)) w (.ok []) w₁)
    (set : Runs answers (Lease.call
      (.set (c.keys.leaseKey ⟨0, 0⟩) (Slot.toJson ⟨0, 0⟩) c.leaseTtl)) w₁ (.ok ()) w₂) :
    Runs answers c.acquire w (.ok ⟨0, 0⟩, c.holding ⟨0, 0⟩) w₂ :=
  runs_acquire_of_slot fresh (by decide) (runs_bind (c.retry.runs_run list) .done) set

theorem runs_renew_of_call (state : c.state = .bound slot)
    (refresh : Runs answers (Lease.call (.refresh (c.keys.leaseKey slot) c.leaseTtl)) w
      (.ok true) w₁) : Runs answers c.renew w (.ok true, c) w₁ := by
  rw [renew, state]
  exact runs_bind refresh .done

theorem runs_acquire (fresh : c.Fresh)
    (ended : ∀ key entry, s.table.get? key = some entry → entry.isLive now = false)
    (fits : (now.add c.leaseTtl).seconds < 0x8000000000000000)
    (inTime : InTime keys bound (.memory s now) (.memory s now)) :
    ∃ s' : MemoryStore, s'.Only (c.keys.leaseKey ⟨0, 0⟩) ⟨Slot.toJson ⟨0, 0⟩, now.add c.leaseTtl⟩ ∧
      Runs (Answers keys bound) c.acquire (.memory s now) (.ok ⟨0, 0⟩, c.holding ⟨0, 0⟩)
        (.memory s' now) := by
  obtain ⟨s₁, listed, gone⟩ := MemoryStore.answer_list_of_ended ended c.keys.scanRoot
  have inTime₁ : InTime keys bound (.memory s₁ now) (.memory s₁ now) := by
    intro slot _ e found
    obtain ⟨entry, here, _⟩ := MemoryStore.stored_eq_some.1 found
    rw [gone] at here
    cases here
  refine ⟨_, fun key => ?_, runs_acquire_of_calls fresh (runs_memory listed inTime)
    (runs_memory (s₁.answer_set _ _ fits) inTime₁)⟩
  rw [Table.get?_insert, gone]

theorem runs_acquire_beside (fresh : c.Fresh)
    (only : s.Only (c.keys.leaseKey ⟨0, 0⟩) entry) (live : entry.isLive now = true)
    (named : Allocation.occupied c.keys [c.keys.leaseKey ⟨0, 0⟩] = [⟨0, 0⟩])
    (fits : (now.add c.leaseTtl).seconds < 0x8000000000000000)
    (inTime : InTime keys bound (.memory s now) (.memory s now)) :
    Runs (Answers keys bound) c.acquire (.memory s now) (.ok ⟨0, 1⟩, c.holding ⟨0, 1⟩)
      (.memory ⟨s.table.insert (c.keys.leaseKey ⟨0, 1⟩)
        ⟨Slot.toJson ⟨0, 1⟩, now.add c.leaseTtl⟩⟩ now) := by
  have other : c.keys.leaseKey ⟨0, 0⟩ ≠ c.keys.leaseKey ⟨0, 1⟩ := fun same =>
    absurd (c.keys.leaseKey_injective same) (by decide)
  have listed := MemoryStore.answer_list_of_only only live (c.keys.scanRoot_isPrefixOf ⟨0, 0⟩)
  have free : s.answer now (.has (c.keys.leaseKey ⟨0, 1⟩)) = (.ok false, s) := by
    have absent : s.table.get? (c.keys.leaseKey ⟨0, 1⟩) = none := by rw [only, if_neg other]
    simp [MemoryStore.answer, MemoryStore.has, MemoryStore.settle, absent]
  have first : (Allocation.candidates [⟨0, 0⟩]).head? = some ⟨0, 1⟩ := by decide +kernel
  obtain ⟨rest, tried⟩ := List.head?_eq_some_iff.1 first
  have found : Runs (Answers keys bound) c.findSlot (.memory s now) (.ok (some ⟨0, 1⟩))
      (.memory s now) := by
    refine runs_bind (c.retry.runs_run (runs_memory listed inTime)) ?_
    simp only [named, tried]
    exact runs_bind (c.retry.runs_run (runs_memory free inTime)) .done
  exact runs_acquire_of_slot fresh (by decide) found (runs_memory (s.answer_set _ _ fits) inTime)

theorem runs_renew (state : c.state = .bound slot)
    (here : s.table.get? (c.keys.leaseKey slot) = some entry) (live : entry.isLive now = true)
    (fits : (now.add c.leaseTtl).seconds < 0x8000000000000000)
    (inTime : InTime keys bound (.memory s now) (.memory s now)) :
    Runs (Answers keys bound) c.renew (.memory s now) (.ok true, c) (.memory
      ⟨s.table.insert (c.keys.leaseKey slot) { entry with deadline := now.add c.leaseTtl }⟩ now) :=
  runs_renew_of_call state (runs_memory (MemoryStore.answer_refresh here live fits) inTime)

theorem runs_release (state : c.state = .bound slot) (only : s.Only (c.keys.leaseKey slot) entry)
    (live : entry.isLive now = true) (inTime : InTime keys bound (.memory s now) (.memory s now)) :
    ∃ s' : MemoryStore, (∀ key, s'.table.get? key = none) ∧
      Runs (Answers keys bound) c.release (.memory s now) (.ok true, c.releasing slot)
        (.memory s' now) := by
  have deleted : s.answer now (.delete (c.keys.leaseKey slot)) =
      (.ok true, ⟨s.table.erase (c.keys.leaseKey slot)⟩) := by
    simp only [MemoryStore.answer, MemoryStore.delete, only.here, Option.any_some, live]
  refine ⟨⟨s.table.erase (c.keys.leaseKey slot)⟩, fun key => ?_, ?_⟩
  · rw [Table.get?_erase, only]
    split <;> rfl
  · rw [release, state]
    exact runs_bind (runs_memory deleted inTime) .done

theorem runs_verify (state : c.state = .bound slot) (issuing : c.issuing = true)
    (here : s.table.get? (c.keys.leaseKey slot) = some entry)
    (named : Slot.ofText? entry.value = some slot) (live : entry.isLive now = true)
    (inTime : InTime keys bound (.memory s now) (.memory s now)) :
    Runs (Answers keys bound) c.verify (.memory s now) (.ok ()) (.memory s now) := by
  have got : s.answer now (.get (c.keys.leaseKey slot)) = (.ok (some entry.value), s) := by
    simp only [MemoryStore.answer, MemoryStore.get, MemoryStore.settle_of_live here live,
      here, Option.map_some]
  rw [verify, issuing, state]
  refine runs_bind (runs_memory got inTime) ?_
  simp only [Option.bind_some, named, if_true]
  exact .done

theorem runs_next {g : Locked} {id : Id} {clock reading : UInt64} (issuing : c.issuing = true)
    (generator : c.generator = some g) (healthy : g.poisoned = false) (le : clock ≤ reading)
    (advanced : Generator.advance g.epoch g.last reading = .ok (some id)) :
    Runs Clock.Answers (c.next 1) clock
      (some (.value id), { c with generator := some { g with last := id } }) reading := by
  have polled : Runs Clock.Answers g.poll clock (.value (.ready id), { g with last := id })
      reading := by
    rw [Locked.poll_eq_advance, healthy]
    refine runs_bind (.ask ⟨le, .inl rfl⟩ .done) ?_
    simp only [advanced]
    exact .done
  have active : c.activeGenerator = .ok g := by simp [activeGenerator, generator, issuing]
  rw [next, active]
  exact runs_bind (runs_bind polled .done) .done

end Coordinator

end SlotLease
