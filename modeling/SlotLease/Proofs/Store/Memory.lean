import SlotLease.Proofs.Store.Shelf
import SlotLease.Proofs.Store.Table
import SlotLease.Store.Memory

namespace SlotLease.MemoryStore

variable {s : MemoryStore} {now : Instant}

def stored (s : MemoryStore) (key : String) : Option Shelf.Entry :=
  (s.table.get? key).map fun entry => ⟨entry.value, entry.deadline.nanos⟩

def shelf (s : MemoryStore) (now : Instant) : Shelf := ⟨s.stored, now.nanos⟩

def span (ttl : Duration) : Int := ttl.nanos

theorem isLive_iff {e : Entry} : e.isLive now = true ↔ now.nanos < e.deadline.nanos := by
  simp [Entry.isLive]

theorem stored_eq_some {key : String} {e : Shelf.Entry} :
    s.stored key = some e ↔
      ∃ entry, s.table.get? key = some entry ∧ ⟨entry.value, entry.deadline.nanos⟩ = e :=
  Option.map_eq_some_iff

theorem live_shelf {key : String} :
    (s.shelf now).Live key ↔ ∃ entry, s.table.get? key = some entry ∧ entry.isLive now = true := by
  constructor
  · rintro ⟨e, found, before⟩
    obtain ⟨entry, here, rfl⟩ := stored_eq_some.1 found
    exact ⟨entry, here, isLive_iff.2 before⟩
  · rintro ⟨entry, here, live⟩
    exact ⟨_, stored_eq_some.2 ⟨entry, here, rfl⟩, isLive_iff.1 live⟩

theorem ages_of_get? {s' : MemoryStore} (kept : String → Prop)
    (h : ∀ key, kept key → s'.table.get? key = s.table.get? key ∨
      s'.table.get? key = none ∧ ∀ e, s.table.get? key = some e → e.isLive now = false) :
    (s.shelf now).Ages kept (s'.shelf now) := by
  refine ⟨Int.le_refl _, fun key other => ?_⟩
  rcases h key other with same | ⟨gone, ended⟩
  · exact .inl (congrArg (Option.map _) same)
  · refine .inr ⟨congrArg (Option.map _) gone, fun e found => ?_⟩
    obtain ⟨entry, here, rfl⟩ := stored_eq_some.1 found
    exact Int.not_lt.1 fun before => Bool.noConfusion ((ended entry here).symm.trans
      (isLive_iff.2 before))

theorem ages_of_filter {s' : MemoryStore}
    (h : ∀ key, s'.table.get? key = s.table.get? key ∨
      s'.table.get? key = (s.table.get? key).filter (·.isLive now)) :
    (s.shelf now).Ages Shelf.all (s'.shelf now) := by
  apply ages_of_get?
  intro key _
  rcases h key with same | filtered
  · exact .inl same
  · cases found : s.table.get? key with
    | none => exact .inl (by simp [filtered, found])
    | some entry =>
      cases live : entry.isLive now with
      | true => exact .inl (by simp [filtered, found, live])
      | false => exact .inr ⟨by simp [filtered, found, live], by rintro e ⟨⟩; exact live⟩

theorem get?_settle (key : String) :
    (s.settle now key).table.get? key = (s.table.get? key).filter (·.isLive now) := by
  unfold settle
  split
  · rename_i entry found
    split
    · rename_i live
      rw [found, Option.filter_some, if_pos live]
    · rename_i ended
      rw [found, Option.filter_some, if_neg ended]
      simp
  · rename_i absent
    rw [absent]
    rfl

theorem get?_settle_of_ne {key key' : String} (other : key ≠ key') :
    (s.settle now key).table.get? key' = s.table.get? key' := by
  unfold settle
  split
  · split
    · rfl
    · simp [other]
  · rfl

theorem settle_ages (key : String) :
    (s.shelf now).Ages Shelf.all ((s.settle now key).shelf now) := by
  apply ages_of_filter
  intro key'
  by_cases same : key = key'
  · subst same
    exact .inr (get?_settle key)
  · exact .inl (get?_settle_of_ne same)

theorem insert_ages (key : String) (entry : Entry) :
    (s.shelf now).Ages (Shelf.others key)
      ((⟨s.table.insert key entry⟩ : MemoryStore).shelf now) := by
  apply ages_of_get?
  intro key' other
  left
  rw [Table.get?_insert, if_neg other]

theorem stored_insert (key : String) (entry : Entry) :
    (⟨s.table.insert key entry⟩ : MemoryStore).stored key =
      some ⟨entry.value, entry.deadline.nanos⟩ := by
  simp [stored]

theorem list_conforms (root : String) :
    (s.shelf now).Conforms span (.list root) (.ok (s.list now root).1)
      ((s.list now root).2.shelf now) := by
  refine ⟨?_, ?_, ?_⟩
  · apply ages_of_filter
    intro key
    exact .inr (Table.get?_filter ..)
  · intro key mem
    obtain ⟨⟨entry, here⟩, begins⟩ := Table.mem_keysFrom.1 mem
    rw [Table.get?_filter, Option.filter_eq_some_iff] at here
    exact ⟨begins, live_shelf.2 ⟨entry, here⟩⟩
  · intro key _ begins live
    obtain ⟨entry, here, _⟩ := live_shelf.1 live
    exact Table.mem_keysFrom.2 ⟨⟨entry, here⟩, begins⟩

theorem live_of_settle {key : String} {entry : Entry}
    (found : (s.settle now key).table.get? key = some entry) :
    s.table.get? key = some entry ∧ entry.isLive now = true := by
  rw [get?_settle, Option.filter_eq_some_iff] at found
  exact found

theorem not_live_of_settle {key : String} (absent : (s.settle now key).table.get? key = none) :
    ¬ ((s.settle now key).shelf now).Live key := by
  intro live
  obtain ⟨entry, here, _⟩ := live_shelf.1 live
  rw [absent] at here
  exact Option.some_ne_none entry here.symm

theorem has_conforms (key : String) :
    (s.shelf now).Conforms span (.has key) (.ok (s.has now key).1)
      ((s.has now key).2.shelf now) := by
  cases found : (s.settle now key).table.get? key with
  | none =>
    have result : s.has now key = (false, s.settle now key) := by simp [has, found]
    rw [result]
    exact ⟨settle_ages key, not_live_of_settle found⟩
  | some entry =>
    have result : s.has now key = (true, s.settle now key) := by simp [has, found]
    rw [result]
    exact ⟨settle_ages key, live_shelf.2 ⟨entry, live_of_settle found⟩⟩

theorem get_conforms (key : String) :
    (s.shelf now).Conforms span (.get key) (.ok (s.get now key).1)
      ((s.get now key).2.shelf now) := by
  cases found : (s.settle now key).table.get? key with
  | none =>
    have result : s.get now key = (none, s.settle now key) := by simp [get, found]
    rw [result]
    exact ⟨settle_ages key, not_live_of_settle found⟩
  | some entry =>
    have result : s.get now key = (some entry.value, s.settle now key) := by simp [get, found]
    obtain ⟨here, live⟩ := live_of_settle found
    rw [result]
    exact ⟨settle_ages key, _, stored_eq_some.2 ⟨entry, here, rfl⟩, isLive_iff.1 live, rfl⟩

theorem deadline?_eq_ok {ttl : Duration} {deadline : Instant}
    (h : deadline? now ttl = .ok deadline) : deadline.nanos = now.nanos + span ttl := by
  simp only [deadline?] at h
  split at h
  · cases h
    rfl
  · cases h

theorem set_conforms (key value : String) (ttl : Duration) :
    (s.shelf now).Conforms span (.set key value ttl) (s.set now key value ttl).1
      ((s.set now key value ttl).2.shelf now) := by
  unfold set
  cases ends : deadline? now ttl with
  | error cause => exact .refl _
  | ok deadline =>
    refine ⟨insert_ages key _, now.nanos, Int.le_refl _, Int.le_refl _, ?_⟩
    exact (stored_insert key _).trans (by rw [deadline?_eq_ok ends])

theorem refresh_conforms (key : String) (ttl : Duration) :
    (s.shelf now).Conforms span (.refresh key ttl) (s.refresh now key ttl).1
      ((s.refresh now key ttl).2.shelf now) := by
  cases ends : deadline? now ttl with
  | error cause =>
    have result : s.refresh now key ttl = (.error cause, s) := by simp [refresh, ends]
    rw [result]
    exact .refl _
  | ok deadline =>
    cases found : (s.settle now key).table.get? key with
    | none =>
      have result : s.refresh now key ttl = (.ok false, s.settle now key) := by
        simp [refresh, ends, found]
      rw [result]
      exact ⟨settle_ages key, not_live_of_settle found⟩
    | some entry =>
      have result : s.refresh now key ttl =
          (.ok true, ⟨(s.settle now key).table.insert key { entry with deadline }⟩) := by
        simp [refresh, ends, found]
      obtain ⟨here, live⟩ := live_of_settle found
      rw [result]
      refine ⟨(settle_ages key).weaken.trans (insert_ages key _), _,
        stored_eq_some.2 ⟨entry, here, rfl⟩, isLive_iff.1 live, now.nanos, Int.le_refl _,
        Int.le_refl _, ?_⟩
      exact (stored_insert key _).trans (by rw [deadline?_eq_ok ends])

theorem delete_conforms (key : String) :
    (s.shelf now).Conforms span (.delete key) (.ok (s.delete now key).1)
      ((s.delete now key).2.shelf now) := by
  have others : ∀ key', key ≠ key' → (s.table.erase key).get? key' = s.table.get? key' := by
    intro key' other
    rw [Table.get?_erase, if_neg other]
  have gone : (s.table.erase key).get? key = none := by rw [Table.get?_erase, if_pos rfl]
  cases live : (s.table.get? key).any (·.isLive now) with
  | true =>
    have result : s.delete now key = (true, ⟨s.table.erase key⟩) := by rw [delete, live]
    rw [result]
    refine ⟨?_, ?_, congrArg (Option.map _) gone⟩
    · apply ages_of_get?
      intro key' other
      exact .inl (others key' other)
    · rw [Option.any_eq_true] at live
      exact live_shelf.2 live
  | false =>
    have result : s.delete now key = (false, ⟨s.table.erase key⟩) := by rw [delete, live]
    rw [result]
    refine ⟨?_, ?_⟩
    · apply ages_of_get?
      intro key' _
      by_cases same : key = key'
      · subst same
        exact .inr ⟨gone, fun e here => by simpa [here] using live⟩
      · exact .inl (others key' same)
    · intro live
      obtain ⟨entry, here, _⟩ := live_shelf.1 live
      rw [gone] at here
      exact Option.some_ne_none entry here.symm

theorem answer_conforms (s : MemoryStore) (now : Instant) (call : Store.Call) :
    (s.shelf now).Conforms span call (s.answer now call).1 ((s.answer now call).2.shelf now) := by
  cases call with
  | list root => exact list_conforms root
  | has key => exact has_conforms key
  | get key => exact get_conforms key
  | set key value ttl => exact set_conforms key value ttl
  | refresh key ttl => exact refresh_conforms key ttl
  | delete key => exact delete_conforms key

end SlotLease.MemoryStore
