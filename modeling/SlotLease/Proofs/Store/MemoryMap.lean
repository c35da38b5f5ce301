import SlotLease.Proofs.Store.Expiring
import SlotLease.Proofs.Store.Memory
import SlotLease.Proofs.Text.Utf8

namespace SlotLease

namespace MemoryStore

def scale : Scale := ⟨span, 0x8000000000000000 * 1000000000⟩

inductive Request where
  | call (call : Store.Call)
  | size
  | isEmpty
  | deadlineOf (key : String)

abbrev Reply : Request → Type
  | .call call => call.Reply
  | .size => Nat
  | .isEmpty => Bool
  | .deadlineOf _ => Option Instant

def replies {σ : Type} (serve : σ → Instant → (r : Request) → Reply r × σ) :
    σ → (asked : List (Instant × Request)) → List ((r : Request) × Reply r) × σ
  | s, [] => ([], s)
  | s, (now, r) :: rest =>
    let (reply, s) := serve s now r
    let (others, s) := replies serve s rest
    (⟨r, reply⟩ :: others, s)

def serve (s : MemoryStore) (now : Instant) : (r : Request) → Reply r × MemoryStore
  | .call call => s.answer now call
  | .size => (s.size now, s)
  | .isEmpty => (s.isEmpty now, s)
  | .deadlineOf key => (s.deadlineOf? now key, s)

end MemoryStore

def ExpiringMap.serve (m : ExpiringMap) (now : Instant) :
    (r : MemoryStore.Request) → MemoryStore.Reply r × ExpiringMap
  | .call call => m.answer MemoryStore.scale now.nanos now.nanos call
  | .size => ((m.visible now.nanos).keys.length, m)
  | .isEmpty => ((m.visible now.nanos).keys.isEmpty, m)
  | .deadlineOf key => (((m.visible now.nanos).get? key).map (⟨·.deadline⟩), m)

namespace MemoryStore

variable {s : MemoryStore} {m : ExpiringMap} {now : Instant} {ttl : Duration} {cause : StoreError}

theorem deadline?_eq_error (h : deadline? now ttl = .error cause) :
    cause = .ttlOutOfRange ttl ∧ scale.limit ≤ now.nanos + span ttl := by
  simp only [deadline?] at h
  split at h
  · cases h
  · rename_i above
    cases h
    refine ⟨rfl, ?_⟩
    simp only [Instant.seconds, Instant.add] at above
    simp only [scale, span]
    omega

theorem below_of_deadline?_eq_ok {deadline : Instant} (h : deadline? now ttl = .ok deadline) :
    deadline.nanos < scale.limit := by
  simp only [deadline?] at h
  split at h
  · rename_i below
    cases h
    simp only [Instant.seconds] at below
    simp only [scale]
    omega
  · cases h

theorem visible?_shelf (s : MemoryStore) (now : Instant) (key : String) :
    (s.shelf now).visible? now.nanos key =
      ((s.table.get? key).filter (·.isLive now)).map fun entry =>
        ⟨entry.value, entry.deadline.nanos⟩ := by
  simp only [Shelf.visible?, shelf, stored]
  cases s.table.get? key with
  | none => rfl
  | some entry =>
    simp only [Option.map_some, Option.filter_some, Entry.isLive]
    split <;> rfl

theorem visible?_isSome (s : MemoryStore) (now : Instant) (key : String) :
    (∃ e, (s.shelf now).visible? now.nanos key = some e) ↔
      ∃ entry, (s.table.filter fun _ entry => entry.isLive now).get? key = some entry := by
  rw [visible?_shelf, Table.get?_filter]
  cases (s.table.get? key).filter (·.isLive now) <;> simp

theorem list_precise (root : String) : (s.shelf now).Precise scale (.list root)
    (.ok (s.list now root).1) ((s.list now root).2.shelf now) := by
  refine ⟨?_, now.nanos, Int.le_refl _, Int.le_refl _, fun key => ?_⟩
  · exact ((Table.keys_ascending _).sublist (List.dropWhile_sublist _)).sublist
      (List.takeWhile_sublist _)
  · rw [list, Table.mem_keysFrom, visible?_isSome, and_comm]

theorem set_precise (key value : String) (ttl : Duration) :
    (s.shelf now).Precise scale (.set key value ttl) (s.set now key value ttl).1
      ((s.set now key value ttl).2.shelf now) := by
  unfold set
  cases ends : deadline? now ttl with
  | error cause =>
    obtain ⟨rfl, above⟩ := deadline?_eq_error ends
    exact ⟨rfl, now.nanos, Int.le_refl _, Int.le_refl _, above⟩
  | ok deadline =>
    intro e found
    cases (stored_insert key _).symm.trans found
    exact below_of_deadline?_eq_ok ends

theorem refresh_precise (key : String) (ttl : Duration) :
    (s.shelf now).Precise scale (.refresh key ttl) (s.refresh now key ttl).1
      ((s.refresh now key ttl).2.shelf now) := by
  unfold refresh
  cases ends : deadline? now ttl with
  | error cause =>
    obtain ⟨rfl, above⟩ := deadline?_eq_error ends
    exact ⟨rfl, now.nanos, Int.le_refl _, Int.le_refl _, above⟩
  | ok deadline =>
    have below := below_of_deadline?_eq_ok ends
    simp only
    cases (s.settle now key).table.get? key with
    | none =>
      rw [deadline?_eq_ok ends] at below
      exact ⟨now.nanos, Int.le_refl _, Int.le_refl _, below⟩
    | some entry =>
      intro e found
      cases (stored_insert key _).symm.trans found
      exact below

theorem answer_precise (s : MemoryStore) (now : Instant) (call : Store.Call) :
    (s.shelf now).Precise scale call (s.answer now call).1 ((s.answer now call).2.shelf now) := by
  cases call with
  | list root => exact list_precise root
  | set key value ttl => exact set_precise key value ttl
  | refresh key ttl => exact refresh_precise key ttl
  | has | get | delete => trivial

theorem answer_error {call : Store.Call} (failed : (s.answer now call).1 = .error cause) :
    (∃ ttl, cause = .ttlOutOfRange ttl) ∧ (s.answer now call).2 = s := by
  cases call with
  | list | has | get | delete => cases failed
  | set key value ttl =>
    simp only [answer, set] at failed ⊢
    cases ends : deadline? now ttl with
    | error cause =>
      simp only [ends] at failed ⊢
      cases failed
      exact ⟨⟨ttl, (deadline?_eq_error ends).1⟩, trivial⟩
    | ok deadline => simp [ends] at failed
  | refresh key ttl =>
    simp only [answer, refresh] at failed ⊢
    cases ends : deadline? now ttl with
    | error cause =>
      simp only [ends] at failed ⊢
      cases failed
      exact ⟨⟨ttl, (deadline?_eq_error ends).1⟩, trivial⟩
    | ok deadline =>
      simp only [ends] at failed
      split at failed <;> cases failed

theorem visible?_eq (h : (s.shelf now).Mirrors m) (key : String) :
    (s.shelf now).visible? now.nanos key = (m.visible now.nanos).get? key := h key

theorem keys_visible (h : (s.shelf now).Mirrors m) :
    (s.table.filter fun _ entry => entry.isLive now).keys = (m.visible now.nanos).keys := by
  refine (Table.keys_ascending _).eq_of_mem_iff (Table.keys_ascending _) fun key => ?_
  rw [Table.mem_keys, Table.mem_keys, ← visible?_eq h, visible?_isSome]

theorem size_eq (h : (s.shelf now).Mirrors m) :
    s.size now = (m.visible now.nanos).keys.length := by
  rw [← keys_visible h, Table.keys, List.length_map]
  rfl

theorem deadlineOf?_eq (h : (s.shelf now).Mirrors m) (key : String) :
    s.deadlineOf? now key = ((m.visible now.nanos).get? key).map (⟨·.deadline⟩) := by
  rw [← visible?_eq h, visible?_shelf, deadlineOf?, Option.map_map]
  rfl

theorem isEmpty_eq (h : (s.shelf now).Mirrors m) :
    s.isEmpty now = (m.visible now.nanos).keys.isEmpty := by
  rw [isEmpty, size_eq h]
  cases (m.visible now.nanos).keys <;> rfl

theorem serve_mirrors (h : (s.shelf now).Mirrors m) (r : Request) :
    (s.serve now r).1 = (m.serve now r).1 ∧
      ((s.serve now r).2.shelf now).Mirrors (m.serve now r).2 := by
  cases r with
  | call call =>
    obtain ⟨m', ⟨counted, looked, count, look, gives⟩, mirrors⟩ :=
      h.gives (answer_conforms s now call) (answer_precise s now call)
    -- no time passes within a call
    obtain rfl : now.nanos = counted := Int.le_antisymm count.1 count.2
    obtain rfl : now.nanos = looked := Int.le_antisymm look.1 look.2
    have given : m.serve now (.call call) = ((s.answer now call).1, m') := gives
    rw [given]
    exact ⟨rfl, mirrors⟩
  | size => exact ⟨size_eq h, h⟩
  | isEmpty => exact ⟨isEmpty_eq h, h⟩
  | deadlineOf key => exact ⟨deadlineOf?_eq h key, h⟩

theorem shelf_ages (s : MemoryStore) {later : Instant} (le : now.nanos ≤ later.nanos) :
    (s.shelf now).Ages Shelf.all (s.shelf later) := ⟨le, fun _ _ => .inl rfl⟩

theorem replies_mirrors {asked : List (Instant × Request)} (h : (s.shelf now).Mirrors m)
    (ordered : (now.nanos :: asked.map (·.1.nanos)).Pairwise (· ≤ ·)) :
    (replies serve s asked).1 = (replies ExpiringMap.serve m asked).1 ∧
      ∀ later : Instant, now.nanos ≤ later.nanos → (∀ a ∈ asked, a.1.nanos ≤ later.nanos) →
        ((replies serve s asked).2.shelf later).Mirrors (replies ExpiringMap.serve m asked).2 := by
  induction asked generalizing s m now with
  | nil => exact ⟨rfl, fun later le _ => h.ages (shelf_ages s le)⟩
  | cons first rest ih =>
    obtain ⟨time, r⟩ := first
    obtain ⟨le, ordered⟩ := List.pairwise_cons.1 ordered
    obtain ⟨same, mirrors⟩ := serve_mirrors (h.ages (shelf_ages s (le _ List.mem_cons_self))) r
    obtain ⟨others, rest_mirrors⟩ := ih mirrors ordered
    refine ⟨?_, fun later _ above => rest_mirrors later ?_ ?_⟩
    · simp only [replies, same, others]
    · exact above _ List.mem_cons_self
    · exact fun a mem => above a (List.mem_cons_of_mem _ mem)

theorem mirrors_empty (now : Instant) : (empty.shelf now).Mirrors ∅ := fun _ => rfl

theorem replies_from_empty {asked : List (Instant × Request)}
    (ordered : (asked.map (·.1.nanos)).Pairwise (· ≤ ·)) :
    (replies serve empty asked).1 = (replies ExpiringMap.serve ∅ asked).1 ∧
      ∀ later : Instant, (∀ a ∈ asked, a.1.nanos ≤ later.nanos) →
        ((replies serve empty asked).2.shelf later).Mirrors
          (replies ExpiringMap.serve ∅ asked).2 := by
  cases asked with
  | nil => exact ⟨rfl, fun later _ => mirrors_empty later⟩
  | cons first rest =>
    obtain ⟨le, _⟩ := List.pairwise_cons.1 ordered
    have since : (first.1.nanos :: (first :: rest).map (·.1.nanos)).Pairwise (· ≤ ·) := by
      refine List.pairwise_cons.2 ⟨fun time mem => ?_, ordered⟩
      rcases List.mem_cons.1 mem with rfl | mem
      · exact Int.le_refl _
      · exact le time mem
    obtain ⟨same, mirrors⟩ := replies_mirrors (mirrors_empty first.1) since
    exact ⟨same, fun later above => mirrors later (above _ List.mem_cons_self) above⟩

/-- The store replies as the map to whatever is asked while time goes on. At any later time it lists
what is visible, by the bytes of the keys, and a call that fails leaves it as it is. -/
theorem replies_as_map (asked : List (Instant × Request))
    (ordered : (asked.map (·.1.nanos)).Pairwise (· ≤ ·)) :
    let (given, s) := replies serve empty asked
    let (expected, m) := replies ExpiringMap.serve ∅ asked
    given = expected ∧ ∀ now : Instant, (∀ a ∈ asked, a.1.nanos ≤ now.nanos) →
      (∀ root, ∃ keys, (s.answer now (.list root)).1 = .ok keys ∧
        keys.Pairwise (fun a b => a.toUTF8.data.toList < b.toUTF8.data.toList) ∧
        ∀ key, key ∈ keys ↔ root.toList.isPrefixOf key.toList = true ∧
          ∃ e, m.get? key = some e ∧ now.nanos < e.deadline) ∧
      ∀ call cause, (s.answer now call).1 = .error cause →
        (∃ ttl, cause = .ttlOutOfRange ttl) ∧ (s.answer now call).2 = s := by
  obtain ⟨same, mirrors⟩ := replies_from_empty ordered
  refine ⟨same, fun now above => ⟨fun root => ?_, fun call cause => answer_error⟩⟩
  generalize (replies serve empty asked).2 = s at mirrors
  generalize (replies ExpiringMap.serve ∅ asked).2 = m at mirrors
  have precise : (s.shelf now).Precise scale (.list root) _ _ := list_precise root
  obtain ⟨ascending, looked, low, high, exact⟩ := precise
  obtain rfl : now.nanos = looked := Int.le_antisymm low high
  refine ⟨_, rfl, ascending.imp Utf8.toUTF8_lt, fun key => (exact key).trans ?_⟩
  rw [visible?_eq (mirrors now above), ExpiringMap.get?_visible]
  simp only [Option.filter_eq_some_iff, decide_eq_true_eq]

theorem replies_as_map_second :
    let long : Duration := ⟨0x200000000000000000000000⟩
    let asked : List (Instant × Request) :=
      [(⟨0⟩, .call (.set "a:1" "x" ⟨1000000001⟩)), (⟨0⟩, .call (.set "a:1" "y" long)),
        (.ofSeconds 1, .call (.list "a:")), (.ofSeconds 1, .deadlineOf "a:1"),
        (⟨1000000001⟩, .isEmpty)]
    (replies serve empty asked).1 = (replies ExpiringMap.serve ∅ asked).1 ∧
      (replies serve empty asked).1 =
        [⟨.call (.set "a:1" "x" ⟨1000000001⟩), .ok ()⟩,
          ⟨.call (.set "a:1" "y" long), .error (.ttlOutOfRange long)⟩,
          ⟨.call (.list "a:"), .ok ["a:1"]⟩, ⟨.deadlineOf "a:1", some ⟨1000000001⟩⟩,
          ⟨.isEmpty, true⟩] :=
  ⟨(replies_as_map _ (by decide)).1, by rfl⟩

end MemoryStore

end SlotLease
