import Mathlib.Data.List.Sort
import SlotLease.Proofs.Store.Shelf
import SlotLease.Proofs.Store.Table

/-!
The map that a store stands for: entries are visible until their deadline and never dropped. A call
whose reply conforms to a shelf, and is `Precise` where that leaves a choice, is answered as the map
answers it; so nobody can tell which of the ended entries a store has dropped already.
-/

namespace SlotLease

structure Scale where
  span : Duration → Int
  limit : Int

def Scale.deadline? (scale : Scale) (now : Int) (ttl : Duration) : Except StoreError Int :=
  if now + scale.span ttl < scale.limit then .ok (now + scale.span ttl)
  else .error (.ttlOutOfRange ttl)

abbrev ExpiringMap : Type := Table Shelf.Entry

namespace ExpiringMap

def visible (m : ExpiringMap) (now : Int) : ExpiringMap := m.filter fun _ e => now < e.deadline

def listed (m : ExpiringMap) (now : Int) (root : String) : List String :=
  (m.visible now).keys.filter fun key => root.toList.isPrefixOf key.toList

/-- Answers a call that counts a time to live from one time and looks at the map at another. -/
def answer (scale : Scale) (counted looked : Int) (m : ExpiringMap) :
    (call : Store.Call) → call.Reply × ExpiringMap
  | .list root => (.ok (m.listed looked root), m)
  | .has key => (.ok ((m.visible looked).get? key).isSome, m)
  | .get key => (.ok (((m.visible looked).get? key).map (·.value)), m)
  | .set key value ttl =>
    match scale.deadline? counted ttl with
    | .error e => (.error e, m)
    | .ok deadline => (.ok (), m.insert key ⟨value, deadline⟩)
  | .refresh key ttl =>
    match scale.deadline? counted ttl with
    | .error e => (.error e, m)
    | .ok deadline =>
      match (m.visible looked).get? key with
      | some e => (.ok true, m.insert key ⟨e.value, deadline⟩)
      | none => (.ok false, m)
  | .delete key =>
    match (m.visible looked).get? key with
    | some _ => (.ok true, m.erase key)
    | none => (.ok false, m)

def Gives (scale : Scale) (began ended : Int) (m : ExpiringMap) (call : Store.Call)
    (reply : call.Reply) (m' : ExpiringMap) : Prop :=
  ∃ counted looked, (began ≤ counted ∧ counted ≤ ended) ∧ (began ≤ looked ∧ looked ≤ ended) ∧
    m.answer scale counted looked call = (reply, m')

theorem get?_visible (m : ExpiringMap) (now : Int) (key : String) :
    (m.visible now).get? key = (m.get? key).filter (now < ·.deadline) := Table.get?_filter ..

theorem mem_listed {m : ExpiringMap} {now : Int} {root key : String} :
    key ∈ m.listed now root ↔
      root.toList.isPrefixOf key.toList = true ∧ ∃ e, (m.visible now).get? key = some e := by
  rw [listed, List.mem_filter, Table.mem_keys, and_comm]

end ExpiringMap

namespace Shelf

variable {s s' : Shelf} {m : ExpiringMap} {scale : Scale} {call : Store.Call} {key : String}
  {kept : String → Prop} {now now' : Int}

def visible? (s : Shelf) (now : Int) (key : String) : Option Entry :=
  (s.entries key).filter (now < ·.deadline)

def Mirrors (s : Shelf) (m : ExpiringMap) : Prop :=
  ∀ key, s.visible? s.now key = (m.visible s.now).get? key

/-- What a reply tells beyond `Conforms`: keys are listed by one look at all entries, in ascending
order, and a call fails only where its time to live cannot be counted. -/
def Precise (scale : Scale) (s : Shelf) (call : Store.Call) (reply : call.Reply) (s' : Shelf) :
    Prop :=
  match call, reply with
  | .list root, .ok keys => keys.Pairwise (· < ·) ∧ ∃ looked, s.now ≤ looked ∧ looked ≤ s'.now ∧
      ∀ key, key ∈ keys ↔
        root.toList.isPrefixOf key.toList = true ∧ ∃ e, s.visible? looked key = some e
  | .set key _ _, .ok () => ∀ e, s'.entries key = some e → e.deadline < scale.limit
  | .refresh key _, .ok true => ∀ e, s'.entries key = some e → e.deadline < scale.limit
  | .refresh _ ttl, .ok false => ∃ counted, s.now ≤ counted ∧ counted ≤ s'.now ∧
      counted + scale.span ttl < scale.limit
  | .set _ _ ttl, .error cause | .refresh _ ttl, .error cause => cause = .ttlOutOfRange ttl ∧
      ∃ counted, s.now ≤ counted ∧ counted ≤ s'.now ∧ scale.limit ≤ counted + scale.span ttl
  | _, .error _ => False
  | _, .ok _ => True

theorem filter_later (le : now ≤ now') (e : Option Entry) :
    (e.filter (now < ·.deadline)).filter (now' < ·.deadline) = e.filter (now' < ·.deadline) := by
  rw [Option.filter_filter]
  congr 1
  funext e
  rw [← Bool.decide_and]
  exact decide_eq_decide.2 (and_iff_right_of_imp (Int.lt_of_le_of_lt le))

theorem visible?_eq_some {e : Entry} :
    s.visible? now key = some e ↔ s.entries key = some e ∧ now < e.deadline := by
  rw [visible?, Option.filter_eq_some_iff, decide_eq_true_eq]

theorem visible?_eq_none (ended : ∀ e, s.entries key = some e → e.deadline ≤ now) :
    s.visible? now key = none := by
  rw [visible?, Option.filter_eq_none_iff]
  intro e found
  simpa using ended e found

theorem Mirrors.later (h : s.Mirrors m) (le : s.now ≤ now) (key : String) :
    s.visible? now key = (m.visible now).get? key := by
  have same := h key
  rw [visible?, ExpiringMap.get?_visible] at same ⊢
  rw [← filter_later le, same, filter_later le]

theorem Ages.visible? (h : s.Ages kept s') (mem : kept key) :
    s'.visible? s'.now key = s.visible? s'.now key := by
  rcases h.entries key mem with same | ⟨gone, ended⟩
  · rw [Shelf.visible?, same]
    rfl
  · rw [visible?_eq_none ended, Shelf.visible?, gone]
    rfl

theorem Mirrors.ages (h : s.Mirrors m) (ages : s.Ages all s') : s'.Mirrors m := by
  intro key
  rw [ages.visible? trivial, h.later ages.later]

theorem Mirrors.insert (h : s.Mirrors m) (ages : s.Ages (others key) s') {e : Entry}
    (entry : s'.entries key = some e) : s'.Mirrors (m.insert key e) := by
  intro key'
  rw [ExpiringMap.get?_visible, Table.get?_insert]
  by_cases same : key = key'
  · subst same
    rw [if_pos rfl, Shelf.visible?, entry]
  · rw [if_neg same, ages.visible? same, h.later ages.later, ExpiringMap.get?_visible]

theorem Mirrors.erase (h : s.Mirrors m) (ages : s.Ages (others key) s')
    (gone : s'.entries key = none) : s'.Mirrors (m.erase key) := by
  intro key'
  rw [ExpiringMap.get?_visible, Table.get?_erase]
  by_cases same : key = key'
  · subst same
    rw [if_pos rfl, Shelf.visible?, gone]
  · rw [if_neg same, ages.visible? same, h.later ages.later, ExpiringMap.get?_visible]

theorem Mirrors.absent (h : s.Mirrors m) (absent : ¬ s.Live key) :
    (m.visible s.now).get? key = none := by
  rw [← h key]
  cases found : s.visible? s.now key with
  | none => rfl
  | some e => exact absurd ⟨e, visible?_eq_some.1 found⟩ absent

theorem Mirrors.present (h : s.Mirrors m) {e : Entry} (found : s.entries key = some e)
    (before : s.now < e.deadline) : (m.visible s.now).get? key = some e :=
  (h key).symm.trans (visible?_eq_some.2 ⟨found, before⟩)

theorem Mirrors.listed (h : s.Mirrors m) (le : s.now ≤ now) {keys : List String} {root : String}
    (ascending : keys.Pairwise (· < ·)) (exact : ∀ key, key ∈ keys ↔
      root.toList.isPrefixOf key.toList = true ∧ ∃ e, s.visible? now key = some e) :
    m.listed now root = keys := by
  refine ((Table.keys_ascending _).filter _).eq_of_mem_iff ascending fun key => ?_
  rw [exact, h.later le]
  exact ExpiringMap.mem_listed

theorem deadline?_eq_ok {ttl : Duration} (below : now + scale.span ttl < scale.limit) :
    scale.deadline? now ttl = .ok (now + scale.span ttl) := if_pos below

theorem deadline?_eq_error {ttl : Duration} (above : scale.limit ≤ now + scale.span ttl) :
    scale.deadline? now ttl = .error (.ttlOutOfRange ttl) := if_neg (Int.not_lt.2 above)

theorem Ages.bounds (h : s.Ages kept s') :
    (s.now ≤ s.now ∧ s.now ≤ s'.now) ∧ s.now ≤ s'.now ∧ s'.now ≤ s'.now :=
  ⟨⟨Int.le_refl _, h.later⟩, h.later, Int.le_refl _⟩

theorem Mirrors.list_gives {root : String} {reply : (Store.Call.list root).Reply} (h : s.Mirrors m)
    (conforms : s.Conforms scale.span (.list root) reply s')
    (precise : s.Precise scale (.list root) reply s') :
    ∃ m', m.Gives scale s.now s'.now (.list root) reply m' ∧ s'.Mirrors m' := by
  cases reply with
  | error cause => exact precise.elim
  | ok keys =>
    obtain ⟨ascending, looked, low, high, exact⟩ := precise
    refine ⟨m, ⟨looked, looked, ⟨low, high⟩, ⟨low, high⟩, ?_⟩, h.ages conforms.1⟩
    rw [ExpiringMap.answer, h.listed low ascending exact]

theorem Mirrors.has_gives {reply : (Store.Call.has key).Reply} (h : s.Mirrors m)
    (conforms : s.Conforms scale.span (.has key) reply s')
    (precise : s.Precise scale (.has key) reply s') :
    ∃ m', m.Gives scale s.now s'.now (.has key) reply m' ∧ s'.Mirrors m' := by
  obtain ⟨first, last⟩ := conforms.ages.bounds
  rcases reply with cause | _ | _
  · exact precise.elim
  · obtain ⟨ages, absent⟩ := conforms
    refine ⟨m, ⟨s'.now, s'.now, last, last, ?_⟩, h.ages ages⟩
    rw [ExpiringMap.answer, (h.ages ages).absent absent]
    rfl
  · obtain ⟨ages, e, found, before⟩ := conforms
    refine ⟨m, ⟨s.now, s.now, first, first, ?_⟩, h.ages ages⟩
    rw [ExpiringMap.answer, h.present found before]
    rfl

theorem Mirrors.get_gives {reply : (Store.Call.get key).Reply} (h : s.Mirrors m)
    (conforms : s.Conforms scale.span (.get key) reply s')
    (precise : s.Precise scale (.get key) reply s') :
    ∃ m', m.Gives scale s.now s'.now (.get key) reply m' ∧ s'.Mirrors m' := by
  obtain ⟨first, last⟩ := conforms.ages.bounds
  rcases reply with cause | _ | value
  · exact precise.elim
  · obtain ⟨ages, absent⟩ := conforms
    refine ⟨m, ⟨s'.now, s'.now, last, last, ?_⟩, h.ages ages⟩
    rw [ExpiringMap.answer, (h.ages ages).absent absent]
    rfl
  · obtain ⟨ages, e, found, before, rfl⟩ := conforms
    refine ⟨m, ⟨s.now, s.now, first, first, ?_⟩, h.ages ages⟩
    rw [ExpiringMap.answer, h.present found before]
    rfl

theorem Mirrors.set_gives {value : String} {ttl : Duration}
    {reply : (Store.Call.set key value ttl).Reply} (h : s.Mirrors m)
    (conforms : s.Conforms scale.span (.set key value ttl) reply s')
    (precise : s.Precise scale (.set key value ttl) reply s') :
    ∃ m', m.Gives scale s.now s'.now (.set key value ttl) reply m' ∧ s'.Mirrors m' := by
  cases reply with
  | error cause =>
    obtain ⟨rfl, counted, low, high, above⟩ := precise
    refine ⟨m, ⟨counted, counted, ⟨low, high⟩, ⟨low, high⟩, ?_⟩, h.ages conforms⟩
    simp only [ExpiringMap.answer, deadline?_eq_error above]
  | ok _ =>
    obtain ⟨ages, counted, low, high, entry⟩ := conforms
    refine ⟨_, ⟨counted, counted, ⟨low, high⟩, ⟨low, high⟩, ?_⟩, h.insert ages entry⟩
    simp only [ExpiringMap.answer, deadline?_eq_ok (precise _ entry)]

theorem Mirrors.refresh_gives {ttl : Duration} {reply : (Store.Call.refresh key ttl).Reply}
    (h : s.Mirrors m) (conforms : s.Conforms scale.span (.refresh key ttl) reply s')
    (precise : s.Precise scale (.refresh key ttl) reply s') :
    ∃ m', m.Gives scale s.now s'.now (.refresh key ttl) reply m' ∧ s'.Mirrors m' := by
  obtain ⟨first, last⟩ := conforms.ages.bounds
  rcases reply with cause | _ | _
  · obtain ⟨rfl, counted, low, high, above⟩ := precise
    refine ⟨m, ⟨counted, s.now, ⟨low, high⟩, first, ?_⟩, h.ages conforms⟩
    simp only [ExpiringMap.answer, deadline?_eq_error above]
  · obtain ⟨ages, absent⟩ := conforms
    obtain ⟨counted, low, high, below⟩ := precise
    refine ⟨m, ⟨counted, s'.now, ⟨low, high⟩, last, ?_⟩, h.ages ages⟩
    simp only [ExpiringMap.answer, deadline?_eq_ok below, (h.ages ages).absent absent]
  · obtain ⟨ages, e, found, before, counted, low, high, entry⟩ := conforms
    refine ⟨_, ⟨counted, s.now, ⟨low, high⟩, first, ?_⟩, h.insert ages entry⟩
    simp only [ExpiringMap.answer, deadline?_eq_ok (precise _ entry), h.present found before]

theorem Mirrors.delete_gives {reply : (Store.Call.delete key).Reply} (h : s.Mirrors m)
    (conforms : s.Conforms scale.span (.delete key) reply s')
    (precise : s.Precise scale (.delete key) reply s') :
    ∃ m', m.Gives scale s.now s'.now (.delete key) reply m' ∧ s'.Mirrors m' := by
  obtain ⟨first, last⟩ := conforms.ages.bounds
  rcases reply with cause | _ | _
  · exact precise.elim
  · obtain ⟨ages, absent⟩ := conforms
    refine ⟨m, ⟨s'.now, s'.now, last, last, ?_⟩, h.ages ages⟩
    simp only [ExpiringMap.answer, (h.ages ages).absent absent]
  · obtain ⟨ages, ⟨e, found, before⟩, gone⟩ := conforms
    refine ⟨_, ⟨s.now, s.now, first, first, ?_⟩, h.erase ages gone⟩
    simp only [ExpiringMap.answer, h.present found before]

theorem Mirrors.gives {reply : call.Reply} (h : s.Mirrors m)
    (conforms : s.Conforms scale.span call reply s') (precise : s.Precise scale call reply s') :
    ∃ m', m.Gives scale s.now s'.now call reply m' ∧ s'.Mirrors m' := by
  cases call with
  | list root => exact h.list_gives conforms precise
  | has key => exact h.has_gives conforms precise
  | get key => exact h.get_gives conforms precise
  | set key value ttl => exact h.set_gives conforms precise
  | refresh key ttl => exact h.refresh_gives conforms precise
  | delete key => exact h.delete_gives conforms precise

end Shelf

end SlotLease
