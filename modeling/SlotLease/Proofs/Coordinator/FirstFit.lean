import SlotLease.Proofs.Coordinator.Pattern
import SlotLease.Proofs.Isolation

namespace SlotLease

open Interaction Lease

/-! ### The first slot -/

structure PartlyUsed (used : Slot → Prop) (datacenter : UInt64) : Prop where
  inRange : datacenter ≤ Id.maxDatacenter
  inUse : ∃ worker, worker ≤ Id.maxWorker ∧ used ⟨datacenter, worker⟩
  free : ∃ worker, worker ≤ Id.maxWorker ∧ ¬ used ⟨datacenter, worker⟩

structure Unused (used : Slot → Prop) (datacenter : UInt64) : Prop where
  inRange : datacenter ≤ Id.maxDatacenter
  free : ∀ worker, worker ≤ Id.maxWorker → ¬ used ⟨datacenter, worker⟩

/-- The slot that comes first, as long as not all are in use. -/
inductive FirstFit (used : Slot → Prop) : Option Slot → Prop
  | filling : First (PartlyUsed used) (some d) →
      First (fun worker => worker ≤ Id.maxWorker ∧ ¬ used ⟨d, worker⟩) (some w) →
      FirstFit used (some ⟨d, w⟩)
  | opening : First (PartlyUsed used) none → First (Unused used) (some d) →
      FirstFit used (some ⟨d, 0⟩)
  | full : (∀ slot : Slot, slot.InRange → used slot) → FirstFit used none

theorem FirstFit.free {used : Slot → Prop} {slot : Slot} (fit : FirstFit used (some slot)) :
    slot.InRange ∧ ¬ used slot := by
  cases fit with
  | filling partly free => exact ⟨⟨partly.1.inRange, free.1.1⟩, free.1.2⟩
  | opening _ unused =>
    have zero : 0 ≤ Id.maxWorker := by decide
    exact ⟨⟨unused.1.inRange, zero⟩, unused.1.free 0 zero⟩

namespace Allocation

variable {occupied : List Slot} {slot : Slot} {datacenter : UInt64}

theorem mem_numbers {n : UInt64} : n ∈ numbers ↔ n ≤ Id.maxWorker := by
  refine ⟨le_of_mem_numbers, fun le => List.mem_map.2 ⟨n.toNat, List.mem_range.2 ?_, ?_⟩⟩
  · exact Nat.lt_succ_of_le (UInt64.le_iff_toNat_le.1 le)
  · exact UInt64.ofNat_toNat

theorem numbers_ascending : numbers.Pairwise (· < ·) := by decide

theorem first_number (p : UInt64 → Bool) :
    First (fun n => n ≤ Id.maxWorker ∧ p n = true) (numbers.find? p) :=
  (First.find? numbers_ascending).congr fun n => by rw [mem_numbers]

theorem isUsed_iff :
    isUsed occupied datacenter = true ↔ ∃ worker, ⟨datacenter, worker⟩ ∈ occupied := by
  simp only [isUsed, List.any_eq_true, decide_eq_true_eq]
  constructor
  · rintro ⟨⟨d, w⟩, mem, rfl⟩
    exact ⟨w, mem⟩
  · rintro ⟨w, mem⟩
    exact ⟨_, mem, rfl⟩

theorem freeIn_nonempty : (!(freeIn occupied datacenter).isEmpty) = true ↔
    ∃ worker, worker ≤ Id.maxWorker ∧ ⟨datacenter, worker⟩ ∉ occupied := by
  simp [freeIn, mem_numbers]

theorem first_partlyUsed (inRange : ∀ slot ∈ occupied, slot.InRange) :
    First (PartlyUsed (· ∈ occupied)) (numbers.find? fun datacenter =>
      isUsed occupied datacenter && !(freeIn occupied datacenter).isEmpty) := by
  refine (first_number _).congr fun datacenter => ?_
  rw [Bool.and_eq_true, isUsed_iff, freeIn_nonempty]
  constructor
  · rintro ⟨inRange, ⟨worker, _, mem⟩, free⟩
    exact ⟨inRange, ⟨worker, mem⟩, free⟩
  · rintro ⟨le, ⟨worker, mem⟩, free⟩
    exact ⟨le, ⟨worker, (inRange _ mem).2, mem⟩, free⟩

theorem first_unused (inRange : ∀ slot ∈ occupied, slot.InRange) :
    First (Unused (· ∈ occupied))
      (numbers.find? fun datacenter => !isUsed occupied datacenter) := by
  refine (first_number _).congr fun datacenter => ?_
  rw [Bool.not_eq_true', ← Bool.not_eq_true, isUsed_iff]
  constructor
  · rintro ⟨le, free⟩
    exact ⟨le, fun ⟨worker, mem⟩ => free worker (inRange _ mem).2 mem⟩
  · rintro ⟨le, free⟩
    exact ⟨le, fun worker _ mem => free ⟨worker, mem⟩⟩

theorem first_free (occupied : List Slot) (datacenter : UInt64) :
    First (fun worker => worker ≤ Id.maxWorker ∧ ⟨datacenter, worker⟩ ∉ occupied)
      (numbers.find? fun worker => !occupied.contains ⟨datacenter, worker⟩) :=
  (first_number _).congr fun worker => by simp

theorem head?_filter_flatMap {α β : Type} (p : α → Bool) (f : α → List β) (l : List α) :
    ((l.filter p).flatMap f).head? =
      (l.find? fun a => p a && !(f a).isEmpty).bind fun a => (f a).head? := by
  induction l with
  | nil => rfl
  | cons a rest ih =>
    rw [List.find?_cons]
    cases holds : p a with
    | false => simp [holds, ih]
    | true =>
      cases here : f a with
      | nil => simp [holds, here, ih]
      | cons b others => simp [holds, here]

theorem head?_freeIn (occupied : List Slot) (datacenter : UInt64) :
    (freeIn occupied datacenter).head? =
      (numbers.find? fun worker => !occupied.contains ⟨datacenter, worker⟩).map
        (Slot.mk datacenter) := by
  rw [freeIn, List.head?_filter, List.find?_map]
  rfl

theorem head?_candidates (inRange : ∀ slot ∈ occupied, slot.InRange) :
    FirstFit (· ∈ occupied) (candidates occupied).head? := by
  have partly := first_partlyUsed inRange
  have unused := first_unused inRange
  rw [candidates, List.head?_append, head?_filter_flatMap, List.head?_map, List.head?_filter]
  cases found : numbers.find? fun d => isUsed occupied d && !(freeIn occupied d).isEmpty with
  | some d =>
    rw [found] at partly
    have free := first_free occupied d
    rw [Option.bind_some, head?_freeIn]
    cases found' : numbers.find? fun worker => !occupied.contains ⟨d, worker⟩ with
    | some w =>
      rw [found'] at free
      exact .filling partly free
    | none =>
      rw [found'] at free
      obtain ⟨w, spare⟩ := partly.1.free
      exact absurd spare (free w)
  | none =>
    rw [found] at partly
    cases found' : numbers.find? fun d => !isUsed occupied d with
    | some d =>
      rw [found'] at unused
      exact .opening partly unused
    | none =>
      rw [found'] at unused
      refine .full fun ⟨d, w⟩ ⟨le, le'⟩ => Classical.byContradiction fun spare => ?_
      -- the datacenter of a spare slot is used in part or not at all
      by_cases inUse : ∃ worker, worker ≤ Id.maxWorker ∧ ⟨d, worker⟩ ∈ occupied
      · exact partly d ⟨le, inUse, w, le', spare⟩
      · exact unused d ⟨le, fun worker le mem => inUse ⟨worker, le, mem⟩⟩

theorem mem_occupied {keys : KeySpace} {listed : List String} :
    slot ∈ Allocation.occupied keys listed ↔
      slot.InRange ∧ ∃ key ∈ listed, keys.slotOf? key = some slot := by
  simp [Allocation.occupied, and_comm]

end Allocation

/-! ### A quiet store -/

/-- A slot is in use if a live key names it that would be listed, and ids can hold it. -/
def KeySpace.InUse (keys : KeySpace) (live : String → Prop) (slot : Slot) : Prop :=
  slot.InRange ∧ ∃ key, live key ∧ keys.scanRoot.toList.isPrefixOf key.toList = true ∧
    keys.slotOf? key = some slot

/-- A store on which the calls of an acquisition succeed, and that stays as it is until a lease is
written: it lists the live keys, in some order, and tells of each key whether it is live. -/
structure Store.Quiet (keys : KeySpace) (ttl : Duration) (live : String → Prop)
    (past : List Exchange) (b : Store.Behaviour) : Prop where
  lists : ∀ log : List Exchange, (∀ x ∈ log, x.call.written? = none) → ∃ listed,
    b (past ++ log) (.list keys.scanRoot) = .ok listed ∧
      ∀ key, key ∈ listed ↔ live key ∧ keys.scanRoot.toList.isPrefixOf key.toList = true
  looksUp : ∀ log : List Exchange, (∀ x ∈ log, x.call.written? = none) → ∀ key, ∃ found,
    b (past ++ log) (.has key) = .ok found ∧ (found = true ↔ live key)
  writes : ∀ log : List Exchange, (∀ x ∈ log, x.call.written? = none) → ∀ key value,
    b (past ++ log) (.set key value ttl) = .ok ()

theorem Shelf.Ages.live_iff {m m' : Shelf} (h : m.Ages all m') (now : m'.now = m.now)
    (key : String) : m'.Live key ↔ m.Live key := by
  refine ⟨h.live trivial, fun ⟨e, found, live⟩ => ?_⟩
  rw [← now] at live
  exact ⟨e, h.stays trivial found live, live⟩

namespace MemoryStore

def after (s : MemoryStore) (now : Instant) (log : List Exchange) : MemoryStore :=
  log.foldl (fun s x => (s.answer now x.call).2) s

def behaviour (s : MemoryStore) (now : Instant) : Store.Behaviour :=
  fun log call => ((s.after now log).answer now call).1

theorem live_after (s : MemoryStore) (now : Instant) {log : List Exchange}
    (reads : ∀ x ∈ log, x.call.written? = none) (key : String) :
    ((s.after now log).shelf now).Live key ↔ (s.shelf now).Live key := by
  induction log generalizing s with
  | nil => rfl
  | cons x rest ih =>
    obtain ⟨read, reads⟩ := List.forall_mem_cons.1 reads
    have ages := (s.answer_conforms now x.call).ages
    rw [read] at ages
    rw [after, List.foldl_cons]
    exact (ih _ reads).trans ((ages.mono fun _ _ => nofun).live_iff rfl key)

theorem quiet (s : MemoryStore) {now deadline : Instant} {ttl : Duration}
    (fits : deadline? now ttl = .ok deadline) (keys : KeySpace) :
    Store.Quiet keys ttl (s.shelf now).Live [] (s.behaviour now) where
  lists log reads := by
    obtain ⟨ages, listed, complete⟩ := (s.after now log).answer_conforms now (.list keys.scanRoot)
    refine ⟨_, rfl, fun key => ?_⟩
    rw [← s.live_after now reads key]
    refine ⟨fun mem => (listed key mem).symm, fun held => ?_⟩
    refine complete key ?_ held.2 ((ages.live_iff rfl key).2 held.1)
    rintro rfl
    simp [KeySpace.scanRoot] at held
  looksUp log reads key := by
    have answered := (s.after now log).answer_conforms now (.has key)
    refine ⟨((s.after now log).has now key).1, rfl, ?_⟩
    rw [← s.live_after now reads key]
    simp only [answer] at answered
    cases found : ((s.after now log).has now key).1 with
    | true =>
      rw [found] at answered
      exact iff_of_true rfl answered.2
    | false =>
      rw [found] at answered
      exact iff_of_false Bool.false_ne_true (mt (answered.1.live_iff rfl key).2 answered.2)
  writes log _ key value := by
    show ((s.after now log).set now key value ttl).1 = .ok ()
    rw [set, fits]

end MemoryStore

theorem Settings.Accepts.proper {settings : Settings} {schedule : Schedule} {now : Instant}
    (h : settings.Accepts now schedule) : settings.keySpace.Proper := by
  obtain ⟨head, subject⟩ := h.pieces
  exact KeySpace.proper_of_isPiece head subject

def Lease.Plays (b : Store.Behaviour) (r : Request) (log : List Exchange) (reply : Reply r)
    (log' : List Exchange) : Prop :=
  (play b r).run log = (reply, log')

theorem Lease.plays_play (b : Store.Behaviour) (r : Request) (log : List Exchange) :
    Plays b r log ((play b r).run log).1 ((play b r).run log).2 := rfl

variable {b : Store.Behaviour} {past log : List Exchange} {live : String → Prop} {ttl : Duration}

theorem Retry.run_plays (r : Retry) {call : Store.Call} {value : call.Value}
    (answered : b log call = .ok value) {Q : Except Error call.Value → List Exchange → Prop}
    (ended : Q (.ok value) (log ++ [⟨call, .ok value⟩])) :
    Ensures (Plays b) (r.run call) Q log := by
  have attempt : ∀ left backoff, Ensures (Plays b) (r.attempt call left backoff) Q log := by
    rintro (_ | left) backoff _ _ ⟨⟩
    · rw [answered]
      exact ended
    · rw [answered]
      exact ended
  exact attempt _ _

theorem FirstFit.not_live {keys : KeySpace} {slot : Slot} (proper : keys.Proper)
    (fit : FirstFit (keys.InUse live) (some slot)) : ¬ live (keys.leaseKey slot) := by
  intro leased
  obtain ⟨inRange, free⟩ := fit.free
  exact free ⟨inRange, _, leased, keys.scanRoot_isPrefixOf slot, proper.slotOf?_leaseKey slot⟩

namespace Coordinator

variable {c c₀ : Coordinator}

theorem findSlot_quiet (quiet : Store.Quiet c.keys ttl live past b) (proper : c.keys.Proper) :
    Ensures (Plays b) c.findSlot (fun result log => ∃ found new, result = .ok found ∧
      log = past ++ new ∧ (∀ x ∈ new, x.call.written? = none) ∧ FirstFit (c.keys.InUse live) found)
      past := by
  obtain ⟨listed, answered, complete⟩ := quiet.lists [] nofun
  rw [List.append_nil] at answered
  have used : (· ∈ Allocation.occupied c.keys listed) = c.keys.InUse live := by
    funext slot
    simp only [Allocation.mem_occupied, KeySpace.InUse, complete, and_assoc]
  have fit : FirstFit (· ∈ Allocation.occupied c.keys listed) _ :=
    Allocation.head?_candidates fun slot mem => (Allocation.mem_occupied.1 mem).1
  rw [used] at fit
  rw [findSlot, ensures_bind]
  refine c.retry.run_plays answered ?_
  have unwritten : ∀ x ∈ [(⟨.list c.keys.scanRoot, .ok listed⟩ : Exchange)],
      x.call.written? = none := by
    simp [Store.Call.written?]
  cases listed with
  | nil => exact ⟨_, _, rfl, rfl, unwritten, fit⟩
  | cons key rest =>
    simp only
    cases slots : Allocation.candidates (Allocation.occupied c.keys (key :: rest)) with
    | nil =>
      rw [slots] at fit
      exact ⟨none, _, rfl, rfl, unwritten, fit⟩
    | cons slot others =>
      rw [slots] at fit
      -- the first candidate is looked up, and it is free
      obtain ⟨found, answered', same⟩ := quiet.looksUp _ unwritten (c.keys.leaseKey slot)
      cases found with
      | true => exact absurd (same.1 rfl) (fit.not_live proper)
      | false =>
        rw [Allocation.firstFree, ensures_bind]
        refine c.retry.run_plays answered' ⟨some slot, _, rfl, List.append_assoc .., ?_, fit⟩
        exact List.forall_mem_append.2 ⟨unwritten, by simp [Store.Call.written?]⟩

inductive Fits (c : Coordinator) (live : String → Prop) (log : List Exchange) :
    Except Error Slot → Coordinator → Prop
  | taken : FirstFit (c.keys.InUse live) (some slot) →
      ⟨.set (c.keys.leaseKey slot) slot.toJson c.leaseTtl, .ok ()⟩ ∈ log →
      Fits c live log (.ok slot) (c.holding slot)
  | exhausted : FirstFit (c.keys.InUse live) none → (∀ x ∈ log, x.call.written? = none) →
      Fits c live log (.error .slotsExhausted) c

theorem acquire_quiet (unbound : c.state = .unbound) (fresh : c.generator = none)
    (quiet : Store.Quiet c.keys c.leaseTtl live past b) (proper : c.keys.Proper) :
    Ensures (Plays b) c.acquire
      (fun result log => ∃ new, log = past ++ new ∧ c.Fits live new result.1 result.2) past := by
  rw [acquire, unbound]
  simp only [reserve, ensures_bind]
  refine (findSlot_quiet quiet proper).mono ?_
  rintro _ _ ⟨found, new, rfl, rfl, unwritten, fit⟩
  cases found with
  | none => exact ⟨new, rfl, .exhausted fit unwritten⟩
  | some slot =>
    simp only [ensures_bind]
    refine c.retry.run_plays (quiet.writes new unwritten _ _) ?_
    simp only [ensures_pure, hold_of_inRange fit.free.1 fresh]
    have written := List.mem_append_right new (List.mem_singleton_self
      (⟨.set (c.keys.leaseKey slot) slot.toJson c.leaseTtl, .ok ()⟩ : Exchange))
    exact ⟨_, List.append_assoc .., .taken fit written⟩

/-- On a quiet store, an acquisition takes the slot that comes first, and fails only if all slots
are in use; then it writes nothing. -/
theorem acquire_first_fit {settings : Settings} (created : create settings now = .ok c₀)
    (run : Run c₀ events c) (unbound : c.state = .unbound)
    (quiet : Store.Quiet c.keys c.leaseTtl live past b) :
    ∃ result c' log, (c.acquire.run (play b)).run past = ((result, c'), past ++ log) ∧
      (result = .error .slotsExhausted ↔ ∀ slot : Slot, slot.InRange → c.keys.InUse live slot) ∧
      (∀ e, result = .error e →
        e = .slotsExhausted ∧ c' = c ∧ ∀ x ∈ log, x.call.written? = none) ∧
      (∀ slot, result = .ok slot → FirstFit (c.keys.InUse live) (some slot) ∧
        ¬ c.keys.InUse live slot ∧ ¬ live (c.keys.leaseKey slot) ∧ c'.state = .bound slot ∧
        ⟨.set (c.keys.leaseKey slot) slot.toJson c.leaseTtl, .ok ()⟩ ∈ log) := by
  have fresh := fresh_of_create created
  have same := run.unbound fresh unbound
  subst same
  have proper : c.keys.Proper := by
    obtain ⟨schedule, accepts, rfl⟩ := create_eq_ok.1 created
    exact accepts.proper
  have ended := (acquire_quiet unbound fresh.generator quiet proper).run (plays_play b)
  obtain ⟨⟨⟨result, c'⟩, log'⟩, ran⟩ : ∃ end', (c.acquire.run (play b)).run past = end' := ⟨_, rfl⟩
  rw [ran] at ended
  obtain ⟨log, rfl, fits⟩ := ended
  refine ⟨result, c', log, ran, ?_⟩
  cases fits with
  | @taken slot fit written =>
    obtain ⟨inRange, free⟩ := fit.free
    refine ⟨⟨nofun, fun full => absurd (full slot inRange) free⟩, nofun, ?_⟩
    rintro slot' ⟨⟩
    exact ⟨fit, free, fit.not_live proper, rfl, written⟩
  | exhausted fit unwritten =>
    cases fit with
    | full all =>
      refine ⟨⟨fun _ => all, fun _ => rfl⟩, ?_, nofun⟩
      rintro e ⟨⟩
      exact ⟨rfl, rfl, unwritten⟩

theorem create_longest :
    create .longest (.ofMillis 1750000000000) = .ok (ofSettings .longest Settings.daily) :=
  create_eq_ok.2 ⟨_, Settings.longest_accepts, rfl⟩

def littered : MemoryStore :=
  ["SNOWFLAKE:NODE:0:0", "SNOWFLAKE:NODE:00:+1", "SNOWFLAKE:NODE:0:3:x", "SNOWFLAKE:NODE:32:0",
    "SNOWFLAKE:NODE:1:two", "OTHER:NODE:0:2"].foldl
    (fun s key => (s.set (.ofMillis 1750000000000) key "" (.ofSeconds 60)).2) .empty

theorem acquire_first_fit_littered :
    let c := ofSettings .longest Settings.daily
    let live := (littered.shelf (.ofMillis 1750000000000)).Live
    let b := littered.behaviour (.ofMillis 1750000000000)
    create .longest (.ofMillis 1750000000000) = .ok c ∧ Run c [] c ∧ c.state = .unbound ∧
      Store.Quiet c.keys c.leaseTtl live [] b ∧
        ∃ c' log, (c.acquire.run (play b)).run [] = ((.ok ⟨0, 2⟩, c'), log) ∧
          FirstFit (c.keys.InUse live) (some ⟨0, 2⟩) ∧ ¬ live (c.keys.leaseKey ⟨0, 2⟩) := by
  intro c live b
  have created : create .longest (.ofMillis 1750000000000) = .ok c := create_longest
  have fits : MemoryStore.deadline? (.ofMillis 1750000000000) c.leaseTtl =
      .ok ((Instant.ofMillis 1750000000000).add c.leaseTtl) := by decide +kernel
  have quiet : Store.Quiet c.keys c.leaseTtl live [] b := littered.quiet fits c.keys
  obtain ⟨result, c', log, run, -, -, taken⟩ := acquire_first_fit created .start rfl quiet
  have ended : ((c.acquire.run (play b)).run []).1.1.toOption = some ⟨0, 2⟩ := by decide +kernel
  rw [run] at ended
  cases result with
  | error e => cases ended
  | ok slot =>
    obtain rfl : slot = ⟨0, 2⟩ := Option.some.inj ended
    obtain ⟨fit, _, free, _⟩ := taken _ rfl
    exact ⟨created, .start, rfl, quiet, c', log, run, fit, free⟩

end Coordinator

end SlotLease
