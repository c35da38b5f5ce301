import SlotLease.Proofs.Coordinator.Progress
import SlotLease.Proofs.Coordinator.Prompt
import SlotLease.Proofs.Keeper

/-!
The upkeep of a lease: a coordinator that has taken a slot, the keeper that renews its lease, and
the store, which others call as well. Only waits take time, the keeper is never stopped, and the
clock of the store goes along with the wall clock.
-/

namespace SlotLease

open Interaction (Runs)
open Lease (Promptly)
open SharedStore (Meanwhile Stands)

namespace Instant

theorem toNat_clock {t : Instant} (since : 0 ≤ t.nanos) (representable : t.nanos ≤ last.nanos) :
    (t.clock.toNat : Int) = t.nanos / 1000000 := by
  rw [show last.nanos = 8210266876799999999999 from rfl] at representable
  have ms : t.millis = t.nanos / 1000000 := rfl
  rw [clock, Nat.toUInt64_eq, UInt64.toNat_ofNat_of_lt' (by rw [UInt64.size]; omega)]
  omega

end Instant

namespace Coordinator

def ofSettings (settings : Settings) (schedule : Schedule) : Coordinator where
  keys := settings.keySpace
  leaseTtl := settings.leaseTtl
  epoch := settings.epoch
  retry := settings.retry
  schedule := schedule

theorem create_eq_ok {settings : Settings} {now : Instant} {c : Coordinator} :
    create settings now = .ok c ↔
      ∃ schedule, settings.Accepts now schedule ∧ c = ofSettings settings schedule := by
  constructor
  · intro h
    rw [create] at h
    cases checked : settings.check now with
    | error e =>
      rw [checked] at h
      cases h
    | ok schedule =>
      rw [checked] at h
      cases h
      exact ⟨schedule, Settings.check_eq_ok.1 checked, rfl⟩
  · rintro ⟨schedule, accepts, rfl⟩
    rw [create, Settings.check_eq_ok.2 accepts]
    rfl

theorem create_eq_error {settings : Settings} {now : Instant} {cause : Error} :
    create settings now = .error cause ↔ settings.check now = .error cause := by
  rw [create]
  cases settings.check now with
  | error e => constructor <;> (rintro ⟨⟩; rfl)
  | ok schedule => constructor <;> rintro ⟨⟩

end Coordinator

namespace Keeper

def renewing (schedule : Schedule) (rounds : Nat) : Program Bool :=
  .ask .renew fun reply => if isLast reply then .done false else run schedule rounds

def planning (schedule : Schedule) (rounds : Nat) : Option Duration → Program Bool
  | none => .done false
  | some span =>
    .ask (.wait span) fun stopped => if stopped then .done false else renewing schedule rounds

theorem run_succ (schedule : Schedule) (rounds : Nat) : run schedule (rounds + 1) =
    .ask .now fun now => planning schedule rounds (schedule.delay now) := by
  refine congrArg (Interaction.ask Request.now) (funext fun now => ?_)
  simp only [Interaction.bind_done]
  cases schedule.delay now with
  | none => rfl
  | some span =>
    refine congrArg (Interaction.ask (Request.wait span)) (funext fun stopped => ?_)
    cases stopped with
    | true => rfl
    | false =>
      refine congrArg (Interaction.ask Request.renew) (funext fun reply => ?_)
      show (if !isLast reply then run schedule rounds else .done false) = _
      cases isLast reply <;> rfl

end Keeper

structure Upkeep where
  wall : Instant
  store : SharedStore
  coordinator : Coordinator
  keeper : Keeper.Program Bool
  since : Instant
  renewals : List (Instant × Except Error Bool)

namespace Upkeep

def start (wall : Instant) (store : SharedStore) (c : Coordinator) (rounds : Nat) : Upkeep :=
  ⟨wall, store, c, Keeper.run c.schedule rounds, wall, []⟩

/-- A keeper has nothing to do until an instant: it waits, or it has ended by itself. One that has
used up its rounds would go on at once. -/
inductive Idle (since later : Instant) : Keeper.Program Bool → Prop
  | waits : later.nanos ≤ (since.add span).nanos → Idle since later (.ask (.wait span) next)
  | ended : Idle since later (.done false)

/-- A step of the keeper, of others, or of time. Others do not write the entry of `key`, and the
clock of the store is `origin` ahead of the wall clock, if it has one of its own. -/
inductive Step (origin : Int) (key : String) (u : Upkeep) : Upkeep → Prop
  | looks : u.keeper = .ask .now next →
      Step origin key u { u with keeper := next u.wall, since := u.wall }
  | wakes : u.keeper = .ask (.wait span) next → u.wall = u.since.add span →
      Step origin key u { u with keeper := next false }
  | renews : u.keeper = .ask .renew next →
      Runs (Promptly (key = ·)) u.coordinator.renew u.store (result, c) σ →
      Step origin key u { u with
        store := σ
        coordinator := c
        keeper := next (result, c.state)
        renewals := u.renewals ++ [(u.wall, result)] }
  | others : Meanwhile (key = ·) u.store σ → Step origin key u { u with store := σ }
  | passes : Idle u.since later u.keeper → u.wall.nanos ≤ later.nanos → u.store.Passes σ →
      σ.shelf.now = σ.reading origin later →
      Step origin key u { u with wall := later, store := σ }

inductive Run (origin : Int) (key : String) (u : Upkeep) : Upkeep → Prop
  | start : Run origin key u u
  | step : Run origin key u u' → Step origin key u' u'' → Run origin key u u''

structure Steady (c : Coordinator) (first stop : Instant) : Prop where
  wellFormed : c.schedule.WellFormed
  ttl : ∃ seconds, 0 < seconds ∧ c.leaseTtl = .ofSeconds seconds
  since : 0 ≤ first.nanos
  fires : ∀ t : Instant, first.nanos ≤ t.nanos → t.nanos < stop.nanos →
    c.schedule.FiresWithin c.leaseTtl t
  representable : stop.nanos ≤ Instant.last.nanos

structure Leased (c : Coordinator) (slot : Slot) (origin : Int) (renewed wall : Instant)
    (σ : SharedStore) : Prop where
  sound : σ.Sound
  now : σ.shelf.now = σ.reading origin wall
  entry : ∃ value, σ.shelf.entries (c.keys.leaseKey slot) =
    some ⟨value, σ.reading origin renewed + σ.span c.leaseTtl⟩

structure OnSchedule (c : Coordinator) (first renewed : Instant)
    (renewals : List (Instant × Except Error Bool)) : Prop where
  succeeded : ∀ r ∈ renewals, r.2 = .ok true ∧ ∃ n, r.1 = .ofSeconds n ∧ c.schedule.fires n = true
  complete : ∀ n, c.schedule.fires n = true → first.nanos < n * 1000000000 →
    n * 1000000000 ≤ renewed.nanos → (.ofSeconds n, .ok true) ∈ renewals

structure Kept (c : Coordinator) (slot : Slot) (origin : Int) (first renewed : Instant)
    (u : Upkeep) : Prop where
  coordinator : u.coordinator = c
  leased : Leased c slot origin renewed u.wall u.store
  renewals : OnSchedule c first renewed u.renewals
  whole : renewed.nanos % 1000000 = 0
  order : first.nanos ≤ renewed.nanos ∧ renewed.nanos ≤ u.wall.nanos
  lasts : u.wall.nanos < renewed.nanos + c.leaseTtl.nanos

def Next (c : Coordinator) (t : Instant) (n : Int) : Prop :=
  First (fun n => t.nanos < n * 1000000000 ∧ c.schedule.fires n = true) (some n)

inductive Phase (c : Coordinator) (renewed stop wall since : Instant) :
    Keeper.Program Bool → Prop
  | spent : wall = renewed → Phase c renewed stop wall since (.done true)
  | looking : wall = renewed → Phase c renewed stop wall since
      (.ask .now fun now => Keeper.planning c.schedule rounds (c.schedule.delay now))
  | waiting : since.add span = .ofSeconds n → Next c renewed n → wall.nanos ≤ n * 1000000000 →
      (renewed.nanos < stop.nanos → n * 1000000000 < renewed.nanos + c.leaseTtl.nanos) →
      Phase c renewed stop wall since
        (.ask (.wait span) fun stopped =>
          if stopped then .done false else Keeper.renewing c.schedule rounds)
  | renewing : wall = .ofSeconds n → Next c renewed n → Phase c renewed stop wall since
      (.ask .renew fun reply =>
        if Keeper.isLast reply then .done false else Keeper.run c.schedule rounds)
  | ended : stop.nanos ≤ renewed.nanos → Phase c renewed stop wall since (.done false)

variable {c : Coordinator} {slot : Slot} {origin : Int} {first renewed stop wall since : Instant}
  {keeper : Keeper.Program Bool} {u u' : Upkeep}

theorem Steady.leaseTtl_pos (h : Steady c first stop) : 0 < c.leaseTtl.nanos := by
  obtain ⟨seconds, positive, same⟩ := h.ttl
  rw [same]
  exact Nat.mul_pos positive (by decide)

theorem Steady.reading_lt (h : Steady c first stop) (σ : SharedStore) (origin : Int)
    (from' : first.nanos ≤ renewed.nanos) (whole : renewed.nanos % 1000000 = 0)
    (le : wall.nanos ≤ stop.nanos) (order : renewed.nanos ≤ wall.nanos)
    (lasts : wall.nanos < renewed.nanos + c.leaseTtl.nanos) :
    σ.reading origin wall < σ.reading origin renewed + σ.span c.leaseTtl := by
  have start := h.since
  have last := h.representable
  obtain ⟨seconds, _, same⟩ := h.ttl
  rw [same] at lasts ⊢
  cases σ with
  | memory store now =>
    show wall.nanos + origin < renewed.nanos + origin + (Duration.ofSeconds seconds).nanos
    omega
  | files world =>
    -- the clock drops parts of a millisecond, but the lease begins and ends with a whole one
    have ms : (Duration.ofSeconds seconds).millis = seconds * 1000 := by
      show seconds * 1000000000 / 1000000 = _
      omega
    show (wall.clock.toNat : Int) < renewed.clock.toNat + (Duration.ofSeconds seconds).millis
    rw [Instant.toNat_clock (by omega) (by omega), Instant.toNat_clock (by omega) (by omega), ms]
    simp only [Duration.ofSeconds] at lasts
    omega

theorem Kept.now_lt (kept : Kept c slot origin first renewed u) (h : Steady c first stop)
    (le : u.wall.nanos ≤ stop.nanos) :
    u.store.shelf.now < u.store.reading origin renewed + u.store.span c.leaseTtl := by
  rw [kept.leased.now]
  exact h.reading_lt _ _ kept.order.1 kept.whole le kept.order.2 kept.lasts

theorem Step.wall_le (step : Step origin key u u') : u.wall.nanos ≤ u'.wall.nanos := by
  cases step with
  | passes _ later => exact later
  | _ => exact Int.le_refl _

theorem Kept.live (kept : Kept c slot origin first renewed u) (h : Steady c first stop)
    (le : u.wall.nanos ≤ stop.nanos) : u.store.shelf.Live (c.keys.leaseKey slot) := by
  obtain ⟨value, entry⟩ := kept.leased.entry
  exact ⟨_, entry, kept.now_lt h le⟩

theorem Leased.of_written {σ σ' : SharedStore} {value : String}
    (now : σ.shelf.now = σ.reading origin wall) (stands : Stands (fun _ => False) σ σ')
    (written : σ'.shelf.entries (c.keys.leaseKey slot) =
      some ⟨value, σ.shelf.now + σ.span c.leaseTtl⟩) : Leased c slot origin wall wall σ' where
  sound := stands.sound
  now := by rw [stands.now, now, stands.reading]
  entry := ⟨value, by rw [written, now, stands.reading, stands.span]⟩

theorem Leased.meanwhile {σ σ' : SharedStore} (h : Leased c slot origin renewed wall σ)
    (live : σ.shelf.now < σ.reading origin renewed + σ.span c.leaseTtl)
    (meanwhile : Meanwhile (c.keys.leaseKey slot = ·) σ σ') :
    Leased c slot origin renewed wall σ' := by
  have stands := meanwhile.stands h.sound
  obtain ⟨value, entry⟩ := h.entry
  refine ⟨stands.sound, ?_, value, ?_⟩
  · rw [stands.now, h.now, stands.reading]
  · rw [stands.reading, stands.span]
    exact stands.entry rfl entry live

theorem Leased.passes {σ σ' : SharedStore} {later : Instant}
    (h : Leased c slot origin renewed wall σ) (passes : σ.Passes σ')
    (now : σ'.shelf.now = σ'.reading origin later)
    (live : σ.reading origin later < σ.reading origin renewed + σ.span c.leaseTtl) :
    Leased c slot origin renewed later σ' := by
  obtain ⟨span, sound, ages⟩ := passes.ages
  obtain ⟨value, entry⟩ := h.entry
  refine ⟨sound h.sound, now, value, ?_⟩
  rw [passes.reading, span]
  refine ages.stays trivial entry ?_
  rw [now, passes.reading]
  exact live

theorem OnSchedule.nil : OnSchedule c first first [] :=
  ⟨by simp, fun n _ after before => by omega⟩

theorem OnSchedule.renew {renewals : List (Instant × Except Error Bool)}
    (h : OnSchedule c first renewed renewals) (next : Next c renewed n) :
    OnSchedule c first (.ofSeconds n) (renewals ++ [(.ofSeconds n, .ok true)]) := by
  obtain ⟨⟨_, fires⟩, least⟩ := next
  constructor
  · intro r mem
    rcases List.mem_append.1 mem with old | new
    · exact h.succeeded r old
    · obtain rfl := List.mem_singleton.1 new
      exact ⟨rfl, n, rfl, fires⟩
  · intro m fires' after before
    simp only [Instant.ofSeconds] at before
    rcases Int.lt_or_le renewed.nanos (m * 1000000000) with new | old
    -- no fire time lies between the last renewal and this one
    · have le := least m ⟨new, fires'⟩
      obtain rfl : m = n := by omega
      exact List.mem_append_right _ List.mem_cons_self
    · exact List.mem_append_left _ (h.complete m fires' after old)

theorem Phase.of_run (rounds : Nat) (same : wall = renewed) :
    Phase c renewed stop wall since (Keeper.run c.schedule rounds) := by
  cases rounds with
  | zero => exact .spent same
  | succ rounds =>
    rw [Keeper.run_succ]
    exact .looking same

theorem Phase.of_planning (h : Steady c first stop) (from' : first.nanos ≤ wall.nanos)
    (rounds : Nat) :
    Phase c wall stop wall wall (Keeper.planning c.schedule rounds (c.schedule.delay wall)) := by
  have within := h.fires wall from'
  have next := h.wellFormed.nextAfter (Int.le_trans h.since from')
  rw [Schedule.delay_eq]
  cases found : c.schedule.firstFrom (wall.seconds + 1) with
  | none =>
    -- before `stop` the schedule does fire again
    refine .ended (Int.not_lt.1 fun before => ?_)
    obtain ⟨n, found', _⟩ := within before
    rw [found] at found'
    cases found'
  | some n =>
    rw [found] at next
    have later : wall.nanos ≤ (Instant.ofSeconds n).nanos := Int.le_of_lt next.1.1
    refine .waiting (Instant.add_spanTo later) next later fun before => ?_
    obtain ⟨m, found', _, _, soon⟩ := within before
    rw [found] at found'
    cases found'
    exact soon

theorem Phase.looks (h : Steady c first stop) (from' : first.nanos ≤ renewed.nanos)
    (phase : Phase c renewed stop wall since (.ask .now next)) :
    Phase c renewed stop wall wall (next wall) := by
  cases phase with
  | looking same =>
    subst same
    exact .of_planning h from' _

theorem Phase.wakes (phase : Phase c renewed stop wall since (.ask (.wait span) next))
    (elapsed : wall = since.add span) : Phase c renewed stop wall since (next false) := by
  cases phase with
  | waiting until' later => exact .renewing (elapsed.trans until') later

theorem Phase.renews (phase : Phase c renewed stop wall since (.ask .renew next))
    (state : LeaseState) : (∃ n, wall = .ofSeconds n ∧ Next c renewed n) ∧
      Phase c wall stop wall since (next (.ok true, state)) := by
  cases phase with
  | renewing same later => exact ⟨⟨_, same, later⟩, .of_run _ rfl⟩

theorem Phase.passes (h : Steady c first stop) {later : Instant}
    (phase : Phase c renewed stop wall since keeper) (idle : Idle since later keeper)
    (le : later.nanos ≤ stop.nanos) :
    later.nanos < renewed.nanos + c.leaseTtl.nanos ∧ Phase c renewed stop later since keeper := by
  have positive := h.leaseTtl_pos
  cases phase with
  | spent => cases idle
  | looking => cases idle
  | @waiting _ n _ until' next _ soon =>
    have le' : later.nanos ≤ n * 1000000000 := by
      cases idle with
      | waits le => rwa [until'] at le
    exact ⟨by omega, .waiting until' next le' soon⟩
  | renewing => cases idle
  | ended past => exact ⟨by omega, .ended past⟩

theorem Phase.wall_le (phase : Phase c renewed stop wall since keeper)
    (le : wall.nanos ≤ stop.nanos) {n : Int}
    (pending : renewed.nanos < n * 1000000000 ∧ c.schedule.fires n = true) :
    wall.nanos ≤ n * 1000000000 := by
  cases phase with
  | spent same => exact same ▸ Int.le_of_lt pending.1
  | looking same => exact same ▸ Int.le_of_lt pending.1
  | waiting _ next le' =>
    have least := next.2 n pending
    omega
  | renewing same next =>
    have least := next.2 n pending
    rw [same]
    simp only [Instant.ofSeconds]
    omega
  | ended past => omega

theorem Kept.renews (kept : Kept c slot origin first renewed u) (h : Steady c first stop)
    (state : c.state = .bound slot) (le : u.wall.nanos ≤ stop.nanos) (wall : u.wall = .ofSeconds n)
    (next : Next c renewed n) (run : Runs (Promptly (c.keys.leaseKey slot = ·))
      u.coordinator.renew u.store (result, c') σ) : result = .ok true ∧ c' = c ∧
      Kept c slot origin first u.wall { u with
        store := σ
        coordinator := c
        renewals := u.renewals ++ [(u.wall, .ok true)] } := by
  obtain ⟨value, entry⟩ := kept.leased.entry
  rw [kept.coordinator] at run
  obtain ⟨same, stands, written⟩ := run.ensured (Coordinator.renew_promptly kept.leased.sound state
    rfl entry (kept.now_lt h le))
  cases same
  have positive := h.leaseTtl_pos
  refine ⟨rfl, rfl, {
    coordinator := rfl
    leased := .of_written kept.leased.now stands written
    renewals := ?_
    whole := ?_
    order := ⟨Int.le_trans kept.order.1 kept.order.2, Int.le_refl _⟩
    lasts := ?_ }⟩
  · rw [wall]
    exact kept.renewals.renew next
  · rw [wall]
    simp only [Instant.ofSeconds]
    omega
  · simp only
    omega

def Safe (c : Coordinator) (slot : Slot) (origin : Int) (first stop : Instant) (u : Upkeep) :
    Prop :=
  ∃ renewed, Kept c slot origin first renewed u ∧ Phase c renewed stop u.wall u.since u.keeper

theorem Step.safe (step : Step origin (c.keys.leaseKey slot) u u') (h : Steady c first stop)
    (state : c.state = .bound slot) (le : u'.wall.nanos ≤ stop.nanos)
    (safe : Safe c slot origin first stop u) : Safe c slot origin first stop u' := by
  obtain ⟨renewed, kept, phase⟩ := safe
  have le' := Int.le_trans step.wall_le le
  cases step with
  | looks asks =>
    rw [asks] at phase
    exact ⟨renewed, { kept with }, phase.looks h kept.order.1⟩
  | wakes asks elapsed =>
    rw [asks] at phase
    exact ⟨renewed, { kept with }, phase.wakes elapsed⟩
  | renews asks run =>
    rw [asks] at phase
    obtain ⟨⟨n, wall, later⟩, phase⟩ := phase.renews c.state
    obtain ⟨rfl, rfl, kept⟩ := kept.renews h state le' wall later run
    exact ⟨u.wall, { kept with }, phase⟩
  | others meanwhile =>
    have leased := kept.leased.meanwhile (kept.now_lt h le') meanwhile
    exact ⟨renewed, { kept with leased }, phase⟩
  | passes idle later passes now =>
    obtain ⟨lasts, phase⟩ := phase.passes h idle le
    have order := And.intro kept.order.1 (Int.le_trans kept.order.2 later)
    have live := h.reading_lt u.store origin order.1 kept.whole le order.2 lasts
    exact ⟨renewed, { kept with leased := kept.leased.passes passes now live, order, lasts }, phase⟩

theorem Run.safe (run : Run origin (c.keys.leaseKey slot) u u') (h : Steady c first stop)
    (state : c.state = .bound slot) (le : u'.wall.nanos ≤ stop.nanos)
    (safe : Safe c slot origin first stop u) : Safe c slot origin first stop u' := by
  induction run with
  | start => exact safe
  | step run step ih => exact step.safe h state le (ih (Int.le_trans step.wall_le le))

theorem steady_of_create {settings : Settings} {made : Instant}
    (created : Coordinator.create settings made = .ok c) (since : 0 ≤ made.nanos)
    (representable : made.nanos < Instant.last.nanos) (from' : made.nanos ≤ first.nanos) :
    Steady c first (made.add settings.lookahead) := by
  obtain ⟨schedule, accepts, rfl⟩ := Coordinator.create_eq_ok.1 created
  exact {
    wellFormed := accepts.wellFormed
    ttl := ⟨_, Nat.mul_pos accepts.positive (by decide), accepts.leaseTtl_eq⟩
    since := Int.le_trans since from'
    fires := fun t from'' => accepts.firesWithin since representable (Int.le_trans from' from'')
    representable := accepts.lookahead_le since representable }

theorem kept_of_acquire (fresh : c.Fresh) (h : Steady c wall stop)
    (whole : wall.nanos % 1000000 = 0) {σ σ' : SharedStore} (sound : σ.Sound)
    (now : σ.shelf.now = σ.reading origin wall)
    (acquired : Runs (Promptly fun _ => False) c.acquire σ (.ok slot, c') σ') (rounds : Nat) :
    c' = c.holding slot ∧
      Kept (c.holding slot) slot origin wall wall (start wall σ' (c.holding slot) rounds) := by
  obtain ⟨held, stands, written⟩ :=
    acquired.ensured (Coordinator.acquire_promptly fresh sound) _ rfl
  have positive := h.leaseTtl_pos
  refine ⟨held, {
    coordinator := rfl
    leased := .of_written now stands written
    renewals := .nil
    whole := whole
    order := ⟨Int.le_refl _, Int.le_refl _⟩
    lasts := ?_ }⟩
  show wall.nanos < wall.nanos + c.leaseTtl.nanos
  omega

variable {s : MemoryStore} {entry : MemoryStore.Entry} {kept : String → Prop}

theorem runs_promptly {now : Instant} {call : Store.Call} {value : call.Value} {s' : MemoryStore}
    (answered : s.answer now call = (.ok value, s')) :
    Runs (Promptly kept) (Lease.call call) (.memory s now) (.ok value) (.memory s' now) :=
  .ask (.call .refl (SharedStore.answers_memory answered) rfl) .done

theorem runs_acquire (kept : String → Prop) {now : Instant} (fresh : c.Fresh)
    (ended : ∀ key entry, s.table.get? key = some entry → entry.isLive now = false)
    (fits : (now.add c.leaseTtl).seconds < 0x8000000000000000) :
    ∃ s' : MemoryStore, s'.Only (c.keys.leaseKey ⟨0, 0⟩) ⟨Slot.toJson ⟨0, 0⟩, now.add c.leaseTtl⟩ ∧
      Runs (Promptly kept) c.acquire (.memory s now) (.ok ⟨0, 0⟩, c.holding ⟨0, 0⟩)
        (.memory s' now) := by
  obtain ⟨s₁, listed, gone⟩ := MemoryStore.answer_list_of_ended ended c.keys.scanRoot
  refine ⟨_, fun key => ?_, Coordinator.runs_acquire_of_calls fresh (runs_promptly listed)
    (runs_promptly (s₁.answer_set _ _ fits))⟩
  rw [Table.get?_insert, gone]

theorem Run.round {rounds : Nat} {renewals : List (Instant × Except Error Bool)} {span : Duration}
    (run : Run 0 (c.keys.leaseKey slot) u
      ⟨wall, .memory s wall, c, Keeper.run c.schedule (rounds + 1), since, renewals⟩)
    (state : c.state = .bound slot) (only : s.Only (c.keys.leaseKey slot) entry)
    (delay : c.schedule.delay wall = some span) (live : entry.isLive (wall.add span) = true)
    (fits : ((wall.add span).add c.leaseTtl).seconds < 0x8000000000000000) :
    ∃ s' : MemoryStore, Run 0 (c.keys.leaseKey slot) u
      ⟨wall.add span, .memory s' (wall.add span), c, Keeper.run c.schedule rounds, wall,
        renewals ++ [(wall.add span, .ok true)]⟩ := by
  have looked := run.step (.looks (Keeper.run_succ _ _))
  simp only [delay] at looked
  have later : wall.nanos ≤ (wall.add span).nanos := by
    simp only [Instant.add]
    omega
  have waited := looked.step (.passes (.waits (Int.le_refl _)) later (.memory later)
    (Int.add_zero _).symm)
  have woken := waited.step (.wakes rfl rfl)
  have renewed := woken.step (.renews rfl (Coordinator.runs_renew_of_call state
    (runs_promptly (MemoryStore.answer_refresh only.here live fits))))
  exact ⟨_, renewed⟩

/-- If settings are accepted, a slot taken with them is not lost for as long as the schedule was
checked: the coordinator stays bound, its lease is in force all the time, and there is a renewal at
every fire time, each of which succeeds. -/
theorem accepted_keeps_lease {settings : Settings} {made taken : Int} {c₀ c : Coordinator}
    {σ₀ σ : SharedStore} {rounds : Nat} (since : 0 ≤ made)
    (representable : (Instant.ofMillis made).nanos ≤ Instant.last.nanos)
    (created : Coordinator.create settings (.ofMillis made) = .ok c₀) (order : made ≤ taken)
    (sound : σ₀.Sound) (now : σ₀.shelf.now = σ₀.reading origin (.ofMillis taken))
    (acquired : Runs (Promptly fun _ => False) c₀.acquire σ₀ (.ok slot, c) σ)
    (run : Run origin (c.keys.leaseKey slot) (start (.ofMillis taken) σ c rounds) u)
    (le : u.wall.nanos ≤ ((Instant.ofMillis made).add settings.lookahead).nanos) :
    u.coordinator.state = .bound slot ∧ u.store.shelf.Live (c.keys.leaseKey slot) ∧
      (∀ r ∈ u.renewals, r.2 = .ok true ∧ ∃ n, r.1 = .ofSeconds n ∧ c.schedule.fires n = true) ∧
      ∀ n, c.schedule.fires n = true → (Instant.ofMillis taken).nanos < n * 1000000000 →
        n * 1000000000 < u.wall.nanos → (.ofSeconds n, .ok true) ∈ u.renewals := by
  have representable' : (Instant.ofMillis made).nanos < Instant.last.nanos := by
    rw [show Instant.last.nanos = 8210266876799999999999 from rfl] at representable ⊢
    simp only [Instant.ofMillis] at representable ⊢
    omega
  have steady : Steady c₀ (.ofMillis taken) ((Instant.ofMillis made).add settings.lookahead) := by
    refine steady_of_create created ?_ representable' ?_
    · simp only [Instant.ofMillis]
      omega
    · simp only [Instant.ofMillis]
      omega
  have whole : (Instant.ofMillis taken).nanos % 1000000 = 0 := by
    simp only [Instant.ofMillis]
    omega
  -- the lease is kept when it is written, and every step keeps it up to the end of the look ahead
  obtain ⟨rfl, kept⟩ :=
    kept_of_acquire (Coordinator.fresh_of_create created) steady whole sound now acquired rounds
  have steady : Steady (c₀.holding slot) (.ofMillis taken)
      ((Instant.ofMillis made).add settings.lookahead) :=
    ⟨steady.wellFormed, steady.ttl, steady.since, steady.fires, steady.representable⟩
  obtain ⟨renewed, kept, phase⟩ := run.safe steady rfl le ⟨_, kept, .of_run _ rfl⟩
  refine ⟨?_, kept.live steady le, kept.renewals.succeeded, fun n fires after passed => ?_⟩
  · rw [kept.coordinator]
    rfl
  · refine kept.renewals.complete n fires after (Int.not_lt.1 fun pending => ?_)
    exact absurd passed (Int.not_lt.2 (phase.wall_le le ⟨pending, fires⟩))

theorem accepted_keeps_lease_longest :
    let c := Coordinator.ofSettings .longest Settings.daily
    ∃ σ u, Run 0 (c.keys.leaseKey ⟨0, 0⟩)
        (start (.ofMillis 1750000000000) σ (c.holding ⟨0, 0⟩) 1) u ∧
      u.renewals = [(.ofSeconds 1750032000, .ok true)] ∧ u.coordinator.state = .bound ⟨0, 0⟩ ∧
        u.store.shelf.Live (c.keys.leaseKey ⟨0, 0⟩) := by
  intro c
  have created : Coordinator.create .longest (.ofMillis 1750000000000) = .ok c :=
    Coordinator.create_eq_ok.2 ⟨_, Settings.longest_accepts, rfl⟩
  have fits : ((Instant.ofMillis 1750000000000).add c.leaseTtl).seconds < 0x8000000000000000 := by
    decide +kernel
  obtain ⟨s, only, acquired⟩ := runs_acquire (fun _ => False)
    (Coordinator.fresh_of_create created) (s := .empty) (by rintro _ _ ⟨⟩) fits
  have delay : c.schedule.delay (.ofMillis 1750000000000) = some (.ofSeconds 32000) := by
    decide +kernel
  obtain ⟨s', run⟩ := Run.round (c := c.holding ⟨0, 0⟩)
    (u := start _ (.memory s (.ofMillis 1750000000000)) (c.holding ⟨0, 0⟩) 1) .start rfl only delay
    (by decide +kernel) (by decide +kernel)
  have sound : SharedStore.Sound (.memory .empty (.ofMillis 1750000000000)) := trivial
  have le : ((Instant.ofMillis 1750000000000).add (.ofSeconds 32000)).nanos ≤
      ((Instant.ofMillis 1750000000000).add Settings.longest.lookahead).nanos := by
    decide +kernel
  obtain ⟨state, live, _⟩ := accepted_keeps_lease (by decide) (by decide) created (Int.le_refl _)
    sound rfl acquired run le
  exact ⟨_, _, run, rfl, state, live⟩

end Upkeep

end SlotLease
