import SlotLease.Proofs.Generator.Waiting

namespace SlotLease

open Interaction

theorem Id.raw_lt_of_timestamp_lt {id id' : Id} (valid : id.isValid = true)
    (valid' : id'.isValid = true) (earlier : id.timestamp < id'.timestamp) : id.raw < id'.raw := by
  have datacenter : id.datacenter.toNat ≤ 31 := UInt64.le_iff_toNat_le.1 id.datacenter_le
  have worker : id.worker.toNat ≤ 31 := UInt64.le_iff_toNat_le.1 id.worker_le
  have sequence := id.sequence_lt
  have earlier := UInt64.lt_iff_toNat_lt.1 earlier
  rw [UInt64.lt_iff_toNat_lt, Id.toNat_raw valid, Id.toNat_raw valid']
  omega

def Outcome.value? {α : Type} : Outcome α → Option α
  | .value a => some a
  | _ => none

theorem Outcome.bind_value?_map {α β : Type} (f : α → β) (result : Option (Outcome α)) :
    (result.map (·.map f)).bind (·.value?) = (result.bind (·.value?)).map f := by
  rcases result with _ | _ | _ | _ <;> rfl

namespace Generator

inductive Call where
  | poll
  | next (spins : Nat)
  | key (spins : Nat)

inductive Issue where
  | plain (id : Id)
  | key (number : Int64)
deriving DecidableEq

def Issue.word : Issue → UInt64
  | .plain id => id.raw
  | .key number => number.toUInt64

def Issue.signed : Issue → Int64
  | .plain id => id.toInt64
  | .key number => number

structure Made (slot : Slot) (epoch : UInt64) (reading : Option UInt64) (id : Id) : Prop where
  valid : id.isValid = true
  own : Slot.ofId id = slot
  timed : ∃ now, reading = some now ∧ epoch ≤ now ∧ id.timestamp = now - epoch

def Genuine (slot : Slot) (epoch : UInt64) (reading : Option UInt64) (issue : Issue) : Prop :=
  ∃ id, Made slot epoch reading id ∧ issue.word = id.raw ∧ issue.signed = id.toInt64

variable {slot slot' : Slot} {epoch epoch' now : UInt64} {reading reading' : Option UInt64}
  {id id' : Id} {issue issue' : Issue}

theorem Made.of_advance (own : Slot.ofId id = slot)
    (advanced : advance epoch id now = .ok (some id')) : Made slot epoch (some now) id' where
  valid := isValid_of_advance advanced
  own := (slot_of_advance advanced).trans own
  timed := ⟨now, rfl, (advance_cases advanced).1, timestamp_of_advance advanced⟩

theorem Made.slot_eq (made : Made slot epoch reading id) (made' : Made slot' epoch' reading' id')
    (same : id.raw = id'.raw) : slot = slot' := by
  have same : id = id' := congrArg Id.mk same
  rw [← made.own, ← made'.own, same]

theorem Made.raw_lt {now' : UInt64} (made : Made slot epoch (some now) id)
    (made' : Made slot' epoch (some now') id') (earlier : now < now') : id.raw < id'.raw := by
  obtain ⟨_, ⟨⟩, since, timed⟩ := made.timed
  obtain ⟨_, ⟨⟩, since', timed'⟩ := made'.timed
  apply Id.raw_lt_of_timestamp_lt made.valid made'.valid
  rw [timed, timed', UInt64.lt_iff_toNat_lt, UInt64.toNat_sub_of_le _ _ since,
    UInt64.toNat_sub_of_le _ _ since']
  have since := UInt64.le_iff_toNat_le.1 since
  have earlier := UInt64.lt_iff_toNat_lt.1 earlier
  omega

theorem Made.plain (made : Made slot epoch reading id) :
    Genuine slot epoch reading (.plain id) := ⟨id, made, rfl, rfl⟩

theorem Made.key (made : Made slot epoch reading id) :
    Genuine slot epoch reading (.key id.toInt64) :=
  ⟨id, made, by rw [Issue.word, Id.toInt64, UInt64.toUInt64_toInt64], rfl⟩

end Generator

open Generator (Call Issue Made Genuine)

inductive Clock.Shows : (r : Request) → Option UInt64 → Reply r → Option UInt64 → Prop
  | shows : Shows .read last reading reading

namespace Locked

def issue (g : Locked) : Call → Clock.Program (Option Issue × Locked)
  | .poll => do
    let (outcome, g) ← g.poll
    return (outcome.ready?.map .plain, g)
  | .next spins => do
    let (outcome, g) ← g.next spins
    return ((outcome.bind (·.value?)).map .plain, g)
  | .key spins => do
    let (outcome, g) ← g.nextKey spins
    return ((outcome.bind (·.value?)).map .key, g)

/-- Calls one after the other of a new generator of a slot, with what they have given out and what
the clock did last in each. A call for the next id that others come between is the polls that it
consists of. -/
inductive Traffic (slot : Slot) (epoch : Duration) : List (Option UInt64 × Issue) → Locked → Prop
  | created : create slot epoch = .ok g → Traffic slot epoch [] g
  | called {call : Call} : Traffic slot epoch issued g →
      Runs Clock.Shows (g.issue call) none (issue?, g') reading →
      Traffic slot epoch (issued ++ (issue?.map (reading, ·)).toList) g'

variable {g g' : Locked} {reading : Option UInt64}

theorem inRange_of_create {slot : Slot} {epoch : Duration} (created : create slot epoch = .ok g) :
    slot.InRange ∧ g = ⟨slot, Generator.epochWord epoch, Generator.first slot, false⟩ := by
  cases checked : slot.check with
  | error e =>
    rw [create, checked] at created
    cases created
  | ok _ =>
    have inRange := Slot.inRange_of_check checked
    rw [create_of_inRange inRange] at created
    exact ⟨inRange, (Except.ok.inj created).symm⟩

structure Follows (g : Locked) (made? : Option Id) (g' : Locked) (reading : Option UInt64) :
    Prop where
  epoch : g'.epoch = g.epoch
  own : Slot.ofId g'.last = Slot.ofId g.last
  made : ∀ id, made? = some id → Made (Slot.ofId g.last) g.epoch reading id

theorem poll_follows (g : Locked) (reading : Option UInt64) : Ensures Clock.Shows g.poll
    (fun result reading => Follows g result.1.ready? result.2 reading) reading := by
  cases healthy : g.poisoned with
  | true =>
    rw [poll_poisoned healthy]
    exact ⟨rfl, rfl, nofun⟩
  | false =>
    rw [poll_eq healthy]
    rintro shown _ ⟨⟩
    refine ⟨rfl, shown_own shown, fun id ready => ?_⟩
    cases shown with
    | none => cases ready
    | some now => exact .of_advance rfl (Generator.follow_of_ready ready).1

theorem next_follows (g : Locked) (spins : Nat) (reading : Option UInt64) :
    Ensures Clock.Shows (g.next spins) (fun result reading =>
      Follows g (result.1.bind (·.value?)) result.2 reading) reading := by
  induction spins generalizing g reading with
  | zero => exact ⟨rfl, rfl, by rintro _ ⟨⟩⟩
  | succ spins ih =>
    rw [next, ensures_bind]
    refine (poll_follows g reading).mono ?_
    rintro ⟨(id | wait) | e | _, g'⟩ shown follows
    · exact ⟨follows.epoch, follows.own, follows.made⟩
    · refine (ih g' shown).mono fun result shown' follows' => ?_
      exact ⟨follows'.epoch.trans follows.epoch, follows'.own.trans follows.own,
        follows.own ▸ follows.epoch ▸ follows'.made⟩
    · exact ⟨follows.epoch, follows.own, by rintro _ ⟨⟩⟩
    · exact ⟨follows.epoch, follows.own, by rintro _ ⟨⟩⟩

theorem issue_genuine (g : Locked) (call : Call) (reading : Option UInt64) :
    Ensures Clock.Shows (g.issue call) (fun result reading => Follows g none result.2 reading ∧
      ∀ issue, result.1 = some issue → Genuine (Slot.ofId g.last) g.epoch reading issue)
      reading := by
  cases call with
  | poll =>
    rw [issue, ensures_bind]
    refine (poll_follows g reading).mono fun result shown follows => ?_
    refine ⟨⟨follows.epoch, follows.own, nofun⟩, fun issue given => ?_⟩
    obtain ⟨id, ready, rfl⟩ := Option.map_eq_some_iff.1 given
    exact (follows.made id ready).plain
  | next spins =>
    rw [issue, ensures_bind]
    refine (next_follows g spins reading).mono fun result shown follows => ?_
    refine ⟨⟨follows.epoch, follows.own, nofun⟩, fun issue given => ?_⟩
    obtain ⟨id, made, rfl⟩ := Option.map_eq_some_iff.1 given
    exact (follows.made id made).plain
  | key spins =>
    rw [issue, nextKey, ensures_bind, ensures_bind]
    refine (next_follows g spins reading).mono fun result shown follows => ?_
    refine ⟨⟨follows.epoch, follows.own, nofun⟩, fun issue given => ?_⟩
    rw [Outcome.bind_value?_map, Option.map_map] at given
    obtain ⟨id, made, rfl⟩ := Option.map_eq_some_iff.1 given
    exact (follows.made id made).key

theorem Traffic.genuine {slot : Slot} {epoch : Duration} {issued : List (Option UInt64 × Issue)}
    (traffic : Traffic slot epoch issued g) :
    g.epoch = Generator.epochWord epoch ∧ Slot.ofId g.last = slot ∧
      ∀ reading issue, (reading, issue) ∈ issued →
        Genuine slot (Generator.epochWord epoch) reading issue := by
  induction traffic with
  | created created =>
    obtain ⟨inRange, rfl⟩ := inRange_of_create created
    exact ⟨rfl, Id.slot_pack inRange.1 inRange.2, nofun⟩
  | called _ run ih =>
    obtain ⟨epoch, own, genuine⟩ := ih
    obtain ⟨follows, given⟩ := run.ensured (issue_genuine _ _ none)
    refine ⟨follows.epoch.trans epoch, follows.own.trans own, fun reading issue mem => ?_⟩
    rcases List.mem_append.1 mem with old | new
    · exact genuine reading issue old
    · obtain ⟨_, rfl, same⟩ := Option.map_eq_some_iff.1 (Option.mem_toList.1 new)
      cases same
      rw [← own, ← epoch]
      exact given issue rfl

theorem poll_runs {now : UInt64} {id : Id} (healthy : g.poisoned = false)
    (advanced : Generator.advance g.epoch g.last now = .ok (some id)) :
    Runs Clock.Shows g.poll reading (.value (.ready id), { g with last := id }) (some now) := by
  have shows : Clock.Shows .read reading (some now) (some now) := .shows
  rw [poll_eq healthy]
  refine .ask shows ?_
  simp only [Generator.glance, shown_reading healthy, Generator.follow, advanced]
  exact .done

end Locked

namespace Shared

def issue (g : Shared) : Call → Program (Option Issue)
  | .poll => return (← g.poll).ready?.map .plain
  | .next spins => return ((← g.next spins).bind (·.value?)).map .plain
  | .key spins => return ((← g.nextKey spins).bind (·.value?)).map .key

def Act.shown (last : Option UInt64) : Act → Option UInt64
  | .read reading => reading
  | _ => last

structure Traffic (ι : Type) where
  word : Id
  pending : ι → Option (Option UInt64 × Program (Option Issue))

namespace Traffic

variable {ι : Type} [DecidableEq ι]

inductive Step (g : Shared) (c : Traffic ι) : List (Option UInt64 × Issue) → Traffic ι → Prop
  | began (call : Call) : c.pending i = none →
      Step g c [] { c with pending := Function.update c.pending i (some (none, g.issue call)) }
  | asked {request : Request} {reply : Reply request}
      {next : Reply request → Program (Option Issue)} {word' : Id} :
      c.pending i = some (last, .ask request next) → Answers c.word request reply act word' →
      Step g c [] ⟨word', Function.update c.pending i (some (act.shown last, next reply))⟩
  | ended : c.pending i = some (last, .done issue?) →
      Step g c (issue?.map (last, ·)).toList
        { c with pending := Function.update c.pending i none }

inductive Run (g : Shared) : List (Option UInt64 × Issue) → Traffic ι → Prop
  | start : Run g [] ⟨g.initial, fun _ => none⟩
  | step : Run g issued c → Step g c new c' → Run g (issued ++ new) c'

end Traffic

variable {α β : Type} {g : Shared} {last : Option UInt64}

def Guards (g : Shared) : Program α → (α → Option UInt64 → Prop) → Option UInt64 → Prop
  | .done a, Q, last => Q a last
  | .ask .load next, Q, last => ∀ seen, Slot.ofId seen = g.slot → Guards g (next seen) Q last
  | .ask .clock next, Q, _ => ∀ reading, Guards g (next reading) Q reading
  | .ask (.exchange _ new) next, Q, last =>
    Slot.ofId new = g.slot ∧ ∀ swapped, Guards g (next swapped) Q last

@[simp] theorem guards_bind (p : Program α) (f : α → Program β) (Q : β → Option UInt64 → Prop) :
    Guards g (p >>= f) Q last ↔ Guards g p (fun a last => Guards g (f a) Q last) last := by
  induction p generalizing last with
  | done a => rfl
  | ask request next ih =>
    cases request with
    | load => exact forall₂_congr fun seen _ => ih seen
    | clock => exact forall_congr' fun reading => ih reading
    | exchange seen new => exact and_congr_right fun _ => forall_congr' fun swapped => ih swapped

theorem Guards.mono {p : Program α} {Q Q' : α → Option UInt64 → Prop} (h : Guards g p Q last)
    (weaker : ∀ a last, Q a last → Q' a last) : Guards g p Q' last := by
  induction p generalizing last with
  | done a => exact weaker a last h
  | ask request next ih =>
    cases request with
    | load => exact fun seen own => ih seen (h seen own)
    | clock => exact fun reading => ih reading (h reading)
    | exchange seen new => exact ⟨h.1, fun swapped => ih swapped (h.2 swapped)⟩

theorem poll_guards (g : Shared) (last : Option UInt64) :
    Guards g g.poll (fun outcome reading => ∀ id, outcome.ready? = some id →
      Made g.slot g.epoch reading id) last := by
  rw [poll_eq]
  intro seen own reading
  cases reading with
  | none => rintro _ ⟨⟩
  | some now =>
    rw [judging]
    cases advanced : Generator.advance g.epoch seen now with
    | error e => rintro _ ⟨⟩
    | ok made =>
      cases made with
      | none => rintro _ ⟨⟩
      | some id =>
        have made := Made.of_advance own advanced
        refine ⟨made.own, fun swapped => ?_⟩
        cases swapped with
        | false => rintro _ ⟨⟩
        | true =>
          rintro _ ⟨⟩
          exact made

theorem next_guards (g : Shared) (spins : Nat) (last : Option UInt64) :
    Guards g (g.next spins) (fun result reading => ∀ id, result.bind (·.value?) = some id →
      Made g.slot g.epoch reading id) last := by
  induction spins generalizing last with
  | zero => rintro _ ⟨⟩
  | succ spins ih =>
    rw [next, guards_bind]
    refine (poll_guards g last).mono ?_
    rintro ((id | wait) | e | _) reading made
    · exact made
    · exact ih reading
    · rintro _ ⟨⟩
    · rintro _ ⟨⟩

def Sincere (g : Shared) (issue? : Option Issue) (reading : Option UInt64) : Prop :=
  ∀ issue, issue? = some issue → Genuine g.slot g.epoch reading issue

theorem issue_guards (g : Shared) (call : Call) (last : Option UInt64) :
    Guards g (g.issue call) (Sincere g) last := by
  cases call with
  | poll =>
    rw [issue, guards_bind]
    refine (poll_guards g last).mono fun outcome reading made issue given => ?_
    obtain ⟨id, ready, rfl⟩ := Option.map_eq_some_iff.1 given
    exact (made id ready).plain
  | next spins =>
    rw [issue, guards_bind]
    refine (next_guards g spins last).mono fun result reading made issue given => ?_
    obtain ⟨id, ended, rfl⟩ := Option.map_eq_some_iff.1 given
    exact (made id ended).plain
  | key spins =>
    rw [issue, nextKey, guards_bind, guards_bind]
    refine (next_guards g spins last).mono fun result reading made issue given => ?_
    rw [Outcome.bind_value?_map, Option.map_map] at given
    obtain ⟨id, ended, rfl⟩ := Option.map_eq_some_iff.1 given
    exact (made id ended).key

namespace Traffic

variable {ι : Type} [DecidableEq ι] {c c' : Traffic ι} {issued new : List (Option UInt64 × Issue)}

structure Kept (g : Shared) (c : Traffic ι) : Prop where
  own : Slot.ofId c.word = g.slot
  guards : ∀ i last p, c.pending i = some (last, p) → Guards g p (Sincere g) last

theorem Kept.update (h : Kept g c) {word : Id} (own : Slot.ofId word = g.slot) (i : ι)
    {rest : Option (Option UInt64 × Program (Option Issue))}
    (guards : ∀ last p, rest = some (last, p) → Guards g p (Sincere g) last) :
    Kept g ⟨word, Function.update c.pending i rest⟩ := by
  refine ⟨own, fun j last p found => ?_⟩
  by_cases same : j = i
  · subst same
    simp only [Function.update_self] at found
    exact guards last p found
  · simp only [Function.update_of_ne same] at found
    exact h.guards j last p found

theorem Step.kept (step : Step g c new c') (h : Kept g c) :
    Kept g c' ∧ ∀ reading issue, (reading, issue) ∈ new →
      Genuine g.slot g.epoch reading issue := by
  cases step with
  | began =>
    refine ⟨h.update h.own _ ?_, nofun⟩
    rintro _ _ ⟨⟩
    exact issue_guards g _ none
  | asked found answered =>
    have guards := h.guards _ _ _ found
    cases answered with
    | load =>
      refine ⟨h.update h.own _ ?_, nofun⟩
      rintro _ _ ⟨⟩
      exact guards _ h.own
    | clock reading =>
      refine ⟨h.update h.own _ ?_, nofun⟩
      rintro _ _ ⟨⟩
      exact guards reading
    | swapped =>
      refine ⟨h.update guards.1 _ ?_, nofun⟩
      rintro _ _ ⟨⟩
      exact guards.2 true
    | kept =>
      refine ⟨h.update h.own _ ?_, nofun⟩
      rintro _ _ ⟨⟩
      exact guards.2 false
  | ended found =>
    have sincere := h.guards _ _ _ found
    refine ⟨h.update h.own _ nofun, fun reading issue mem => ?_⟩
    obtain ⟨_, rfl, same⟩ := Option.map_eq_some_iff.1 (Option.mem_toList.1 mem)
    cases same
    exact sincere issue rfl

theorem Run.genuine (inRange : g.slot.InRange) (run : Run g issued c) :
    Kept g c ∧ ∀ reading issue, (reading, issue) ∈ issued →
      Genuine g.slot g.epoch reading issue := by
  induction run with
  | start => exact ⟨⟨Id.slot_pack inRange.1 inRange.2, nofun⟩, nofun⟩
  | step _ step ih =>
    obtain ⟨kept, genuine⟩ := step.kept ih.1
    refine ⟨kept, fun reading issue mem => ?_⟩
    rcases List.mem_append.1 mem with old | new
    · exact ih.2 reading issue old
    · exact genuine reading issue new

end Traffic

theorem inRange_of_create {slot : Slot} {epoch : Duration} (created : create slot epoch = .ok g) :
    slot.InRange ∧ g = ⟨slot, Generator.epochWord epoch⟩ := by
  cases checked : slot.check with
  | error e =>
    rw [create, checked] at created
    cases created
  | ok _ =>
    have inRange := Slot.inRange_of_check checked
    rw [create_of_inRange inRange] at created
    exact ⟨inRange, (Except.ok.inj created).symm⟩

end Shared

namespace Generator

/-- A generator of either kind gives out an id after a reading: whatever else was asked of it by
anybody, and whatever its clock showed. -/
inductive Gives (slot : Slot) (epoch : Duration) (reading : Option UInt64) (issue : Issue) : Prop
  | locked : Locked.Traffic slot epoch issued g → (reading, issue) ∈ issued →
      Gives slot epoch reading issue
  | shared {ι : Type} [DecidableEq ι] {c : Shared.Traffic ι} : Shared.create slot epoch = .ok g →
      Shared.Traffic.Run g issued c → (reading, issue) ∈ issued → Gives slot epoch reading issue

variable {slot slot' : Slot} {epoch epoch' : Duration} {reading reading' : Option UInt64}
  {issue issue' : Issue}

theorem Gives.genuine (gives : Gives slot epoch reading issue) :
    Genuine slot (epochWord epoch) reading issue := by
  cases gives with
  | locked traffic mem => exact traffic.genuine.2.2 _ _ mem
  | shared created run mem =>
    obtain ⟨inRange, rfl⟩ := Shared.inRange_of_create created
    exact (run.genuine inRange).2 _ _ mem

/-- Every id is made at a reading. No id of a slot is one of another slot, and of two ids that count
from one epoch the one that was made at an earlier reading is smaller. -/
theorem issues_apart (gives : Gives slot epoch reading issue)
    (gives' : Gives slot' epoch' reading' issue') : ∃ now now', reading = some now ∧
      reading' = some now' ∧
      (slot ≠ slot' → issue.word ≠ issue'.word ∧ issue.signed ≠ issue'.signed) ∧
      (epochWord epoch = epochWord epoch' → now < now' →
        issue.word < issue'.word ∧ issue.signed < issue'.signed) := by
  obtain ⟨id, made, word, signed⟩ := gives.genuine
  obtain ⟨id', made', word', signed'⟩ := gives'.genuine
  obtain ⟨now, rfl, _⟩ := made.timed
  obtain ⟨now', rfl, _⟩ := made'.timed
  rw [word, signed, word', signed']
  refine ⟨now, now', rfl, rfl, fun differ => ?_, fun sameEpoch earlier => ?_⟩
  · have apart : id.raw ≠ id'.raw := fun same => differ (made.slot_eq made' same)
    refine ⟨apart, fun same => apart ?_⟩
    rw [← UInt64.toUInt64_toInt64 id.raw, ← UInt64.toUInt64_toInt64 id'.raw]
    exact congrArg Int64.toUInt64 same
  · have less : id.raw < id'.raw := made.raw_lt (sameEpoch ▸ made') earlier
    exact ⟨less, (Id.toInt64_lt_iff made.valid made'.valid).2 less⟩

theorem issues_apart_kinds : Gives ⟨0, 1⟩ Epoch.unix (some 5) (.key 20975616) ∧
    Gives ⟨31, 31⟩ Epoch.unix (some 6) (.plain ⟨29356032⟩) ∧
    (20975616 : Int64).toUInt64 ≠ 29356032 ∧ (20975616 : Int64) < Id.toInt64 ⟨29356032⟩ := by
  have gives : Gives ⟨0, 1⟩ Epoch.unix (some 5) (.key 20975616) := by
    have polled : Runs Clock.Shows
        (Locked.poll ⟨⟨0, 1⟩, epochWord Epoch.unix, first ⟨0, 1⟩, false⟩) none
        (.value (.ready ⟨20975616⟩), ⟨⟨0, 1⟩, epochWord Epoch.unix, ⟨20975616⟩, false⟩) (some 5) :=
      Locked.poll_runs rfl rfl
    have key : Runs Clock.Shows
        (Locked.issue ⟨⟨0, 1⟩, epochWord Epoch.unix, first ⟨0, 1⟩, false⟩ (.key 1)) none
        (some (.key 20975616), ⟨⟨0, 1⟩, epochWord Epoch.unix, ⟨20975616⟩, false⟩) (some 5) :=
      runs_bind (runs_bind (runs_bind polled .done) .done) .done
    exact .locked (.called (.created rfl) key) (by simp)
  have gives' : Gives ⟨31, 31⟩ Epoch.unix (some 6) (.plain ⟨29356032⟩) := by
    have began : @Shared.Traffic.Run Unit _ ⟨⟨31, 31⟩, epochWord Epoch.unix⟩ _ _ :=
      Shared.Traffic.Run.start.step (.began (i := ()) (.next 1) rfl)
    have loaded := began.step (.asked (i := ()) rfl .load)
    have read := loaded.step (.asked (i := ()) rfl (.clock (some 6)))
    have swapped := read.step (.asked (i := ()) rfl .swapped)
    have ended := swapped.step (.ended (i := ()) rfl)
    exact .shared rfl ended (by decide)
  obtain ⟨_, _, ⟨⟩, ⟨⟩, apart, order⟩ := issues_apart gives gives'
  exact ⟨gives, gives', (apart (by decide)).1, (order rfl (by decide)).2⟩

end Generator

end SlotLease
