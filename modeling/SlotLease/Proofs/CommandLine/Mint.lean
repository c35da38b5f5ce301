import SlotLease.Proofs.CommandLine.Host
import SlotLease.Proofs.Generator.Apart
import SlotLease.Proofs.Coordinator.FirstFit

namespace SlotLease

open Interaction

open CommandLine (Host)

namespace Locked

def Behind (g : Locked) (clock : UInt64) : Prop :=
  ∀ now, clock ≤ now → g.epoch ≤ now → g.last.timestamp ≤ now - g.epoch

inductive Gets (g : Locked) (clock : UInt64) : Option (Outcome Id) → Locked → Prop
  | made {id : Id} : Generator.advance g.epoch g.last clock = .ok (some id) →
      Gets g clock (some (.value id)) { g with last := id }
  | failed : Generator.offset g.epoch clock = .error cause → Gets g clock (some (.error cause)) g
  | waiting : Gets g clock none g

variable {g : Locked} {clock now : UInt64} {id : Id}

theorem behind_first (slot : Slot) (epoch clock : UInt64) :
    Behind ⟨slot, epoch, Generator.first slot, false⟩ clock := by
  intro now _ _
  have zero : (Generator.first slot).timestamp = 0 := Id.timestamp_pack (by decide)
  show (Generator.first slot).timestamp ≤ _
  rw [zero]
  exact UInt64.zero_le

theorem Behind.later (h : g.Behind clock) (later : clock ≤ now) : g.Behind now :=
  fun now' le since => h now' (UInt64.le_trans later le) since

theorem behind_of_advance (made : Generator.advance g.epoch g.last clock = .ok (some id)) :
    Behind { g with last := id } clock := by
  intro now later since
  have before := (Generator.advance_cases made).1
  show id.timestamp ≤ now - g.epoch
  rw [Generator.timestamp_of_advance made]
  rw [UInt64.le_iff_toNat_le] at later since before ⊢
  rw [UInt64.toNat_sub_of_le _ _ (UInt64.le_iff_toNat_le.2 before),
    UInt64.toNat_sub_of_le _ _ (UInt64.le_iff_toNat_le.2 since)]
  exact Nat.sub_le_sub_right later _

theorem offset_of_advance {cause : Error} (behind : g.Behind clock)
    (failed : Generator.advance g.epoch g.last clock = .error cause) :
    Generator.offset g.epoch clock = .error cause := by
  have way := Generator.advances g.epoch g.last clock
  rw [failed] at way
  cases way with
  | early early => exact if_pos early
  | beyond since beyond => rw [Generator.offset, if_neg (UInt64.not_lt.2 since), if_pos beyond]
  | behind since back =>
    exact absurd back (UInt64.not_lt.2 (behind clock (UInt64.le_refl _) since))

theorem next_gets {w : Host} (healthy : g.poisoned = false) (behind : g.Behind w.files.clock)
    (spins : Nat) : Ensures Host.Shows (g.next spins) (fun result w' =>
      ∃ clock, w.files.clock ≤ clock ∧ w' = w.atTime clock ∧ g.Gets clock result.1 result.2) w := by
  induction spins generalizing w with
  | zero => exact ⟨w.files.clock, UInt64.le_refl _, rfl, .waiting⟩
  | succ spins ih =>
    rw [next, ensures_bind, poll_eq healthy]
    rintro _ _ ⟨clock, later⟩
    have behind := behind.later later
    simp only [Generator.glance, shown_reading healthy, Generator.follow]
    cases advanced : Generator.advance g.epoch g.last clock with
    | error cause => exact ⟨clock, later, rfl, .failed (offset_of_advance behind advanced)⟩
    | ok found =>
      cases found with
      | some id => exact ⟨clock, later, rfl, .made advanced⟩
      | none =>
        refine (ih (w := w.atTime clock) behind).mono ?_
        rintro result _ ⟨clock', later', rfl, gets⟩
        exact ⟨clock', UInt64.le_trans later later', rfl, gets⟩

end Locked

namespace CommandLine

open Host (Answers Quiet Passed)

variable {w w₁ w' : Host} {slot : Slot} {epoch clock : UInt64} {last id : Id} {ids : List Id}

structure Prints (slot : Slot) (epoch : UInt64) (last : Id) (ids : List Id) (w w' : Host) :
    Prop where
  untouched : FileStore.Untouched w.files w'.files
  calls : w'.calls = w.calls
  printed : w'.printed = w.printed ++ ids.map (·.text ++ "\n")
  ascending : (last :: ids).Pairwise (·.raw < ·.raw)
  made : ∀ id ∈ ids, ∃ shown, w.files.clock ≤ shown ∧ shown ≤ w'.files.clock ∧
    Generator.Made slot epoch (some shown) id

theorem Prints.nil (later : w.files.clock ≤ clock) :
    Prints slot epoch last [] w (w.atTime clock) where
  untouched := ⟨rfl, later⟩
  calls := rfl
  printed := (List.append_nil _).symm
  ascending := List.pairwise_singleton ..
  made := nofun

theorem Prints.cons {shown : UInt64} (after : last.raw < id.raw)
    (made : Generator.Made slot epoch (some shown) id) (read : w.files.clock ≤ shown)
    (later : shown ≤ clock)
    (rest : Prints slot epoch id ids
      { w.atTime clock with printed := w.printed ++ [id.text ++ "\n"] } w') :
    Prints slot epoch last (id :: ids) w w' := by
  have before : clock ≤ w'.files.clock := rest.untouched.2
  have began := UInt64.le_trans read later
  refine ⟨⟨rest.untouched.1, UInt64.le_trans began before⟩, rest.calls, ?_,
    rest.ascending.cons_cons_of_trans after, ?_⟩
  · rw [rest.printed, List.append_assoc]
    rfl
  · rintro _ (_ | ⟨_, mem⟩)
    · exact ⟨shown, read, UInt64.le_trans later before, made⟩
    · obtain ⟨shown, since, before, made⟩ := rest.made _ mem
      exact ⟨shown, UInt64.le_trans began since, before, made⟩

inductive Leaves (epoch : UInt64) (count : Nat) (ids : List Id) (w w' : Host) :
    Except Failure Unit → Prop
  | all : ids.length = count → Leaves epoch count ids w w' (.ok ())
  | broken {shown : UInt64} : ids.length < count → w.files.clock ≤ shown →
      shown ≤ w'.files.clock → Generator.offset epoch shown = .error cause →
      Leaves epoch count ids w w' (.error (.failed cause))
  | still : Leaves epoch count ids w w' (.error .noId)

theorem Leaves.cons (read : w.files.clock ≤ w₁.files.clock)
    (rest : Leaves epoch count ids w₁ w' result) :
    Leaves epoch (count + 1) (id :: ids) w w' result := by
  cases rest with
  | all enough => exact .all (congrArg (· + 1) enough)
  | broken few since before failed =>
    exact .broken (Nat.succ_lt_succ few) (UInt64.le_trans read since) before failed
  | still => exact .still

structure Making (c : Coordinator) (g : Locked) (w : Host) : Prop where
  issuing : c.issuing = true
  generator : c.generator = some g
  healthy : g.poisoned = false
  valid : g.last.isValid = true
  behind : g.Behind w.files.clock

variable {c : Coordinator} {g : Locked}

theorem Making.next_ensures (making : Making c g w) (spins : Nat) :
    Ensures Answers (onWallClock (c.next spins)) (fun result w' => ∃ clock g',
      w.files.clock ≤ clock ∧ w' = w.atTime clock ∧ g.Gets clock result.1 g' ∧
      result.2 = { c with generator := some g' }) w := by
  have active : c.activeGenerator = .ok g := by
    rw [Coordinator.activeGenerator, making.generator]
    exact if_pos making.issuing
  apply Host.ensures_onWallClock
  rw [Coordinator.next, active]
  simp only [ensures_bind, ensures_pure]
  refine (Locked.next_gets making.healthy making.behind spins).mono ?_
  rintro result _ ⟨clock, later, rfl, gets⟩
  exact ⟨clock, result.2, later, rfl, gets, rfl⟩

theorem Making.after (making : Making c g w)
    (advanced : Generator.advance g.epoch g.last clock = .ok (some id))
    (later : clock ≤ w₁.files.clock) :
    Making { c with generator := some { g with last := id } } { g with last := id } w₁ where
  issuing := making.issuing
  generator := rfl
  healthy := making.healthy
  valid := Generator.isValid_of_advance advanced
  behind := (Locked.behind_of_advance advanced).later later

theorem printIds_prints (spins count : Nat) (making : Making c g w) :
    Ensures Answers (printIds spins count c) (fun result w' =>
      result.2.state = c.state ∧ result.2.keys = c.keys ∧ ∃ ids,
        Prints (Slot.ofId g.last) g.epoch g.last ids w w' ∧
        Leaves g.epoch count ids w w' result.1) w := by
  induction count generalizing c g w with
  | zero => exact ⟨rfl, rfl, [], .nil (UInt64.le_refl _), .all rfl⟩
  | succ count ih =>
    rw [printIds, ensures_bind]
    refine (making.next_ensures spins).mono ?_
    rintro ⟨outcome, _⟩ _ ⟨clock, g', later, rfl, gets, rfl⟩
    cases gets with
    | failed failed =>
      exact ⟨rfl, rfl, [], .nil later, .broken (Nat.succ_pos _) later (UInt64.le_refl _) failed⟩
    | waiting => exact ⟨rfl, rfl, [], .nil later, .still⟩
    | @made id advanced =>
      intro _ w₁ answered
      cases answered with | printed later' =>
      have made := Generator.Made.of_advance rfl advanced
      refine (ih (making.after advanced ?_)).mono ?_
      · exact later'
      rintro result w' ⟨state, keys, ids, prints, leaves⟩
      have after := Generator.raw_lt_of_advance making.valid advanced
      refine ⟨state, keys, id :: ids, .cons after made later later' ?_, leaves.cons ?_⟩
      · exact made.own ▸ prints
      · exact UInt64.le_trans later later'

structure Restored (w w' : Host) : Prop where
  littered : w'.files.directory.Littered
  later : w.files.clock ≤ w'.files.clock
  visible : ∀ key, w'.files.shelf.visible? w'.files.shelf.now key =
    w.files.shelf.visible? w'.files.shelf.now key

theorem Host.Quiet.restored (h : Quiet w w') : Restored w w' where
  littered := h.keeps.littered
  later := FileStore.clock_le_of_ages h.keeps.ages
  visible _ := h.keeps.ages.visible? trivial

theorem Restored.lives_iff (h : Restored w w') (littered : w.files.directory.Littered)
    (name : String) (r : Record) : w'.files.directory.Lives w'.files.clock name r ↔
      w.files.directory.Lives w'.files.clock name r := by
  rw [h.littered.lives_iff, littered.lives_iff]
  exact and_congr_right fun _ => Eq.congr_left (h.visible r.key)

theorem Took.restored {w₂ : Host} (took : Took c slot w w₁)
    (between : FileStore.Untouched w₁.files w₂.files) (gave : Gave (c.keys.leaseKey slot) w₂ w') :
    Restored w w' := by
  have since := (FileStore.untouched_ages between).weaken.trans gave.ages
  have ages := took.ages.trans since
  refine ⟨gave.littered, FileStore.clock_le_of_ages ages, fun key => ?_⟩
  by_cases same : c.keys.leaseKey slot = key
  · subst same
    rw [Shelf.visible?_eq_none gave.gone, Shelf.visible?_eq_none fun e there =>
      Int.le_trans (took.free e there) since.later]
  · exact ages.visible? same

structure Issued (settings : Settings) (clock : UInt64) (slot : Slot) (ids : List Id)
    (w' : Host) : Prop where
  inRange : slot.InRange
  leased : w'.calls.filter (·.isWritten) =
    [⟨.set (settings.keySpace.leaseKey slot) slot.toJson settings.leaseTtl, .ok ()⟩]
  printed : w'.printed = ids.map (·.text ++ "\n")
  ascending : ids.Pairwise (·.raw < ·.raw)
  made : ∀ id ∈ ids, ∃ shown, clock ≤ shown ∧ shown ≤ w'.files.clock ∧
    Generator.Made slot settings.epochMillis (some shown) id

structure Idle (w' : Host) : Prop where
  unwritten : w'.calls.filter (·.isWritten) = []
  printed : w'.printed = []

inductive Mints (settings : Settings) (count : Nat) (clock : UInt64) (w' : Host) :
    Except Failure Unit → Prop
  | rejected {t : Instant} : Idle w' → clock ≤ t.clock → t.clock ≤ w'.files.clock →
      settings.check t = .error cause → Mints settings count clock w' (.error (.failed cause))
  | notLeased {t : Instant} {c c' : Coordinator} : Idle w' →
      Coordinator.create settings t = .ok c → c.Claims w'.calls (.error cause) c' →
      Mints settings count clock w' (.error (.notLeased cause))
  | minted {slot : Slot} {ids : List Id} : Issued settings clock slot ids w' → ids.length = count →
      Mints settings count clock w' (.ok ())
  | broken {slot : Slot} {ids : List Id} {shown : UInt64} : Issued settings clock slot ids w' →
      ids.length < count → clock ≤ shown → shown ≤ w'.files.clock →
      Generator.offset settings.epochMillis shown = .error cause →
      Mints settings count clock w' (.error (.failed cause))

theorem connect_ensures (i : Invocation) :
    Ensures Answers (connect i) (fun result w' => Passed w w' ∧ ∃ t : Instant,
      w.files.clock ≤ t.clock ∧ t.clock ≤ w'.files.clock ∧
      ((∃ cause, i.settings.check t = .error cause ∧ result = .error (.failed cause)) ∨
        ∃ c, Coordinator.create i.settings t = .ok c ∧ result = .ok c)) w := by
  rw [connect, ensures_bind]
  intro _ _ answered
  cases answered with | opened later =>
  intro t _ answered
  cases answered with | now later' =>
  have since := UInt64.le_trans later later'
  simp only [bind_done]
  cases made : Coordinator.create i.settings t with
  | error cause =>
    refine ⟨⟨⟨rfl, since⟩, rfl, rfl⟩, t, since, UInt64.le_refl _, .inl ?_⟩
    exact ⟨cause, Coordinator.create_eq_error.1 made, rfl⟩
  | ok c =>
    refine ⟨⟨⟨rfl, since⟩, rfl, rfl⟩, t, since, UInt64.le_refl _, .inr ?_⟩
    exact ⟨c, made, rfl⟩

theorem making_holding (settings : Settings) (schedule : Schedule) (slot : Slot) :
    Making ((Coordinator.ofSettings settings schedule).holding slot)
      ⟨slot, settings.epochMillis, Generator.first slot, false⟩ w where
  issuing := rfl
  generator := by
    rw [← Settings.epochWord_epoch]
    rfl
  healthy := rfl
  valid := Id.isValid_pack ..
  behind := Locked.behind_first slot _ _

theorem Took.issued {settings : Settings} {schedule : Schedule} {d : Directory} {handle : FileStore}
    {w₂ : Host} (took : Took (.ofSettings settings schedule) slot (.start d clock handle) w₁)
    (prints : Prints slot settings.epochMillis last ids w₁ w₂)
    (gave : Gave (settings.keySpace.leaseKey slot) w₂ w') :
    Issued settings clock slot ids w' := by
  have began : clock ≤ w₁.files.clock := FileStore.clock_le_of_ages took.ages
  have ended := FileStore.clock_le_of_ages gave.ages
  refine ⟨took.inRange, ?_, ?_, prints.ascending.of_cons, fun id mem => ?_⟩
  · rw [gave.unwritten, prints.calls, took.written]
    rfl
  · rw [gave.printed, prints.printed, took.printed]
    rfl
  · obtain ⟨shown, since, before, made⟩ := prints.made id mem
    exact ⟨shown, UInt64.le_trans began since, UInt64.le_trans before ended, made⟩

theorem Leaves.mints {settings : Settings} {count : Nat} {result : Except Failure Unit}
    (leaves : Leaves settings.epochMillis count ids w w₁ result) (began : clock ≤ w.files.clock)
    (later : w₁.files.clock ≤ w'.files.clock) (issued : Issued settings clock slot ids w')
    (ended : result ≠ .error .noId) : Mints settings count clock w' result := by
  cases leaves with
  | all enough => exact .minted issued enough
  | broken few read before failed =>
    exact .broken issued few (UInt64.le_trans began read) (UInt64.le_trans before later) failed
  | still => exact absurd rfl ended

theorem printIds_release_ensures {settings : Settings} {schedule : Schedule} {d : Directory}
    {handle : FileStore}
    (took : Took (.ofSettings settings schedule) slot (.start d clock handle) w)
    (spins count : Nat) : Ensures Answers
      (do
        let (minted, c) ← printIds spins count
          ((Coordinator.ofSettings settings schedule).holding slot)
        let _ ← leasing c.release
        return minted)
      (fun result w' => Restored (.start d clock handle) w' ∧
        (result ≠ .error .noId → Mints settings count clock w' result)) w := by
  have own : Slot.ofId (Generator.first slot) = slot := Id.slot_pack took.inRange.1 took.inRange.2
  have making := making_holding (w := w) settings schedule slot
  simp only [ensures_bind]
  refine (printIds_prints spins count making).mono ?_
  rintro ⟨result, c⟩ w₁ ⟨bound, keys, ids, prints, leaves⟩
  rw [own] at prints
  -- the directory is as it was when the lease had been written
  have littered := prints.untouched.1 ▸ took.littered
  have entry := took.entry
  rw [← FileStore.entries_of_untouched prints.untouched] at entry
  rw [Host.ensures_leasing]
  refine (release_gives bound littered (keys ▸ entry)).mono fun _ w' gave => ?_
  rw [keys] at gave
  have began := FileStore.clock_le_of_ages took.ages
  have later := FileStore.clock_le_of_ages gave.ages
  exact ⟨took.restored prints.untouched gave, leaves.mints began later (took.issued prints gave)⟩

theorem mint_ensures (i : Invocation) (spins count : Nat) {d : Directory} {handle : FileStore}
    (littered : d.Littered) : Ensures Answers (mint i spins count) (fun result w' =>
      Restored (.start d clock handle) w' ∧
        (result ≠ .error .noId → Mints i.settings count clock w' result))
      (.start d clock handle) := by
  rw [mint, ensures_bind]
  refine (connect_ensures i).mono ?_
  rintro _ w₁ ⟨passed, t, since, before, ⟨cause, checked, rfl⟩ | ⟨c, made, rfl⟩⟩
  · have quiet := passed.quiet littered
    have idle : Idle w₁ := ⟨quiet.unwritten, quiet.printed⟩
    exact ⟨quiet.restored, fun _ => .rejected idle since before checked⟩
  have quiet := passed.quiet littered
  have fresh := Coordinator.fresh_of_create made
  obtain ⟨schedule, _, rfl⟩ := Coordinator.create_eq_ok.1 made
  dsimp only
  rw [ensures_bind, Host.ensures_leasing]
  refine ((acquire_takes fresh quiet.keeps.littered).and (acquire_claims fresh)).mono ?_
  rintro ⟨cause | slot, c⟩ w₂ ⟨taken, new, claims, calls⟩
  · have quiet := quiet.trans taken
    have idle : Idle w₂ := ⟨quiet.unwritten, quiet.printed⟩
    obtain rfl : w₂.calls = new := by rw [calls, passed.calls]; rfl
    exact ⟨quiet.restored, fun _ => .notLeased idle made claims⟩
  · obtain ⟨took, rfl⟩ := taken
    exact printIds_release_ensures (took.after quiet) spins count

/-- However minting ends, the records that live in the directory then are those of before that have
not ended since. Where the polls for an id are used up, the program would still be waiting. -/
theorem mint_leaves_no_lease {i : Invocation} {count : UInt64} {spins : Nat} {d : Directory}
    {handle : FileStore} {result : Except Failure Unit} (minting : i.command = .mint count)
    (used : Files.Used d) (run : Runs Answers (i.run spins) (.start d clock handle) result w')
    (ended : result ≠ .error .noId) :
    Mints i.settings count.toNat clock w' result ∧ w'.files.directory.Littered ∧
      ∀ name r, w'.files.directory.Lives w'.files.clock name r ↔
        d.Lives w'.files.clock name r := by
  rw [Invocation.run, minting] at run
  obtain ⟨restored, mints⟩ := run.ensured (mint_ensures i spins _ used.isLittered)
  exact ⟨mints ended, restored.littered, restored.lives_iff used.isLittered⟩

theorem mint_leaves_no_lease_beside_another :
    let i : Invocation := ⟨"leases", .longest, .pretty, .mint 2⟩
    let r : Record := ⟨"SNOWFLAKE:NODE:0:0", "", 1750000060000⟩
    ∃ d w', Files.Used d ∧ d.Lives 1750000000000 (FileStore.fileName r.key) r ∧
      Runs Answers (i.run 1) (.start d 1750000000000 ⟨"", 0, 0⟩) (.ok ()) w' ∧
      w'.printed = ["1934266310456250368\n", "1934266310456250369\n"] ∧
      Mints i.settings 2 1750000000000 w' (.ok ()) ∧
      w'.files.directory.Lives w'.files.clock (FileStore.fileName r.key) r := by
  intro i r
  let leased : Directory := (∅ : Directory).insert (FileStore.fileName r.key) (.file r.encode)
  let w : Host := .start (leased.insert "notes.lease" (.file "".toUTF8)) 1750000000000 ⟨"", 0, 0⟩
  let c := Coordinator.ofSettings .longest Settings.daily
  have set : Runs Files.Responds (FileStore.answer ⟨"", 0, 0⟩ (.set r.key "" (.ofSeconds 60)))
      ⟨∅, [], []⟩ (.ok (), ⟨"", 0, 1⟩) ⟨leased, [1750000000000], []⟩ :=
    FileStore.set_runs _ (fun _ => rfl) "" 1750000000000 (by decide) (by decide) nofun
  have used : Files.Used w.files.directory :=
    .littered (.called .empty set Files.lenient_nil) (by decide) (by decide) (by decide +kernel)
  let w₁ : Host := { w with handle := ⟨"leases", 0, 0⟩ }
  have connected : ((connect i).run Host.answer).run w = (.ok c, w₁) := by
    have opened : ((openStore i.storeDir).run Host.answer).run w = (.ok (), w₁) := rfl
    have read : (now.run Host.answer).run w₁ = (.ofMillis 1750000000000, w₁) := rfl
    rw [connect, run_bind, opened]
    dsimp only
    rw [run_bind, read]
    dsimp only
    rw [Coordinator.create_longest]
    rfl
  obtain ⟨out, ran⟩ : ∃ out, ((mint i 1 2).run Host.answer).run w = out := ⟨_, rfl⟩
  obtain ⟨ok, printed, still⟩ : out.1 = .ok () ∧
      out.2.printed = ["1934266310456250368\n", "1934266310456250369\n"] ∧
      out.2.files.clock = 1750000000000 := by
    rw [← ran, mint, run_bind, connected]
    decide +kernel
  have run : Runs Answers (i.run 1) w out.1 out.2 := ran ▸ runs_run Host.answers_answer ..
  rw [ok] at run
  have leaves := mint_leaves_no_lease rfl used run nofun
  have lives : w.files.directory.Lives 1750000000000 (FileStore.fileName r.key) r := by
    decide +kernel
  exact ⟨_, out.2, used, lives, run, printed, leaves.1, (leaves.2.2 _ _).2 (still ▸ lives)⟩

end CommandLine

end SlotLease
