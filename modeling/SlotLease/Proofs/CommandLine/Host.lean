import SlotLease.CommandLine.Run
import SlotLease.Proofs.Coordinator.Pattern
import SlotLease.Proofs.Store.Litter

namespace SlotLease

open Interaction

def Directory.Lives (d : Directory) (now : UInt64) (name : String) (r : Record) : Prop :=
  d.record? name = some r ∧ r.isLive now = true

instance (d : Directory) (now : UInt64) (name : String) (r : Record) :
    Decidable (d.Lives now name r) := inferInstanceAs (Decidable (_ ∧ _))

theorem Directory.Littered.lives_iff {w : Files.World} {now : UInt64} {name : String} {r : Record}
    (littered : w.directory.Littered) : w.directory.Lives now name r ↔
      name = FileStore.fileName r.key ∧
        w.shelf.visible? now.toNat r.key = some ⟨r.value, r.expiresAt.toNat⟩ := by
  constructor
  · rintro ⟨found, live⟩
    obtain ⟨_, rfl, _⟩ := littered.present found
    exact ⟨rfl, Shelf.visible?_eq_some.2
      ⟨Files.World.stored_eq_some.2 ⟨r, found, rfl⟩, Files.World.isLive_iff.1 live⟩⟩
  · rintro ⟨rfl, shown⟩
    obtain ⟨entry, before⟩ := Shelf.visible?_eq_some.1 shown
    obtain ⟨r', found, same⟩ := Files.World.stored_eq_some.1 entry
    obtain ⟨_, named, _⟩ := littered.present found
    have key := FileStore.fileName_injective named
    obtain ⟨value, expiry⟩ := Shelf.Entry.mk.inj same
    have expiresAt := UInt64.toNat_inj.1 (Int.ofNat.inj expiry)
    have same : r' = r := by
      obtain ⟨_, _, _⟩ := r
      obtain ⟨_, _, _⟩ := r'
      congr
      exact key.symm
    exact ⟨same ▸ found, Files.World.isLive_iff.2 before⟩

def Files.World.answer (r : Files.Request) : StateM Files.World (Files.Reply r) := fun w =>
  let (reply, directory) := w.directory.answer w.clock r
  (reply, { w with directory })

theorem Files.World.serves_answer (r : Files.Request) (w : Files.World) :
    Files.Serves r w ((Files.World.answer r).run w).1 ((Files.World.answer r).run w).2 :=
  .answers ⟨UInt64.le_refl _, rfl⟩

theorem Instant.clock_ofMillis (clock : UInt64) : (ofMillis clock.toNat).clock = clock := by
  rw [Instant.clock, Instant.millis, ofMillis, Int.mul_ediv_cancel _ (by decide), Int.toNat_natCast]
  exact UInt64.ofNat_toNat

namespace CommandLine

structure Host where
  files : Files.World
  handle : FileStore
  calls : List Exchange
  printed : List String

namespace Host

def start (d : Directory) (clock : UInt64) (handle : FileStore) : Host :=
  ⟨⟨d, clock⟩, handle, [], []⟩

def atTime (w : Host) (clock : UInt64) : Host := { w with files := { w.files with clock } }

/-- A host answers what commands ask. No request fails but by the state of the directory; what a
keeper does is left open. -/
inductive Answers : (r : Request) → Host → Reply r → Host → Prop
  | now {t : Instant} : w.files.clock ≤ t.clock → Answers .now w t (w.atTime t.clock)
  | opened : w.files.clock ≤ clock →
      Answers (.openStore path) w (.ok ()) { w.atTime clock with handle := ⟨path, owner, 0⟩ }
  | called {call : Store.Call} {reply : call.Reply} {handle : FileStore} {files : Files.World} :
      Runs Files.Serves (w.handle.answer call) w.files (reply, handle) files →
      Answers (.lease (.store call)) w reply
        { w with files, handle, calls := w.calls ++ [⟨call, reply⟩] }
  | slept : w.files.clock ≤ clock → Answers (.lease (.sleep time)) w () (w.atTime clock)
  | printed : w.files.clock ≤ clock →
      Answers (.print text) w () { w.atTime clock with printed := w.printed ++ [text] }
  | kept : Answers (.keep c) w c' w'

def answer : (r : Request) → StateM Host (Reply r)
  | .now => fun w => (.ofMillis w.files.clock.toNat, w)
  | .openStore path => fun w => (.ok (), { w with handle := ⟨path, 0, 0⟩ })
  | .lease (.store call) => fun w =>
    let ((reply, handle), files) := ((w.handle.answer call).run Files.World.answer).run w.files
    (reply, { w with files, handle, calls := w.calls ++ [⟨call, reply⟩] })
  | .lease (.sleep _) => fun w => ((), w)
  | .print text => fun w => ((), { w with printed := w.printed ++ [text] })
  | .keep c => fun w => (c, w)

theorem answers_answer (r : Request) (w : Host) :
    Answers r w ((answer r).run w).1 ((answer r).run w).2 := by
  have now := UInt64.le_refl w.files.clock
  cases r with
  | now =>
    have shown := Answers.now (w := w) (t := .ofMillis w.files.clock.toNat)
    rw [Instant.clock_ofMillis] at shown
    exact shown now
  | openStore path => exact .opened now
  | lease r =>
    cases r with
    | store call => exact .called (runs_run Files.World.serves_answer ..)
    | sleep time => exact .slept now
  | print text => exact .printed now
  | keep c => exact .kept

def Leases (r : Lease.Request) (w : Host) (reply : Lease.Reply r) (w' : Host) : Prop :=
  Answers (.lease r) w reply w'

inductive Shows : (r : Clock.Request) → Host → Clock.Reply r → Host → Prop
  | shows (clock : UInt64) : w.files.clock ≤ clock → Shows .read w (some clock) (w.atTime clock)

variable {α : Type} {w w₁ w' : Host}

theorem ensures_leasing {p : Lease.Program α} {Q : α → Host → Prop} :
    Ensures Answers (leasing p) Q w ↔ Ensures Leases p Q w := by
  rw [leasing, ensures_run]
  simp only [runs_ask_done]
  rfl

theorem ensures_onWallClock {p : Clock.Program α} {Q : α → Host → Prop}
    (h : Ensures Shows p Q w) : Ensures Answers (onWallClock p) Q w := by
  rw [onWallClock, ensures_run]
  refine h.comap id fun r w reply w' run => ?_
  obtain ⟨t, w₁, read, ended⟩ := runs_bind_iff.1 run
  cases runs_ask_done.1 read with
  | now later =>
    cases ended
    exact .shows _ later

structure Quiet (w w' : Host) : Prop where
  keeps : FileStore.Keeps w.files w'.files
  printed : w'.printed = w.printed
  unwritten : w'.calls.filter (·.isWritten) = w.calls.filter (·.isWritten)

structure Asked (w : Host) (call : Store.Call) (reply : call.Reply) (w' : Host) : Prop where
  answered : FileStore.AnsweredAmid w.files call reply w'.files
  printed : w'.printed = w.printed
  calls : w'.calls = w.calls ++ [⟨call, reply⟩]

theorem Quiet.refl (littered : w.files.directory.Littered) : Quiet w w :=
  ⟨⟨littered, .refl _⟩, rfl, rfl⟩

theorem Quiet.trans (h : Quiet w w₁) (h' : Quiet w₁ w') : Quiet w w' :=
  ⟨h.keeps.trans h'.keeps, h'.printed.trans h.printed, h'.unwritten.trans h.unwritten⟩

structure Passed (w w' : Host) : Prop where
  untouched : FileStore.Untouched w.files w'.files
  printed : w'.printed = w.printed
  calls : w'.calls = w.calls

theorem Passed.quiet (h : Passed w w') (littered : w.files.directory.Littered) : Quiet w w' :=
  ⟨h.untouched.keeps littered, h.printed, by rw [h.calls]⟩

variable {call : Store.Call} {reply : call.Reply}

theorem Asked.quiet (h : Asked w call reply w')
    (unwritten : Exchange.isWritten ⟨call, reply⟩ = false)
    (ages : w.files.shelf.Ages Shelf.all w'.files.shelf) : Quiet w w' where
  keeps := ⟨h.answered.littered, ages⟩
  printed := h.printed
  unwritten := by
    rw [h.calls, List.filter_append, List.filter_singleton, unwritten]
    exact List.append_nil _

theorem Asked.failed {cause : StoreError} (h : Asked w call (.error cause) w') : Quiet w w' := by
  refine h.quiet ?_ h.answered.conforms.ages_of_error
  cases call <;> rfl

theorem call_ensures (littered : w.files.directory.Littered) (call : Store.Call) :
    Ensures Leases (Lease.call call) (Asked w call) w := by
  intro reply w' answered
  cases answered with
  | called run => exact ⟨run.ensured (FileStore.answer_amid _ littered call), rfl, rfl⟩

theorem sleep_ensures (littered : w.files.directory.Littered) (time : Duration) :
    Ensures Leases (Lease.sleep time) (fun _ w' => Quiet w w') w := by
  intro _ w' answered
  cases answered with
  | slept later => exact Passed.quiet ⟨⟨rfl, later⟩, rfl, rfl⟩ littered

theorem run_ensures (r : Retry) (littered : w.files.directory.Littered)
    {Q : Except Error call.Value → Host → Prop}
    (succeeded : ∀ w₁ w' value, Quiet w w₁ → Asked w₁ call (.ok value) w' → Q (.ok value) w')
    (failed : ∀ e w', Quiet w w' → Q (.error e) w') :
    Ensures Leases (r.run call) Q w := by
  refine r.run_upholds (I := Quiet w) ?_ ?_ (.refl littered)
  · intro w₁ before
    refine (call_ensures before.keeps.littered call).mono fun reply w' asked => ?_
    cases reply with
    | ok value => exact succeeded w₁ w' value before asked
    | error cause =>
      have kept := before.trans asked.failed
      exact ⟨kept, failed _ w' kept⟩
  · intro time w₁ before
    exact (sleep_ensures before.keeps.littered time).mono fun _ _ slept => before.trans slept

end Host

open Host (Quiet Asked Leases)

variable {w w₁ w' : Host} {c : Coordinator} {slot : Slot}

def Found (c : Coordinator) (w : Host) (result : Except Error (Option Slot)) (w' : Host) : Prop :=
  Quiet w w' ∧ ∀ slot, result = .ok (some slot) →
    slot.InRange ∧ ¬ w'.files.shelf.Live (c.keys.leaseKey slot)

theorem Found.after {result : Except Error (Option Slot)} (h : Found c w₁ result w')
    (before : Quiet w w₁) : Found c w result w' := ⟨before.trans h.1, h.2⟩

theorem firstFree_finds (littered : w.files.directory.Littered) (slots : List Slot)
    (inRange : ∀ slot ∈ slots, slot.InRange) :
    Ensures Leases
      (Allocation.firstFree (fun slot => c.retry.run (.has (c.keys.leaseKey slot))) slots)
      (Found c w) w := by
  induction slots generalizing w with
  | nil => exact ⟨.refl littered, by rintro _ ⟨⟩⟩
  | cons slot rest ih =>
    rw [Allocation.firstFree, ensures_bind]
    apply Host.run_ensures c.retry littered
    · intro w₁ w₂ present before asked
      have conforms := asked.answered.conforms
      cases present with
      | false =>
        refine ⟨before.trans (asked.quiet rfl conforms.1), ?_⟩
        rintro slot ⟨⟩
        exact ⟨inRange _ List.mem_cons_self, conforms.2⟩
      | true =>
        have before := before.trans (asked.quiet rfl conforms.1)
        refine (ih before.keeps.littered fun slot mem =>
          inRange slot (List.mem_cons_of_mem _ mem)).mono ?_
        exact fun result w' found => found.after before
    · exact fun e w' quiet => ⟨quiet, by rintro _ ⟨⟩⟩

theorem findSlot_finds (littered : w.files.directory.Littered) :
    Ensures Leases c.findSlot (Found c w) w := by
  rw [Coordinator.findSlot, ensures_bind]
  apply Host.run_ensures c.retry littered
  · intro w₁ w₂ keys before asked
    obtain ⟨ages, _, complete⟩ := asked.answered.conforms
    have before := before.trans (asked.quiet rfl ages)
    cases keys with
    | nil =>
      -- what is live under the root would have been listed
      have free (slot : Slot) : ¬ w₂.files.shelf.Live (c.keys.leaseKey slot) := by
        intro live
        cases complete _ (c.keys.leaseKey_ne_empty slot) (c.keys.scanRoot_isPrefixOf slot) live
      refine ⟨before, ?_⟩
      rintro slot ⟨⟩
      exact ⟨by decide, free _⟩
    | cons key listed =>
      refine (firstFree_finds before.keeps.littered _ fun slot =>
        Allocation.inRange_of_mem_candidates).mono ?_
      exact fun result w' found => found.after before
  · exact fun e w' quiet => ⟨quiet, by rintro _ ⟨⟩⟩

structure Took (c : Coordinator) (slot : Slot) (w w' : Host) : Prop where
  inRange : slot.InRange
  littered : w'.files.directory.Littered
  ages : w.files.shelf.Ages (Shelf.others (c.keys.leaseKey slot)) w'.files.shelf
  free : ∀ e, w.files.shelf.entries (c.keys.leaseKey slot) = some e →
    e.deadline ≤ w'.files.shelf.now
  entry : ∃ e, w'.files.shelf.entries (c.keys.leaseKey slot) = some e
  printed : w'.printed = w.printed
  written : w'.calls.filter (·.isWritten) = w.calls.filter (·.isWritten) ++
    [⟨.set (c.keys.leaseKey slot) slot.toJson c.leaseTtl, .ok ()⟩]

theorem Took.after (h : Took c slot w₁ w') (before : Quiet w w₁) : Took c slot w w' where
  inRange := h.inRange
  littered := h.littered
  ages := before.keeps.ages.weaken.trans h.ages
  free e there := by
    rcases before.keeps.ages.entries _ trivial with same | ⟨_, ended⟩
    · exact h.free e (same.trans there)
    · exact Int.le_trans (ended e there) h.ages.later
  entry := h.entry
  printed := h.printed.trans before.printed
  written := by rw [h.written, before.unwritten]

theorem Host.Asked.took
    (asked : Asked w (.set (c.keys.leaseKey slot) slot.toJson c.leaseTtl) (.ok ()) w')
    (inRange : slot.InRange) (free : ¬ w.files.shelf.Live (c.keys.leaseKey slot)) :
    Took c slot w w' := by
  obtain ⟨ages, _, _, _, entry⟩ := asked.answered.conforms
  refine ⟨inRange, asked.answered.littered, ages, fun e there => ?_, ⟨_, entry⟩, asked.printed, ?_⟩
  · exact Int.le_trans (Int.not_lt.1 fun live => free ⟨e, there, live⟩) ages.later
  · rw [asked.calls, List.filter_append]
    rfl

theorem acquire_takes (fresh : c.Fresh) (littered : w.files.directory.Littered) :
    Ensures Leases c.acquire (fun result w' => match result.1 with
      | .ok slot => Took c slot w w' ∧ result.2 = c.holding slot
      | .error _ => Quiet w w') w := by
  rw [Coordinator.acquire, fresh.state]
  simp only [Coordinator.reserve, ensures_bind]
  refine (findSlot_finds littered).mono fun result w₁ found => ?_
  obtain ⟨before, free⟩ := found
  rcases result with e | _ | slot
  · exact before
  · exact before
  · obtain ⟨inRange, free⟩ := free slot rfl
    simp only [ensures_bind]
    apply Host.run_ensures c.retry before.keeps.littered
    · intro w₂ w' _ waited asked
      have free : ¬ w₂.files.shelf.Live (c.keys.leaseKey slot) := fun live =>
        free (waited.keeps.ages.live trivial live)
      simp only [ensures_pure, Coordinator.hold_of_inRange inRange fresh.generator]
      exact ⟨(asked.took inRange free).after (before.trans waited), trivial⟩
    · exact fun e w' quiet => before.trans quiet

theorem acquire_claims (fresh : c.Fresh) : Ensures Leases c.acquire (fun result w' => ∃ new,
    c.Claims new result.1 result.2 ∧ w'.calls = w.calls ++ new) w := by
  refine (c.claims_of_acquire fresh.state fresh.generator w.calls).comap Host.calls ?_
  rintro _ w reply w' answered
  cases answered with
  | called => exact .call
  | slept => exact .sleep

structure Gave (key : String) (w w' : Host) : Prop where
  littered : w'.files.directory.Littered
  ages : w.files.shelf.Ages (Shelf.others key) w'.files.shelf
  gone : ∀ e, w'.files.shelf.entries key = some e → e.deadline ≤ w'.files.shelf.now
  printed : w'.printed = w.printed
  unwritten : w'.calls.filter (·.isWritten) = w.calls.filter (·.isWritten)

theorem release_gives (bound : c.state = .bound slot) (littered : w.files.directory.Littered)
    (entry : ∃ e, w.files.shelf.entries (c.keys.leaseKey slot) = some e) :
    Ensures Leases c.release (fun _ w' => Gave (c.keys.leaseKey slot) w w') w := by
  rw [Coordinator.release, bound]
  simp only [ensures_bind]
  intro reply w' answered
  cases answered with
  | called run =>
    obtain ⟨answered, failed⟩ := run.ensured (FileStore.delete_amid _ littered _)
    have conforms := answered.conforms
    have unwritten : (w.calls ++ [(⟨.delete (c.keys.leaseKey slot), reply⟩ : Exchange)]).filter
        (·.isWritten) = w.calls.filter (·.isWritten) := by
      rw [List.filter_append]
      exact List.append_nil _
    rcases reply with cause | _ | _
    · obtain ⟨e, entry⟩ := entry
      cases entry.symm.trans (failed cause rfl)
    · obtain ⟨ages, dead⟩ := conforms
      refine ⟨answered.littered, ages.weaken, fun e there => ?_, rfl, unwritten⟩
      exact Int.not_lt.1 fun live => dead ⟨e, there, live⟩
    · obtain ⟨ages, _, gone⟩ := conforms
      refine ⟨answered.littered, ages, fun e there => ?_, rfl, unwritten⟩
      cases gone.symm.trans there

end CommandLine

end SlotLease
