import SlotLease.Proofs.Coordinator.Footprint
import SlotLease.Proofs.Upkeep

namespace SlotLease

open Interaction Lease

abbrev Store.Behaviour : Type := List Exchange → (call : Store.Call) → call.Reply

def Lease.play (b : Store.Behaviour) : (r : Request) → StateM (List Exchange) (Reply r)
  | .store call => do
    let log ← get
    set (log ++ [⟨call, b log call⟩])
    return b log call
  | .sleep _ => return ()

theorem Lease.notes_play (b : Store.Behaviour) (r : Request) (log : List Exchange) :
    Notes r log ((play b r).run log).1 ((play b r).run log).2 := by
  cases r with
  | store call => exact .call
  | sleep time => exact .sleep

namespace Retry

variable {r : Retry} {call : Store.Call}

def failures (call : Store.Call) (causes : List StoreError) : List Exchange :=
  causes.map fun cause => ⟨call, .error cause⟩

inductive Tries (r : Retry) (call : Store.Call) :
    List Exchange → Except Error call.Value → Prop
  | succeeded {value : call.Value} : causes.length < r.attempts →
      Tries r call (failures call causes ++ [⟨call, .ok value⟩]) (.ok value)
  | failed : causes.length + 1 = r.attempts →
      Tries r call (failures call causes ++ [⟨call, .error cause⟩])
        (.error (.storeUnavailable call.operation r.attempts cause))

theorem attempt_notes (r : Retry) (call : Store.Call) (left : Nat) (backoff : Duration)
    (causes : List StoreError) (count : causes.length + left + 1 = r.attempts)
    (log : List Exchange) :
    Ensures Notes (r.attempt call left backoff)
      (fun result log' => ∃ new, r.Tries call new result ∧ log' = log ++ new)
      (log ++ failures call causes) := by
  induction left generalizing backoff causes with
  | zero =>
    intro reply log' noted
    cases noted
    cases reply with
    | error cause => exact ⟨_, .failed count, List.append_assoc ..⟩
    | ok value => exact ⟨_, .succeeded (by omega), List.append_assoc ..⟩
  | succ left ih =>
    intro reply log' noted
    cases noted
    cases reply with
    | ok value => exact ⟨_, .succeeded (by omega), List.append_assoc ..⟩
    | error cause =>
      intro _ log' noted
      cases noted
      have failed : log ++ failures call causes ++ [⟨call, .error cause⟩] =
          log ++ failures call (causes ++ [cause]) := by simp [failures]
      rw [failed]
      exact ih _ _ (by simp only [List.length_append, List.length_singleton]; omega)

theorem run_notes (r : Retry) (call : Store.Call) (log : List Exchange) :
    Ensures Notes (r.run call)
      (fun result log' => ∃ new, r.Tries call new result ∧ log' = log ++ new) log := by
  have positive : 1 ≤ r.attempts := Nat.le_max_left ..
  have tries := r.attempt_notes call (r.attempts - 1) r.initialBackoff []
    (by simp only [List.length_nil]; omega) log
  rwa [failures, List.map_nil, List.append_nil] at tries

variable {log : List Exchange} {result : Except Error call.Value} {x : Exchange}

theorem Tries.replies (tries : r.Tries call log result) (mem : x ∈ log) :
    (∃ cause, x = ⟨call, .error cause⟩) ∨ ∃ value, result = .ok value ∧ x = ⟨call, .ok value⟩ := by
  cases tries with
  | succeeded =>
    rcases List.mem_append.1 mem with mem | mem
    · obtain ⟨cause, _, rfl⟩ := List.mem_map.1 mem
      exact .inl ⟨cause, rfl⟩
    · exact .inr ⟨_, rfl, List.mem_singleton.1 mem⟩
  | failed =>
    rcases List.mem_append.1 mem with mem | mem
    · obtain ⟨cause, _, rfl⟩ := List.mem_map.1 mem
      exact .inl ⟨cause, rfl⟩
    · exact .inl ⟨_, List.mem_singleton.1 mem⟩

theorem Tries.replied (tries : r.Tries call log (.ok value)) : ⟨call, .ok value⟩ ∈ log := by
  cases tries with
  | succeeded => exact List.mem_append_right _ (List.mem_singleton_self _)

theorem Tries.unwritten (tries : r.Tries call log result)
    (harmless : call.written? = none ∨ ∃ e, result = .error e) :
    ∀ x ∈ log, x.isWritten = false := by
  intro x mem
  rcases tries.replies mem with ⟨cause, rfl⟩ | ⟨value, rfl, rfl⟩
  · cases call <;> rfl
  · rcases harmless with unwritten | ⟨e, failed⟩
    · exact (Exchange.harmless_of_unwritten unwritten).1
    · cases failed

end Retry

namespace Allocation

variable {occupied : List Slot} {slot : Slot}

theorem numbers_nodup : numbers.Nodup := by decide

theorem mem_freeIn {datacenter : UInt64} (mem : slot ∈ freeIn occupied datacenter) :
    slot.datacenter = datacenter ∧ slot ∉ occupied := by
  obtain ⟨mem, free⟩ := List.mem_filter.1 mem
  obtain ⟨worker, _, rfl⟩ := List.mem_map.1 mem
  exact ⟨rfl, by simpa using free⟩

theorem freeIn_nodup (occupied : List Slot) (datacenter : UInt64) :
    (freeIn occupied datacenter).Nodup := by
  refine List.Nodup.filter _ (numbers_nodup.map ?_)
  intro worker worker' same
  exact congrArg Slot.worker same

theorem candidates_nodup (occupied : List Slot) : (candidates occupied).Nodup := by
  refine List.nodup_append.2 ⟨List.nodup_flatMap.2 ⟨fun d _ => freeIn_nodup occupied d, ?_⟩, ?_, ?_⟩
  · refine (numbers_nodup.filter _).imp fun different slot here there => ?_
    exact different ((mem_freeIn here).1.symm.trans (mem_freeIn there).1)
  · refine List.Nodup.map ?_ (numbers_nodup.filter _)
    intro datacenter datacenter' same
    exact congrArg Slot.datacenter same
  · rintro slot used _ unused rfl
    obtain ⟨d, there, mem⟩ := List.mem_flatMap.1 used
    obtain ⟨d', none, rfl⟩ := List.mem_map.1 unused
    have here := (List.mem_filter.1 there).2
    rw [← (mem_freeIn mem).1] at here
    simp [here] at none

theorem not_mem_of_candidate (mem : slot ∈ candidates occupied) : slot ∉ occupied := by
  rcases List.mem_append.1 mem with mem | mem
  · obtain ⟨d, _, mem⟩ := List.mem_flatMap.1 mem
    exact (mem_freeIn mem).2
  · obtain ⟨d, none, rfl⟩ := List.mem_map.1 mem
    intro taken
    have unused := (List.mem_filter.1 none).2
    simp only [isUsed, Bool.not_eq_true', List.any_eq_false, decide_eq_true_eq] at unused
    exact unused _ taken rfl

theorem unlisted_of_candidate {keys : KeySpace} {listed : List String}
    (mem : slot ∈ candidates (Allocation.occupied keys listed)) :
    ∀ key ∈ listed, keys.slotOf? key ≠ some slot := by
  intro key listed names
  have taken := List.mem_filterMap.2 ⟨key, listed, names⟩
  have inRange := decide_eq_true (inRange_of_mem_candidates mem)
  exact not_mem_of_candidate mem (List.mem_filter.2 ⟨taken, inRange⟩)

end Allocation

namespace Coordinator

variable {c c' c₀ : Coordinator}

inductive Lookups (c : Coordinator) :
    (asked : List Slot) → List Exchange → Except Error (Option Slot) → Prop
  | none : Lookups c [] [] (.ok none)
  | free : c.retry.Tries (.has (c.keys.leaseKey slot)) log (.ok false) →
      Lookups c [slot] log (.ok (some slot))
  | failed : c.retry.Tries (.has (c.keys.leaseKey slot)) log (.error e) →
      Lookups c [slot] log (.error e)
  | taken : c.retry.Tries (.has (c.keys.leaseKey slot)) log (.ok true) →
      Lookups c asked log' result → Lookups c (slot :: asked) (log ++ log') result

/-- The leases are listed, and free slots looked up unless there are no leases. Only if all of the
candidates are taken none is found. -/
inductive Finds (c : Coordinator) : List Exchange → Except Error (Option Slot) → Prop
  | unlisted : c.retry.Tries (.list c.keys.scanRoot) log (.error e) → Finds c log (.error e)
  | vacant : c.retry.Tries (.list c.keys.scanRoot) log (.ok []) → Finds c log (.ok (some ⟨0, 0⟩))
  | looked {asked : List Slot} : c.retry.Tries (.list c.keys.scanRoot) log (.ok listed) →
      listed ≠ [] → asked.Nodup →
      (∀ slot ∈ asked, slot.InRange ∧ ∀ key ∈ listed, c.keys.slotOf? key ≠ some slot) →
      (result = .ok none → asked = Allocation.candidates (Allocation.occupied c.keys listed)) →
      Lookups c asked log' result → Finds c (log ++ log') result

inductive Claims (c : Coordinator) : List Exchange → Except Error Slot → Coordinator → Prop
  | unfound : Finds c log (.error e) → Claims c log (.error e) c
  | exhausted : Finds c log (.ok none) → Claims c log (.error .slotsExhausted) c
  | refused {slot : Slot} : Finds c log (.ok (some slot)) →
      c.retry.Tries (.set (c.keys.leaseKey slot) slot.toJson c.leaseTtl) log' (.error e) →
      Claims c (log ++ log') (.error e) c
  | taken {slot : Slot} : Finds c log (.ok (some slot)) →
      c.retry.Tries (.set (c.keys.leaseKey slot) slot.toJson c.leaseTtl) log' (.ok ()) →
      Claims c (log ++ log') (.ok slot) (c.holding slot)

theorem firstFree_notes (c : Coordinator) (slots : List Slot) (log : List Exchange) :
    Ensures Notes
      (Allocation.firstFree (fun slot => c.retry.run (.has (c.keys.leaseKey slot))) slots)
      (fun result log' => ∃ asked new, asked <+: slots ∧ (result = .ok none → asked = slots) ∧
        c.Lookups asked new result ∧ log' = log ++ new) log := by
  induction slots generalizing log with
  | nil => exact ⟨[], [], List.prefix_refl _, fun _ => rfl, .none, (List.append_nil log).symm⟩
  | cons slot rest ih =>
    rw [Allocation.firstFree, ensures_bind]
    refine (c.retry.run_notes _ log).mono ?_
    rintro result _ ⟨new, tries, rfl⟩
    have first : [slot] <+: slot :: rest := List.prefix_append [slot] rest
    rcases result with e | _ | _
    · exact ⟨[slot], new, first, by rintro ⟨⟩, .failed tries, rfl⟩
    · exact ⟨[slot], new, first, by rintro ⟨⟩, .free tries, rfl⟩
    · refine (ih (log ++ new)).mono ?_
      rintro result _ ⟨asked, new', begins, all, lookups, rfl⟩
      exact ⟨slot :: asked, new ++ new', List.cons_prefix_cons.2 ⟨rfl, begins⟩,
        fun none => congrArg _ (all none), .taken tries lookups, List.append_assoc ..⟩

theorem findSlot_notes (c : Coordinator) (log : List Exchange) :
    Ensures Notes c.findSlot (fun result log' => ∃ new, c.Finds new result ∧ log' = log ++ new)
      log := by
  rw [findSlot, ensures_bind]
  refine (c.retry.run_notes _ log).mono ?_
  rintro result _ ⟨new, tries, rfl⟩
  rcases result with e | _ | ⟨key, listed⟩
  · exact ⟨new, .unlisted tries, rfl⟩
  · exact ⟨new, .vacant tries, rfl⟩
  · refine (c.firstFree_notes _ (log ++ new)).mono ?_
    rintro result _ ⟨asked, new', begins, all, lookups, rfl⟩
    refine ⟨new ++ new', .looked tries (by simp) ?_ ?_ all lookups, List.append_assoc ..⟩
    · exact (Allocation.candidates_nodup _).sublist begins.sublist
    · intro slot mem
      have mem := begins.subset mem
      exact ⟨Allocation.inRange_of_mem_candidates mem, Allocation.unlisted_of_candidate mem⟩

variable {log : List Exchange} {slot : Slot}

theorem Lookups.unwritten {found : Except Error (Option Slot)}
    (lookups : c.Lookups asked log found) : ∀ x ∈ log, x.isWritten = false := by
  induction lookups with
  | none => exact nofun
  | free tries => exact tries.unwritten (.inl rfl)
  | failed tries => exact tries.unwritten (.inl rfl)
  | taken tries _ ih => exact List.forall_mem_append.2 ⟨tries.unwritten (.inl rfl), ih⟩

theorem Finds.unwritten {found : Except Error (Option Slot)} (finds : c.Finds log found) :
    ∀ x ∈ log, x.isWritten = false := by
  cases finds with
  | unlisted tries => exact tries.unwritten (.inl rfl)
  | vacant tries => exact tries.unwritten (.inl rfl)
  | looked tries _ _ _ _ lookups =>
    exact List.forall_mem_append.2 ⟨tries.unwritten (.inl rfl), lookups.unwritten⟩

theorem Lookups.mem (lookups : c.Lookups asked log (.ok (some slot))) : slot ∈ asked := by
  generalize same : (Except.ok (some slot) : Except Error (Option Slot)) = found at lookups
  induction lookups with
  | none => cases same
  | failed => cases same
  | free =>
    cases same
    exact List.mem_singleton_self slot
  | taken _ _ ih => exact List.mem_cons_of_mem _ (ih same)

theorem Finds.inRange (finds : c.Finds log (.ok (some slot))) : slot.InRange := by
  cases finds with
  | vacant => decide
  | looked _ _ _ asked _ lookups => exact (asked slot lookups.mem).1

structure Settles (c : Coordinator) (log : List Exchange) (result : Except Error Slot)
    (c' : Coordinator) : Prop where
  written : ∀ slot, result = .ok slot ↔
    ⟨.set (c.keys.leaseKey slot) slot.toJson c.leaseTtl, .ok ()⟩ ∈ log
  bound : ∀ slot, result = .ok slot → c'.state = .bound slot
  failed : ∀ e, result = .error e →
    c' = c ∧ c.generator = none ∧ ∀ x ∈ log, x.isWritten = false

theorem settles_of_error {e : Error} (fresh : c.generator = none)
    (unwritten : ∀ x ∈ log, x.isWritten = false) : c.Settles log (.error e) c where
  written slot := ⟨nofun, fun mem => absurd (unwritten _ mem) (by simp [Exchange.isWritten])⟩
  bound := nofun
  failed _ _ := ⟨rfl, fresh, unwritten⟩

theorem Claims.settles (claims : c.Claims log result c') (fresh : c.generator = none) :
    c.Settles log result c' := by
  cases claims with
  | unfound finds => exact settles_of_error fresh finds.unwritten
  | exhausted finds => exact settles_of_error fresh finds.unwritten
  | refused finds tries =>
    exact settles_of_error fresh
      (List.forall_mem_append.2 ⟨finds.unwritten, tries.unwritten (.inr ⟨_, rfl⟩)⟩)
  | @taken _ _ slot finds tries =>
    refine ⟨fun slot' => ⟨?_, fun mem => ?_⟩, ?_, nofun⟩
    · rintro ⟨⟩
      exact List.mem_append_right _ tries.replied
    · rcases List.mem_append.1 mem with mem | mem
      · cases finds.unwritten _ mem
      · rcases tries.replies mem with ⟨cause, same⟩ | ⟨_, _, same⟩
        · have refused : true = false := congrArg Exchange.isWritten same
          cases refused
        · have keys := congrArg (fun x => x.call.key?) same
          exact congrArg Except.ok (c.keys.leaseKey_injective (Option.some.inj keys)).symm
    · rintro slot' ⟨⟩
      rfl

theorem claims_of_acquire (unbound : c.state = .unbound) (fresh : c.generator = none)
    (log : List Exchange) :
    Ensures Notes c.acquire
      (fun result log' => ∃ new, c.Claims new result.1 result.2 ∧ log' = log ++ new) log := by
  rw [acquire, unbound]
  simp only [reserve, ensures_bind]
  refine (c.findSlot_notes log).mono ?_
  rintro found _ ⟨new, finds, rfl⟩
  rcases found with e | _ | slot
  · exact ⟨new, .unfound finds, rfl⟩
  · exact ⟨new, .exhausted finds, rfl⟩
  · refine (ensures_bind ..).2 ((c.retry.run_notes _ _).mono ?_)
    rintro written _ ⟨new', tries, rfl⟩
    cases written with
    | error e => exact ⟨new ++ new', .refused finds tries, List.append_assoc ..⟩
    | ok _ =>
      simp only [ensures_pure, hold_of_inRange finds.inRange fresh]
      exact ⟨new ++ new', .taken finds tries, List.append_assoc ..⟩

theorem Run.unbound (run : Run c₀ events c) (fresh : c₀.Fresh) (unbound : c.state = .unbound) :
    c = c₀ := by
  induction run with
  | start => rfl
  | step run step ih =>
    have coherent := (run.coherent fresh).1
    have does := step.does coherent.unbuilt.1
    have before := does.moves.unbound unbound
    rw [← ih before]
    cases does with
    | taken => cases unbound
    | lost state | given state | late state => cases state.symm.trans before
    | minted built => cases (coherent.unbuilt.1 before).symm.trans built
    | _ => rfl

/-- Whatever a store replies, an acquisition ends, and makes its calls as it should. -/
theorem acquire_pattern {settings : Settings} (created : create settings now = .ok c₀)
    (run : Run c₀ events c) (unbound : c.state = .unbound) (b : Store.Behaviour)
    (past : List Exchange) :
    ∃ result c' log, (c.acquire.run (play b)).run past = ((result, c'), past ++ log) ∧
      c.Claims log result c' ∧ c.Settles log result c' ∧ c = c₀ ∧
      c.keys = settings.keySpace ∧ c.leaseTtl = settings.leaseTtl ∧
      c.retry.attempts = settings.retry.maxAttempts.toNat := by
  have fresh := fresh_of_create created
  have same := run.unbound fresh unbound
  subst same
  obtain ⟨schedule, accepts, rfl⟩ := create_eq_ok.1 created
  obtain ⟨log, claims, grown⟩ :=
    (claims_of_acquire unbound fresh.generator past).run fun r log => notes_play b r log
  refine ⟨_, _, log, Prod.ext rfl grown, claims, claims.settles fresh.generator, rfl, rfl, rfl, ?_⟩
  have positive : settings.retry.maxAttempts.toNat ≠ 0 :=
    fun none => accepts.attempts (UInt32.toNat_inj.1 none)
  exact Nat.max_eq_right (Nat.one_le_iff_ne_zero.2 positive)

theorem acquire_pattern_outdated :
    let c := ofSettings .longest Settings.daily
    let b : Store.Behaviour
      | [], .list _ => .error (.unavailable "")
      | _, .list _ => .ok [c.keys.leaseKey ⟨0, 0⟩]
      | _, .has key => .ok (key = c.keys.leaseKey ⟨0, 1⟩)
      | _, .set .. => .ok ()
      | _, _ => .error (.unavailable "")
    create .longest (.ofMillis 1750000000000) = .ok c ∧ Run c [] c ∧ c.state = .unbound ∧
      ∃ c' log, (c.acquire.run (play b)).run [] = ((.ok ⟨0, 2⟩, c'), log) ∧
        c'.state = .bound ⟨0, 2⟩ ∧
        ⟨.set (c.keys.leaseKey ⟨0, 2⟩) (Slot.toJson ⟨0, 2⟩) c.leaseTtl, .ok ()⟩ ∈ log := by
  intro c b
  have created : create .longest (.ofMillis 1750000000000) = .ok c :=
    create_eq_ok.2 ⟨_, Settings.longest_accepts, rfl⟩
  obtain ⟨result, c', log, run, -, settles, -⟩ := acquire_pattern created .start rfl b []
  have ended : ((c.acquire.run (play b)).run []).1.1.toOption = some ⟨0, 2⟩ := by decide +kernel
  rw [run] at ended
  cases result with
  | error e => cases ended
  | ok slot =>
    obtain rfl : slot = ⟨0, 2⟩ := Option.some.inj ended
    exact ⟨created, .start, rfl, c', log, run, settles.bound _ rfl, (settles.written _).1 rfl⟩

end Coordinator

end SlotLease
