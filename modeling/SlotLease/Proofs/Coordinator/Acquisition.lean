import SlotLease.Proofs.Coordinator.Operations

namespace SlotLease.Coordinator

open Interaction Lease

inductive Orderly (c : Coordinator) : Lease.Program (Except Error Slot × Coordinator) → Prop
  | done {result : Except Error Slot} : Orderly c (.done (result, c))
  | reads {call : Store.Call}
      {next : call.Reply → Lease.Program (Except Error Slot × Coordinator)} :
      call.written? = none → (∀ reply, Orderly c (next reply)) → Orderly c (.ask (.store call) next)
  | sleeps {next : Unit → Lease.Program (Except Error Slot × Coordinator)} :
      Orderly c (next ()) → Orderly c (.ask (.sleep time) next)
  | writes {slot : Slot}
      {next : Except StoreError Unit → Lease.Program (Except Error Slot × Coordinator)} :
      slot.InRange → next (.ok ()) = .done (.ok slot, c.holding slot) →
      (∀ cause, Orderly c (next (.error cause))) →
      Orderly c (.ask (.store (.set (c.keys.leaseKey slot) slot.toJson ttl)) next)

def Reads : Request → Prop
  | .store call => call.written? = none
  | .sleep _ => True

variable {c : Coordinator} {α : Type}

theorem Orderly.bind {p : Lease.Program α} {Q : α → Prop}
    {f : α → Lease.Program (Except Error Slot × Coordinator)} (reads : Always Reads Q p)
    (rest : ∀ a, Q a → Orderly c (f a)) : Orderly c (p >>= f) := by
  induction p with
  | done a => exact rest a reads
  | ask request next ih =>
    obtain ⟨here, later⟩ := reads
    cases request with
    | store call => exact .reads here fun reply => ih reply (later reply)
    | sleep time => exact .sleeps (ih () (later ()))

theorem always_run (r : Retry) {call : Store.Call} (reads : call.written? = none) :
    Always Reads (fun _ => True) (r.run call) := by
  have attempt : ∀ left backoff, Always Reads (fun _ => True) (r.attempt call left backoff) := by
    intro left
    induction left with
    | zero =>
      intro backoff
      rw [Retry.attempt, always_bind]
      refine ⟨reads, fun reply => ?_⟩
      cases reply <;> trivial
    | succ left ih =>
      intro backoff
      rw [Retry.attempt, always_bind]
      refine ⟨reads, fun reply => ?_⟩
      cases reply with
      | error cause => exact ⟨trivial, fun _ => ih _⟩
      | ok value => trivial
  exact attempt _ _

theorem always_firstFree (r : Retry) (slots : List Slot) (inRange : ∀ slot ∈ slots, slot.InRange) :
    Always Reads (fun result => ∀ slot, result = .ok (some slot) → slot.InRange)
      (Allocation.firstFree (fun slot => r.run (.has (c.keys.leaseKey slot))) slots) := by
  induction slots with
  | nil => rintro slot ⟨⟩
  | cons slot rest ih =>
    have looked : Always Reads (fun _ => True) (r.run (.has (c.keys.leaseKey slot))) :=
      always_run r rfl
    rw [Allocation.firstFree, always_bind]
    refine looked.mono fun result _ => ?_
    rcases result with e | _ | _
    · rintro slot ⟨⟩
    · rintro slot ⟨⟩
      exact inRange _ List.mem_cons_self
    · exact ih fun slot mem => inRange slot (List.mem_cons_of_mem _ mem)

theorem always_findSlot (c : Coordinator) :
    Always Reads (fun result => ∀ slot, result = .ok (some slot) → slot.InRange) c.findSlot := by
  rw [findSlot, always_bind]
  refine (always_run c.retry (by rfl)).mono fun result _ => ?_
  rcases result with e | _ | ⟨key, listed⟩
  · rintro slot ⟨⟩
  · rintro slot ⟨⟩
    decide
  · exact always_firstFree c.retry _ fun slot => Allocation.inRange_of_mem_candidates

theorem Orderly.write (r : Retry) {slot : Slot} (inRange : slot.InRange) (ttl : Duration)
    {f : Except Error Unit → Lease.Program (Except Error Slot × Coordinator)}
    (written : f (.ok ()) = .done (.ok slot, c.holding slot))
    (failed : ∀ e, Orderly c (f (.error e))) :
    Orderly c (r.run (.set (c.keys.leaseKey slot) slot.toJson ttl) >>= f) := by
  have attempt : ∀ left backoff,
      Orderly c (r.attempt (.set (c.keys.leaseKey slot) slot.toJson ttl) left backoff >>= f) := by
    intro left
    induction left with
    | zero => exact fun _ => .writes inRange written fun _ => failed _
    | succ left ih => exact fun _ => .writes inRange written fun _ => .sleeps (ih _)
  exact attempt _ _

theorem acquire_orderly (consistent : c.Consistent) : Orderly c c.acquire := by
  rw [acquire]
  cases state : c.state with
  | bound slot => exact .done
  | released slot => exact .done
  | expired slot => exact .done
  | unbound =>
    have fresh : c.generator = none := by simpa [state, LeaseState.slot?] using consistent.generator
    simp only [reserve, bind_assoc]
    refine .bind c.always_findSlot fun result found => ?_
    rcases result with e | _ | slot
    · exact .done
    · exact .done
    · have inRange := found slot rfl
      simp only [bind_assoc]
      apply Orderly.write c.retry inRange
      · simp only [pure_bind, hold_of_inRange inRange fresh]
        rfl
      · exact fun e => .done

end SlotLease.Coordinator
