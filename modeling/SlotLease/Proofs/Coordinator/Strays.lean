import SlotLease.Proofs.Coordinator.Footprint
import SlotLease.Proofs.Store.Strays
import SlotLease.Proofs.Upkeep

/-!
Acquisitions among stray files. Stray files make no difference as long as none of them has the name
of the slot that would be taken; if one has, the slot is looked up in vain until the attempts are
used up, although it is free, unless there are no leases and nothing is looked up.
-/

namespace SlotLease

open Interaction
open FileStore (fileName)
open Directory (Stray Strewn)
open Desk (Beside Lists)

namespace Lease

structure Client where
  desk : Desk
  handle : FileStore
  log : List Exchange

namespace Client

def answer (clock : Nat → UInt64) (listing : Directory → List String) :
    (r : Request) → StateM Client (Reply r)
  | .store call => fun w =>
    let answered := ((w.handle.answer call).run (Desk.answer clock listing)).run w.desk
    (answered.1.1, ⟨answered.2, answered.1.2, w.log ++ [⟨call, answered.1.1⟩]⟩)
  | .sleep _ => fun w => ((), w)

structure Near (strays : Directory) (w w' : Client) : Prop where
  desk : Beside strays w.desk w'.desk
  handle : w'.handle = w.handle

def Clear (strays : Directory) (log : List Exchange) : Prop :=
  ∀ x ∈ log, ∀ key, x.call = .has key → Table.get? strays (fileName key) = none

instance (strays : Directory) (log : List Exchange) : Decidable (Clear strays log) :=
  decidable_of_iff (log.all fun x => match x.call with
    | .has key => (Table.get? strays (fileName key)).isNone
    | _ => true) <| by
    rw [List.all_eq_true]
    refine forall₂_congr fun x _ => ?_
    cases x.call <;> simp

variable {clock : Nat → UInt64} {listing : Directory → List String} {strays : Directory}
  {w w' : Client} {call : Store.Call} {key : String} {node : Node} {α : Type}

theorem run_call (call : Store.Call) (w : Client) :
    ((Lease.call call).run (answer clock listing)).run w =
      let answered := ((w.handle.answer call).run (Desk.answer clock listing)).run w.desk
      (answered.1.1, ⟨answered.2, answered.1.2, w.log ++ [⟨call, answered.1.1⟩]⟩) := rfl

theorem log_grows (p : Program α) (w : Client) :
    w.log <+: ((p.run (answer clock listing)).run w).2.log := by
  induction p generalizing w with
  | done a => exact List.prefix_refl _
  | ask r next ih =>
    refine .trans ?_ (ih _ _)
    cases r with
    | store call => exact List.prefix_append _ _
    | sleep time => exact List.prefix_refl _

theorem Clear.concat {log : List Exchange} (h : Clear strays log) {reply : call.Reply}
    (other : ∀ key, call = .has key → Table.get? strays (fileName key) = none) :
    Clear strays (log ++ [⟨call, reply⟩]) := by
  intro x mem key same
  rcases List.mem_append.1 mem with mem | mem
  · exact h x mem key same
  · cases List.mem_singleton.1 mem
    exact other key same

structure Plain (strays : Directory) (call : Store.Call) : Prop where
  sought : (∃ root, call = .list root) ∨ (∃ key, call = .has key) ∨
    ∃ key value ttl, call = .set key value ttl
  other : ∀ key, call = .has key → Table.get? strays (fileName key) = none

theorem call_both (stray : strays.Stray) (lists : Lists strays listing)
    (plain : Plain strays call) (near : Near strays w w') :
    Both (answer clock listing) (Lease.call call) w (Lease.call call) w' fun a v a' v' =>
      a' = a ∧ v.log = w.log ++ [⟨call, a⟩] ∧
        (call.written? = none ∨ (∃ e, a = .error e) → Near strays v v') := by
  obtain ⟨desk, s, log⟩ := w
  obtain ⟨desk', s', log'⟩ := w'
  obtain ⟨beside, same⟩ := near
  cases same
  have blind : Both (Desk.answer clock listing) (s.answer call) desk (s.answer call) desk'
      fun a v a' v' => a' = a ∧
        (call.written? = none ∨ (∃ e, a.1 = .error e) → Beside strays v v') := by
    rcases plain.sought with ⟨root, rfl⟩ | ⟨key, rfl⟩ | ⟨key, value, ttl, rfl⟩
    · exact (s.list_both stray lists root beside).mono fun _ _ _ _ h => ⟨h.1, fun _ => h.2⟩
    · exact (s.has_both stray (plain.other _ rfl) beside).mono fun _ _ _ _ h => ⟨h.1, fun _ => h.2⟩
    · refine (s.set_both stray key value ttl beside).mono fun _ _ _ _ h => ⟨h.1, ?_⟩
      rintro (none | ⟨e, failed⟩)
      · cases none
      · exact h.2 e failed
  obtain ⟨same, beside⟩ := blind
  obtain ⟨reply, handle⟩ := Prod.ext_iff.1 same
  exact ⟨reply, rfl, fun h => ⟨beside h, handle⟩⟩

theorem run_both (r : Retry) (stray : strays.Stray) (lists : Lists strays listing)
    (plain : Plain strays call) (near : Near strays w w') (clear : Clear strays w.log) :
    Both (answer clock listing) (r.run call) w (r.run call) w' fun a v a' v' =>
      a' = a ∧ Clear strays v.log ∧
        (call.written? = none ∨ (∃ e, a = .error e) → Near strays v v') := by
  have attempt : ∀ left backoff, Both (answer clock listing) (r.attempt call left backoff) w
      (r.attempt call left backoff) w' fun a v a' v' => a' = a ∧ Clear strays v.log ∧
        (call.written? = none ∨ (∃ e, a = .error e) → Near strays v v') := by
    intro left
    induction left generalizing w w' with
    | zero =>
      intro backoff
      refine (both_bind ..).2 ((call_both stray lists plain near).mono ?_)
      rintro _ v reply v' ⟨rfl, grown, near⟩
      have clear := grown ▸ clear.concat plain.other
      cases reply with
      | error cause => exact ⟨rfl, clear, fun _ => near (.inr ⟨_, rfl⟩)⟩
      | ok value => exact ⟨rfl, clear, fun h => near (h.imp_right nofun)⟩
    | succ left ih =>
      intro backoff
      refine (both_bind ..).2 ((call_both stray lists plain near).mono ?_)
      rintro _ v reply v' ⟨rfl, grown, near⟩
      have clear := grown ▸ clear.concat plain.other
      cases reply with
      | error cause => exact ih (near (.inr ⟨_, rfl⟩)) clear _
      | ok value => exact ⟨rfl, clear, fun h => near (h.imp_right nofun)⟩
  exact attempt _ _

theorem call_has_free (clock : Nat → UInt64) (listing : Directory → List String)
    (stray : strays.Stray) (near : Near strays w w')
    (found : Table.get? strays (fileName key) = some node) :
    ((Lease.call (.has key)).run (answer clock listing)).run w =
      (.ok false, { w with log := w.log ++ [⟨.has key, .ok false⟩] }) := by
  have free : ((w.handle.answer (.has key)).run (Desk.answer clock listing)).run w.desk = _ :=
    w.handle.run_has_free clock listing stray near.desk found
  rw [run_call, free]

theorem call_has_stray (clock : Nat → UInt64) (listing : Directory → List String)
    (stray : strays.Stray) (near : Near strays w w')
    (found : Table.get? strays (fileName key) = some node) :
    ((Lease.call (.has key)).run (answer clock listing)).run w' =
      (.error (.corrupt (w.handle.pathOf (fileName key))), { w' with
        log := w'.log ++ [⟨.has key, .error (.corrupt (w.handle.pathOf (fileName key)))⟩] }) := by
  have corrupt : ((w'.handle.answer (.has key)).run (Desk.answer clock listing)).run w'.desk = _ :=
    w'.handle.run_has_stray clock listing stray near.desk found
  rw [run_call, corrupt, near.handle]

theorem run_free (r : Retry) (clock : Nat → UInt64) (listing : Directory → List String)
    (stray : strays.Stray) (near : Near strays w w')
    (found : Table.get? strays (fileName key) = some node) :
    ((r.run (.has key)).run (answer clock listing)).run w =
      (.ok false, { w with log := w.log ++ [⟨.has key, .ok false⟩] }) := by
  rw [Retry.run]
  cases r.attempts - 1 with
  | zero =>
    rw [Retry.attempt, run_bind, call_has_free clock listing stray near found]
    rfl
  | succ left =>
    rw [Retry.attempt, run_bind, call_has_free clock listing stray near found]
    rfl

theorem run_stray (r : Retry) (clock : Nat → UInt64) (listing : Directory → List String)
    (stray : strays.Stray) (near : Near strays w w')
    (found : Table.get? strays (fileName key) = some node) :
    ∃ log, ((r.run (.has key)).run (answer clock listing)).run w' =
      (.error (.storeUnavailable .has r.attempts (.corrupt (w.handle.pathOf (fileName key)))),
        { w' with log }) := by
  have attempt : ∀ left backoff, ∃ log,
      ((r.attempt (.has key) left backoff).run (answer clock listing)).run w' =
        (.error (.storeUnavailable .has r.attempts (.corrupt (w.handle.pathOf (fileName key)))),
          { w' with log }) := by
    intro left
    induction left generalizing w' with
    | zero =>
      intro backoff
      rw [Retry.attempt, run_bind, call_has_stray clock listing stray near found]
      exact ⟨_, rfl⟩
    | succ left ih =>
      intro backoff
      rw [Retry.attempt, run_bind, call_has_stray clock listing stray near found]
      have later (log) : Near strays w { w' with log } := ⟨near.desk, near.handle⟩
      exact ih (later _) _
  exact attempt _ _

theorem always_run_operation (r : Retry) (call : Store.Call) :
    Always (fun _ => True) (fun result => ∀ e, result = .error e →
      ∃ cause, e = .storeUnavailable call.operation r.attempts cause) (r.run call) := by
  have attempt : ∀ left backoff, Always (fun _ => True) (fun result => ∀ e, result = .error e →
      ∃ cause, e = .storeUnavailable call.operation r.attempts cause)
      (r.attempt call left backoff) := by
    intro left
    induction left with
    | zero =>
      intro backoff
      refine (always_bind ..).2 ⟨trivial, fun reply => ?_⟩
      cases reply with
      | error cause =>
        rintro _ ⟨⟩
        exact ⟨cause, rfl⟩
      | ok value => exact nofun
    | succ left ih =>
      intro backoff
      refine (always_bind ..).2 ⟨trivial, fun reply => ?_⟩
      cases reply with
      | error cause => exact ⟨trivial, fun _ => ih _⟩
      | ok value => exact nofun
  exact attempt _ _

end Client

end Lease

namespace Coordinator

open Lease Lease.Client

variable {clock : Nat → UInt64} {listing : Directory → List String} {strays d d' : Directory}
  {w w' : Client} {c : Coordinator}

structure Hides (strays : Directory) (c : Coordinator) (slot : Slot) (log : List Exchange) :
    Prop where
  free : ⟨.has (c.keys.leaseKey slot), .ok false⟩ ∈ log
  stray : (Table.get? strays (fileName (c.keys.leaseKey slot))).isSome

def strayError (c : Coordinator) (slot : Slot) (handle : FileStore) : Error :=
  .storeUnavailable .has c.retry.attempts
    (.corrupt (handle.pathOf (fileName (c.keys.leaseKey slot))))

inductive Differs (strays : Directory) (c : Coordinator) : Except Error (Option Slot) → Client →
    Except Error (Option Slot) → Client → Prop
  | same : Clear strays v.log → Near strays v v' → Differs strays c found v found v'
  | lost : Hides strays c slot v.log →
      Differs strays c (.ok (some slot)) v (.error (c.strayError slot v'.handle)) v'

theorem Hides.not_clear {slot : Slot} {log : List Exchange} (hides : Hides strays c slot log) :
    ¬ Clear strays log := fun clear => by
  have stray := hides.stray
  rw [clear _ hides.free _ rfl] at stray
  cases stray

theorem firstFree_both (c : Coordinator) (stray : strays.Stray) (lists : Lists strays listing)
    (slots : List Slot) (near : Near strays w w') (clear : Clear strays w.log) :
    let p := Allocation.firstFree (fun slot => c.retry.run (.has (c.keys.leaseKey slot))) slots
    Both (answer clock listing) p w p w' (Differs strays c) := by
  induction slots generalizing w w' with
  | nil => exact .same clear near
  | cons slot rest ih =>
    intro p
    cases found : Table.get? strays (fileName (c.keys.leaseKey slot)) with
    | none =>
      have plain : Plain strays (.has (c.keys.leaseKey slot)) :=
        ⟨.inr (.inl ⟨_, rfl⟩), fun _ same => Store.Call.has.inj same ▸ found⟩
      refine (both_bind ..).2 ((run_both c.retry stray lists plain near clear).mono ?_)
      rintro _ v result v' ⟨rfl, clear, near⟩
      replace near : Near strays v v' := near (.inl rfl)
      rcases result with e | _ | _
      · exact .same clear near
      · exact .same clear near
      · exact ih near clear
    | some node =>
      have free := run_free c.retry clock listing stray near found
      obtain ⟨log, lost⟩ := run_stray c.retry clock listing stray near found
      simp only [p, Both, Allocation.firstFree, run_bind, free, lost, ← near.handle]
      let v' : Client := { w' with log }
      show Differs strays c (.ok (some slot))
        ⟨w.desk, w'.handle, w.log ++ [⟨.has (c.keys.leaseKey slot), .ok false⟩]⟩
        (.error (c.strayError slot v'.handle)) v'
      exact .lost ⟨List.mem_append_right _ (List.mem_singleton_self _), by rw [found]; rfl⟩

theorem findSlot_both (c : Coordinator) (stray : strays.Stray) (lists : Lists strays listing)
    (near : Near strays w w') (clear : Clear strays w.log) :
    Both (answer clock listing) c.findSlot w c.findSlot w' (Differs strays c) := by
  have plain : Plain strays (.list c.keys.scanRoot) := ⟨.inl ⟨_, rfl⟩, nofun⟩
  refine (both_bind ..).2 ((run_both c.retry stray lists plain near clear).mono ?_)
  rintro _ v result v' ⟨rfl, clear, near⟩
  replace near : Near strays v v' := near (.inl rfl)
  rcases result with e | _ | ⟨key, listed⟩
  · exact .same clear near
  · exact .same clear near
  · exact c.firstFree_both stray lists _ near clear

inductive Parts (strays : Directory) (c : Coordinator) :
    Except Error Slot → Client → Except Error Slot → Client → Prop
  | same : Clear strays v.log → Parts strays c result v result v'
  | lost : Hides strays c slot v.log → result ≠ .error (c.strayError slot v'.handle) →
      Parts strays c result v (.error (c.strayError slot v'.handle)) v'

theorem reserve_both (c : Coordinator) (stray : strays.Stray) (lists : Lists strays listing)
    (near : Near strays w w') (clear : Clear strays w.log) :
    Both (answer clock listing) c.reserve w c.reserve w' (Parts strays c) := by
  refine (both_bind ..).2 ((c.findSlot_both stray lists near clear).mono ?_)
  intro found v _ v' differs
  cases differs with
  | same clear near =>
    rcases found with e | _ | slot
    · exact .same clear
    · exact .same clear
    · have plain : Plain strays (.set (c.keys.leaseKey slot) slot.toJson c.leaseTtl) :=
        ⟨.inr (.inr ⟨_, _, _, rfl⟩), nofun⟩
      refine (both_bind ..).2 ((run_both c.retry stray lists plain near clear).mono ?_)
      rintro _ v written v' ⟨rfl, clear, _⟩
      cases written <;> exact .same clear
  | @lost slot _ _ hides =>
    refine .lost ⟨(log_grows _ _).subset hides.free, hides.stray⟩ ?_
    -- The lease is written, or an error tells that it was not.
    refine (ends_run _ _).always (P := fun _ => True) (Q := (· ≠ _)) ((always_bind ..).2 ?_)
    refine (always_run_operation c.retry _).mono fun written failed => ?_
    cases written with
    | error e =>
      obtain ⟨cause, rfl⟩ := failed e rfl
      exact nofun
    | ok _ => exact nofun

theorem acquire_both (fresh : c.Fresh) (stray : strays.Stray) (lists : Lists strays listing)
    (near : Near strays w w') (clear : Clear strays w.log) :
    Both (answer clock listing) c.acquire w c.acquire w' fun a v a' v' =>
      Parts strays c a.1 v a'.1 v' := by
  rw [acquire, fresh.state]
  refine (both_bind ..).2 ((c.reserve_both stray lists near clear).ends.mono ?_)
  rintro result v _ v' ⟨ends, parts⟩
  cases result with
  | error e => cases parts with
    | same clear => exact .same clear
    | lost hides other => exact .lost hides other
  | ok slot =>
    have holds := hold_of_inRange (inRange_of_reserve ends) fresh.generator
    cases parts with
    | same clear =>
      simp only [holds]
      exact .same clear
    | lost hides =>
      simp only [holds]
      exact .lost hides (by rintro ⟨⟩)

def acquireIn (c : Coordinator) (clock : Nat → UInt64) (listing : Directory → List String)
    (s : FileStore) (d : Directory) : (Except Error Slot × Coordinator) × Client :=
  (c.acquire.run (answer clock listing)).run ⟨⟨d, 0⟩, s, []⟩

/-- An acquisition among stray files ends as it does without them exactly if none of them has the
name of a key that is looked up there; otherwise it fails at the lease of a slot that is free. -/
theorem acquire_among_strays {settings : Settings} {now : Instant}
    (created : create settings now = .ok c) (stray : strays.Stray) (strewn : Strewn strays d d')
    (lists : Lists strays listing) (clock : Nat → UInt64) (s : FileStore) :
    let bare := c.acquireIn clock listing s d
    let among := c.acquireIn clock listing s d'
    (among.1.1 = bare.1.1 ↔ Clear strays bare.2.log) ∧
      (¬ Clear strays bare.2.log → ∃ slot, Hides strays c slot bare.2.log ∧
        among.1.1 = .error (c.strayError slot among.2.handle)) := by
  intro bare among
  have near : Near strays ⟨⟨d, 0⟩, s, []⟩ ⟨⟨d', 0⟩, s, []⟩ := ⟨⟨strewn, rfl⟩, rfl⟩
  have parts : Parts strays c bare.1.1 bare.2 among.1.1 among.2 :=
    acquire_both (fresh_of_create created) stray lists near nofun
  generalize bare.1.1 = result, bare.2 = v, among.1.1 = result', among.2 = v' at parts
  cases parts with
  | same clear => exact ⟨⟨fun _ => clear, fun _ => rfl⟩, fun hidden => absurd clear hidden⟩
  | @lost slot _ _ _ hides other =>
    have hidden := hides.not_clear
    exact ⟨⟨fun same => absurd same.symm other, fun clear => absurd clear hidden⟩,
      fun _ => ⟨slot, hides, rfl⟩⟩

theorem acquire_among_strays_elsewhere :
    let c := ofSettings .longest Settings.daily
    let s : FileStore := ⟨"leases", 7, 0⟩
    let clock : Nat → UInt64 := fun _ => 1750000000000
    let d := (c.acquireIn clock Table.keys s ∅).2.desk.directory
    let strays : Directory := Table.insert ∅ (fileName "notes") (.file "".toUTF8)
    let d' := Table.insert d (fileName "notes") (.file "".toUTF8)
    create .longest (.ofMillis 1750000000000) = .ok c ∧ strays.Stray ∧ Strewn strays d d' ∧
      Lists strays Table.keys ∧ Clear strays (c.acquireIn clock Table.keys s d).2.log ∧
      (c.acquireIn clock Table.keys s d).1.1 = .ok ⟨0, 1⟩ ∧
      (c.acquireIn clock Table.keys s d').1.1 = (c.acquireIn clock Table.keys s d).1.1 := by
  intro c s clock d strays d'
  have created : create .longest (.ofMillis 1750000000000) = .ok c :=
    create_eq_ok.2 ⟨_, Settings.longest_accepts, rfl⟩
  have stray : strays.Stray := Directory.stray_insert (by decide) rfl
  obtain ⟨free, clear, acquired⟩ : Table.get? d (fileName "notes") = none ∧
      Clear strays (c.acquireIn clock Table.keys s d).2.log ∧
      (c.acquireIn clock Table.keys s d).1.1 = .ok ⟨0, 1⟩ := by decide +kernel
  have strewn : Strewn strays d d' := Directory.strewn_insert free _
  have lists := Desk.lists_keys strays
  have among := acquire_among_strays created stray strewn lists clock s
  exact ⟨created, stray, strewn, lists, clear, acquired, among.1.2 clear⟩

theorem acquire_fails_at_stray :
    let c := ofSettings .longest Settings.daily
    let s : FileStore := ⟨"leases", 7, 0⟩
    let clock : Nat → UInt64 := fun _ => 1750000000000
    let d := (c.acquireIn clock Table.keys s ∅).2.desk.directory
    let name := fileName (c.keys.leaseKey ⟨0, 1⟩)
    let strays : Directory := Table.insert ∅ name (.file "".toUTF8)
    let d' := Table.insert d name (.file "".toUTF8)
    create .longest (.ofMillis 1750000000000) = .ok c ∧ strays.Stray ∧ Strewn strays d d' ∧
      Lists strays Table.keys ∧ (c.acquireIn clock Table.keys s d).1.1 = .ok ⟨0, 1⟩ ∧
      (c.acquireIn clock Table.keys s d').1.1 = .error (c.strayError ⟨0, 1⟩ s) := by
  intro c s clock d name strays d'
  have created : create .longest (.ofMillis 1750000000000) = .ok c :=
    create_eq_ok.2 ⟨_, Settings.longest_accepts, rfl⟩
  obtain ⟨short, free, bare, among⟩ : (c.keys.leaseKey ⟨0, 1⟩).utf8ByteSize ≤ 124 ∧
      Table.get? d name = none ∧ (c.acquireIn clock Table.keys s d).1.1 = .ok ⟨0, 1⟩ ∧
      (c.acquireIn clock Table.keys s d').1.1 = .error (c.strayError ⟨0, 1⟩ s) := by
    decide +kernel
  exact ⟨created, Directory.stray_insert short rfl, Directory.strewn_insert free _,
    Desk.lists_keys strays, bare, among⟩

end Coordinator

end SlotLease
