import SlotLease.Proofs.Coordinator.Lifecycle
import SlotLease.Proofs.Coordinator.Progress

namespace SlotLease

open Interaction

structure Exchange where
  call : Store.Call
  reply : call.Reply

namespace Exchange

def isWritten : Exchange → Bool
  | ⟨.set .., .ok _⟩ => true
  | _ => false

def isDeletion : Exchange → Bool
  | ⟨.delete _, _⟩ => true
  | _ => false

def Harmless (x : Exchange) : Prop := x.isWritten = false ∧ x.isDeletion = false

theorem harmless_of_unwritten {call : Store.Call} {reply : call.Reply}
    (unwritten : call.written? = none) : Harmless ⟨call, reply⟩ := by
  cases call with
  | list | has | get => exact ⟨rfl, rfl⟩
  | set | refresh | delete => cases unwritten

theorem countP_isWritten {log : List Exchange} (harmless : ∀ x ∈ log, x.Harmless) :
    log.countP isWritten = 0 :=
  List.countP_eq_zero.2 fun x mem => by simp [(harmless x mem).1]

theorem countP_isDeletion {log : List Exchange} (harmless : ∀ x ∈ log, x.Harmless) :
    log.countP isDeletion = 0 :=
  List.countP_eq_zero.2 fun x mem => by simp [(harmless x mem).2]

end Exchange

namespace Lease

inductive Notes : (r : Request) → List Exchange → Reply r → List Exchange → Prop
  | call {call : Store.Call} {reply : call.Reply} :
      Notes (.store call) log reply (log ++ [⟨call, reply⟩])
  | sleep : Notes (.sleep time) log () log

/-- A store that nobody else uses replies, or fails without effect, while time goes on. -/
inductive Alone : (r : Request) → SharedStore → Reply r → SharedStore → Prop
  | call {call : Store.Call} {reply : call.Reply} : SharedStore.Answers call σ reply σ' →
      Alone (.store call) σ reply σ'
  | fault {call : Store.Call} : Alone (.store call) σ (.error cause) σ
  | sleep : σ.Passes σ' → Alone (.sleep time) σ () σ'

def Request.Leases (keys : KeySpace) : Request → Prop
  | .store call => ∀ key, call.written? = some key → keys.leases Slot.InRange key
  | .sleep _ => True

theorem Alone.ages {keys : KeySpace} {r : Request} {reply : Reply r} {σ σ' : SharedStore}
    (h : Alone r σ reply σ') (leases : r.Leases keys) (sound : σ.Sound) :
    σ'.Sound ∧ σ.shelf.Ages (fun key => ¬ keys.leases Slot.InRange key) σ'.shelf := by
  cases h with
  | call answered =>
    obtain ⟨_, sound, conforms⟩ := answered.conforms sound
    exact ⟨sound, conforms.ages.mono fun key other written => other (leases key written)⟩
  | fault => exact ⟨sound, .refl _⟩
  | sleep passes => exact ⟨passes.ages.2.1 sound, passes.ages.2.2.weaken⟩

end Lease

namespace LeaseState

variable {s s' : LeaseState}

theorem Moves.keeps_slot (h : s.Moves s') {slot : Slot} (own : s.slot? = some slot) :
    s'.slot? = some slot := by
  cases h with
  | stays => exact own
  | taken => cases own
  | released | expired | late => exact own

theorem Moves.unbound (h : s.Moves s') (unbound : s' = .unbound) : s = .unbound := by
  cases h <;> first | exact unbound | cases unbound

theorem Moves.not_terminal (h : s.Moves s') (alive : s'.isTerminal = false) :
    s.isTerminal = false := by
  cases h <;> first | exact alive | rfl

end LeaseState

namespace Coordinator

open Lease

inductive Works {W : Type} (answers : (r : Request) → W → Reply r → W → Prop) (c : Coordinator)
    (w : W) : Event → Coordinator → W → Prop
  | acquired : Runs answers c.acquire w (result, c') w' → Works answers c w (.acquired result) c' w'
  | renewed : Runs answers c.renew w (result, c') w' → Works answers c w (.renewed result) c' w'
  | released : Runs answers c.release w (result, c') w' → Works answers c w (.released result) c' w'
  | verified : Runs answers c.verify w result w' → Works answers c w (.verified result) c w'
  | polled : Ends c.poll (outcome, c') → Works answers c w (.polled outcome) c' w
  | made {spins : Nat} : Ends (c.next spins) (outcome, c') → Works answers c w (.made outcome) c' w
  | numbered {spins : Nat} : Ends (c.nextSigned spins) (outcome, c') →
      Works answers c w (.numbered outcome) c' w

inductive Touches (c : Coordinator) : Event → Coordinator → List Exchange → Prop
  | silent : Touches c event c' []
  | sought : c.state = .unbound → (∀ x ∈ log, x.Harmless) → Touches c (.acquired result) c' log
  | taken : c.state = .unbound → c'.state = .bound slot → (∀ x ∈ log, x.Harmless) →
      Touches c (.acquired result) c'
        (log ++ [⟨.set (c.keys.leaseKey slot) slot.toJson ttl, .ok ()⟩])
  | renewed {reply : Except StoreError Bool} : c.state = .bound slot →
      Touches c (.renewed result) c' [⟨.refresh (c.keys.leaseKey slot) c.leaseTtl, reply⟩]
  | released {reply : Except StoreError Bool} : c.state = .bound slot → c'.state = .released slot →
      Touches c (.released result) c' [⟨.delete (c.keys.leaseKey slot), reply⟩]
  | verified {reply : Except StoreError (Option String)} : c.state = .bound slot →
      Touches c (.verified result) c' [⟨.get (c.keys.leaseKey slot), reply⟩]

inductive History (c₀ : Coordinator) : List (Event × List Exchange) → Coordinator → Prop
  | start : History c₀ [] c₀
  | works : History c₀ history c → Works Notes c [] event c' log →
      History c₀ (history ++ [(event, log)]) c'

inductive Uses (c₀ : Coordinator) (σ₀ : SharedStore) : List Event → Coordinator → SharedStore → Prop
  | start : Uses c₀ σ₀ [] c₀ σ₀
  | passes : Uses c₀ σ₀ events c σ → σ.Passes σ' → Uses c₀ σ₀ events c σ'
  | works : Uses c₀ σ₀ events c σ → Works Alone c σ event c' σ' →
      Uses c₀ σ₀ (events ++ [event]) c' σ'

variable {W : Type} {answers : (r : Request) → W → Reply r → W → Prop} {w w' : W}
  {c c' c₀ : Coordinator} {event : Event} {slot : Slot} {log log' : List Exchange}
  {history : List (Event × List Exchange)}

theorem Works.step (h : Works answers c w event c' w') : Step c event c' := by
  cases h with
  | acquired run => exact .acquired run.ends
  | renewed run => exact .renewed run.ends
  | released run => exact .released run.ends
  | verified run => exact .verified run.ends
  | polled ends => exact .polled ends
  | made ends => exact .made ends
  | numbered ends => exact .numbered ends

theorem Does.keys (does : c.Does event c') : c'.keys = c.keys := by
  cases does <;> rfl

theorem Orderly.leases {p : Lease.Program (Except Error Slot × Coordinator)}
    (orderly : Orderly c p) : Always (Request.Leases c.keys) (fun _ => True) p := by
  induction orderly with
  | done => trivial
  | reads unwritten _ ih =>
    refine ⟨fun key written => ?_, ih⟩
    rw [unwritten] at written
    cases written
  | sleeps _ ih => exact ⟨trivial, fun _ => ih⟩
  | @writes _ slot next inRange written _ ih =>
    refine ⟨?_, fun reply => ?_⟩
    · intro key named
      exact ⟨slot, inRange, (Option.some.inj named).symm⟩
    · cases reply with
      | error cause => exact ih cause
      | ok _ =>
        rw [written]
        trivial

theorem renew_leases (consistent : c.Consistent) :
    Always (Request.Leases c.keys) (fun _ => True) c.renew := by
  rw [renew]
  cases state : c.state with
  | bound slot =>
    refine (always_bind ..).2 ⟨?_, fun reply => ?_⟩
    · intro key written
      exact ⟨slot, consistent.inRange slot (by rw [state]; rfl), (Option.some.inj written).symm⟩
    · rcases reply with cause | _ | _ <;> trivial
  | _ => trivial

theorem release_leases (consistent : c.Consistent) :
    Always (Request.Leases c.keys) (fun _ => True) c.release := by
  rw [release]
  cases state : c.state with
  | bound slot =>
    refine (always_bind ..).2 ⟨?_, fun reply => ?_⟩
    · intro key written
      exact ⟨slot, consistent.inRange slot (by rw [state]; rfl), (Option.some.inj written).symm⟩
    · cases reply <;> trivial
  | _ => trivial

theorem verify_leases (c : Coordinator) :
    Always (Request.Leases c.keys) (fun _ => True) c.verify := by
  rw [verify]
  split
  · trivial
  · refine (always_bind ..).2 ⟨?_, fun reply => ?_⟩
    · intro key written
      cases written
    · cases reply with
      | error cause => trivial
      | ok found =>
        show Always _ _ (if _ then _ else _)
        split <;> trivial

theorem Works.keeps {I : W → Prop} (h : Works answers c w event c' w') (consistent : c.Consistent)
    (start : I w)
    (kept : ∀ r w reply w', r.Leases c.keys → I w → answers r w reply w' → I w') : I w' := by
  cases h with
  | acquired run => exact (run.ensured ((acquire_orderly consistent).leases.ensures start kept)).2
  | renewed run => exact (run.ensured ((renew_leases consistent).ensures start kept)).2
  | released run => exact (run.ensured ((release_leases consistent).ensures start kept)).2
  | verified run => exact (run.ensured (c.verify_leases.ensures start kept)).2
  | polled | made | numbered => exact start

def Seeks (c : Coordinator) (log : List Exchange) (c' : Coordinator) (log' : List Exchange) :
    Prop :=
  ∃ new, (∀ x ∈ new, x.Harmless) ∧ (log' = log ++ new ∨ ∃ (slot : Slot) (ttl : Duration),
    c' = c.holding slot ∧
      log' = log ++ (new ++ [⟨.set (c.keys.leaseKey slot) slot.toJson ttl, .ok ()⟩]))

theorem Seeks.cons {x : Exchange} (harmless : x.Harmless) (h : Seeks c (log ++ [x]) c' log') :
    Seeks c log c' log' := by
  obtain ⟨new, rest, seeks⟩ := h
  refine ⟨x :: new, List.forall_mem_cons.2 ⟨harmless, rest⟩, ?_⟩
  simpa only [List.append_assoc, List.cons_append, List.nil_append] using seeks

theorem Orderly.notes {p : Lease.Program (Except Error Slot × Coordinator)}
    (orderly : Orderly c p) (log : List Exchange) :
    Ensures Notes p (fun result log' => Seeks c log result.2 log') log := by
  induction orderly generalizing log with
  | done => exact ⟨[], nofun, .inl (List.append_nil log).symm⟩
  | reads unwritten _ ih =>
    intro reply log' noted
    cases noted
    exact (ih reply _).mono fun _ _ seeks => seeks.cons (Exchange.harmless_of_unwritten unwritten)
  | sleeps _ ih =>
    intro reply log' noted
    cases noted
    exact ih _
  | @writes ttl slot next _ written _ ih =>
    intro reply log' noted
    cases noted
    cases reply with
    | error cause => exact (ih cause _).mono fun _ _ seeks => seeks.cons ⟨rfl, rfl⟩
    | ok _ =>
      rw [written]
      exact ⟨[], nofun, .inr ⟨slot, ttl, rfl, rfl⟩⟩

theorem acquire_notes (consistent : c.Consistent) :
    Ensures Notes c.acquire (fun result log => Touches c (.acquired result.1) result.2 log) [] := by
  cases state : c.state with
  | unbound =>
    refine ((acquire_orderly consistent).notes []).mono fun result log seeks => ?_
    obtain ⟨new, harmless, rfl | ⟨slot, ttl, same, rfl⟩⟩ := seeks
    · exact .sought state harmless
    · exact .taken state (by rw [same]; rfl) harmless
  | bound slot | released slot | expired slot =>
    rw [acquire, state]
    exact .silent

theorem renew_notes (c : Coordinator) :
    Ensures Notes c.renew (fun result log => Touches c (.renewed result.1) result.2 log) [] := by
  rw [renew]
  cases state : c.state with
  | bound slot =>
    intro reply log noted
    cases noted
    rcases reply with cause | _ | _ <;> exact .renewed state
  | unbound | released | expired => exact .silent

theorem release_notes (c : Coordinator) :
    Ensures Notes c.release (fun result log => Touches c (.released result.1) result.2 log) [] := by
  rw [release]
  cases state : c.state with
  | bound slot =>
    intro reply log noted
    cases noted
    cases reply <;> exact .released state rfl
  | unbound | released | expired => exact .silent

theorem verify_notes (consistent : c.Consistent) :
    Ensures Notes c.verify (fun result log => Touches c (.verified result) c log) [] := by
  rw [verify, consistent.issuing]
  cases state : c.state with
  | bound slot =>
    intro reply log noted
    cases noted
    cases reply with
    | error cause => exact .verified state
    | ok found =>
      show Ensures _ (if _ then _ else _) _ _
      split <;> exact .verified state
  | unbound | released | expired => exact .silent

theorem Works.touches (h : Works Notes c [] event c' log) (consistent : c.Consistent) :
    Touches c event c' log := by
  cases h with
  | acquired run => exact run.ensured (acquire_notes consistent)
  | renewed run => exact run.ensured c.renew_notes
  | released run => exact run.ensured c.release_notes
  | verified run => exact run.ensured (verify_notes consistent)
  | polled | made | numbered => exact .silent

theorem Touches.named (h : Touches c event c' log) (own : c.state.slot? = some slot) :
    ∀ x ∈ log, x.call.key? = some (c.keys.leaseKey slot) := by
  cases h with
  | silent => exact nofun
  | sought state | taken state =>
    rw [state] at own
    cases own
  | renewed state | released state | verified state =>
    rw [state] at own
    cases own
    simp [Store.Call.key?]

theorem Touches.written (h : Touches c event c' log) : log.countP Exchange.isWritten = 0 ∨
    c.state = .unbound ∧ c'.state ≠ .unbound ∧ log.countP Exchange.isWritten = 1 := by
  cases h with
  | sought _ harmless => exact .inl (Exchange.countP_isWritten harmless)
  | taken state bound harmless =>
    refine .inr ⟨state, by simp [bound], ?_⟩
    rw [List.countP_append, Exchange.countP_isWritten harmless]
    rfl
  | silent | renewed | released | verified => exact .inl rfl

theorem Touches.deleted (h : Touches c event c' log) : log.countP Exchange.isDeletion = 0 ∨
    c.state.isTerminal = false ∧ c'.state.isTerminal = true ∧
      log.countP Exchange.isDeletion = 1 := by
  cases h with
  | sought _ harmless => exact .inl (Exchange.countP_isDeletion harmless)
  | taken _ _ harmless =>
    left
    rw [List.countP_append, Exchange.countP_isDeletion harmless]
    rfl
  | released state given => exact .inr ⟨by rw [state]; rfl, by rw [given]; rfl, rfl⟩
  | silent | renewed | verified => exact .inl rfl

structure Quiet (c : Coordinator) (event : Event) (log : List Exchange) : Prop where
  bound : c.state.isBound = true → ∀ result, event = .acquired result → log = []
  ended : c.state.isTerminal = true → log = []
  unbound : c.state = .unbound →
    ∀ result, event = .renewed result ∨ event = .released result → log = []

theorem Touches.quiet (h : Touches c event c' log) : Quiet c event log := by
  cases h with
  | silent => exact ⟨fun _ _ _ => rfl, fun _ => rfl, fun _ _ _ => rfl⟩
  | sought state | taken state =>
    constructor <;> simp [state, LeaseState.isBound, LeaseState.isTerminal]
  | renewed state | released state | verified state =>
    constructor <;> simp [state, LeaseState.isBound, LeaseState.isTerminal]

def calls (history : List (Event × List Exchange)) : List Exchange := history.flatMap (·.2)

theorem calls_concat (history : List (Event × List Exchange)) (event : Event)
    (log : List Exchange) : calls (history ++ [(event, log)]) = calls history ++ log := by
  simp [calls]

structure Footprint (keys : KeySpace) (history : List (Event × List Exchange)) : Prop where
  written : (calls history).countP Exchange.isWritten ≤ 1
  deleted : (calls history).countP Exchange.isDeletion ≤ 1
  named : history.Pairwise fun before after => ∀ slot, before.1 = .acquired (.ok slot) →
    ∀ x ∈ after.2, x.call.key? = some (keys.leaseKey slot)
  leases : ∀ x ∈ calls history, ∀ key, x.call.written? = some key → keys.leases Slot.InRange key

structure Tracks (history : List (Event × List Exchange)) (c : Coordinator) : Prop extends
    c.Coherent, Footprint c.keys history where
  unwritten : c.state = .unbound → (calls history).countP Exchange.isWritten = 0
  undeleted : c.state.isTerminal = false → (calls history).countP Exchange.isDeletion = 0
  taken : ∀ a ∈ history, ∀ slot, a.1 = .acquired (.ok slot) → c.state.slot? = some slot

theorem Fresh.tracks (h : c.Fresh) : Tracks [] c where
  toCoherent := h.coherent
  written := Nat.zero_le _
  deleted := Nat.zero_le _
  named := .nil
  leases := nofun
  unwritten _ := rfl
  undeleted _ := rfl
  taken := nofun

theorem Does.taken_slot (does : c.Does (.acquired (.ok slot)) c') : c'.state.slot? = some slot := by
  cases does with
  | again state => rw [state]; rfl
  | taken => rfl
  | early _ minting => cases minting
  | ended _ _ minting => cases minting
  | minted _ _ minting => cases minting

theorem Footprint.concat {keys : KeySpace} (h : Footprint keys history)
    (written : (calls history).countP Exchange.isWritten + log.countP Exchange.isWritten ≤ 1)
    (deleted : (calls history).countP Exchange.isDeletion + log.countP Exchange.isDeletion ≤ 1)
    (named : ∀ before ∈ history, ∀ slot, before.1 = .acquired (.ok slot) →
      ∀ x ∈ log, x.call.key? = some (keys.leaseKey slot))
    (leases : ∀ x ∈ log, ∀ key, x.call.written? = some key → keys.leases Slot.InRange key) :
    Footprint keys (history ++ [(event, log)]) where
  written := by rwa [calls_concat, List.countP_append]
  deleted := by rwa [calls_concat, List.countP_append]
  named := by
    refine List.pairwise_append.2 ⟨h.named, List.pairwise_singleton .., ?_⟩
    intro before mem _ last
    cases List.mem_singleton.1 last
    exact named before mem
  leases := by
    rw [calls_concat]
    exact List.forall_mem_append.2 ⟨h.leases, leases⟩

theorem Works.leases (h : Works Notes c [] event c' log) (consistent : c.Consistent) :
    ∀ x ∈ log, ∀ key, x.call.written? = some key → c.keys.leases Slot.InRange key := by
  refine h.keeps (I := fun log => ∀ x ∈ log, ∀ key, x.call.written? = some key →
    c.keys.leases Slot.InRange key) consistent nofun ?_
  intro r log reply log' leases noted answered
  cases answered with
  | sleep => exact noted
  | call => exact List.forall_mem_append.2 ⟨noted, List.forall_mem_singleton.2 leases⟩

theorem Tracks.works (h : Tracks history c) (works : Works Notes c [] event c' log) :
    Tracks (history ++ [(event, log)]) c' := by
  have does := works.step.does h.unbuilt.1
  have moves := does.moves
  have touches := works.touches h.toConsistent
  refine ⟨does.coherent h.toCoherent, ?footprint, fun unbound => ?unwritten,
    fun alive => ?undeleted, ?taken⟩
  case footprint =>
    rw [does.keys]
    refine h.concat ?_ ?_ ?_ (works.leases h.toConsistent)
    · rcases touches.written with none | ⟨unbound, -, one⟩
      · exact none ▸ h.written
      · rw [h.unwritten unbound, one]
    · rcases touches.deleted with none | ⟨alive, -, one⟩
      · exact none ▸ h.deleted
      · rw [h.undeleted alive, one]
    · exact fun before mem slot acquired => touches.named (h.taken before mem slot acquired)
  case unwritten =>
    rw [calls_concat, List.countP_append, h.unwritten (moves.unbound unbound)]
    rcases touches.written with none | ⟨-, bound, -⟩
    · rw [none]
    · exact absurd unbound bound
  case undeleted =>
    rw [calls_concat, List.countP_append, h.undeleted (moves.not_terminal alive)]
    rcases touches.deleted with none | ⟨-, ended, -⟩
    · rw [none]
    · rw [ended] at alive
      cases alive
  case taken =>
    intro a mem slot acquired
    rcases List.mem_append.1 mem with mem | last
    · exact moves.keeps_slot (h.taken a mem slot acquired)
    · cases List.mem_singleton.1 last
      cases acquired
      exact does.taken_slot

theorem History.tracks (run : History c₀ history c) (fresh : c₀.Fresh) :
    Tracks history c ∧ c.keys = c₀.keys := by
  induction run with
  | start => exact ⟨fresh.tracks, rfl⟩
  | works _ works ih =>
    obtain ⟨tracks, keys⟩ := ih
    exact ⟨tracks.works works, (works.step.does tracks.unbuilt.1).keys.trans keys⟩

theorem Uses.ages (uses : Uses c₀ σ₀ events c σ) (fresh : c₀.Fresh) (sound : σ₀.Sound) :
    c.Coherent ∧ c.keys = c₀.keys ∧ σ.Sound ∧
      σ₀.shelf.Ages (fun key => ¬ c₀.keys.leases Slot.InRange key) σ.shelf := by
  induction uses with
  | start => exact ⟨fresh.coherent, rfl, sound, .refl _⟩
  | passes _ passes ih =>
    obtain ⟨coherent, keys, sound, ages⟩ := ih
    exact ⟨coherent, keys, passes.ages.2.1 sound, ages.trans passes.ages.2.2.weaken⟩
  | works _ works ih =>
    obtain ⟨coherent, keys, sound, ages⟩ := ih
    have does := works.step.does coherent.unbuilt.1
    refine ⟨does.coherent coherent, does.keys.trans keys, ?_⟩
    refine works.keeps (I := fun σ => σ.Sound ∧ Shelf.Ages _ _ σ.shelf) coherent.toConsistent
      ⟨sound, ages⟩ ?_
    rintro r σ reply σ' leases ⟨sound, ages⟩ answered
    rw [keys] at leases
    obtain ⟨sound, later⟩ := answered.ages leases sound
    exact ⟨sound, ages.trans later⟩

/-- Whatever a store replies, a coordinator writes one lease at most and deletes one at most, names
no key but its lease once it has a slot, and makes no call for nothing; and a store that only a
coordinator uses keeps all entries that are no leases of its key space, and gets no others. -/
theorem footprint (fresh : c₀.Fresh) :
    (∀ history c, History c₀ history c → Footprint c₀.keys history ∧
      ∀ event c' log, Works Notes c [] event c' log → Quiet c event log) ∧
    ∀ σ₀ events c σ, σ₀.Sound → Uses c₀ σ₀ events c σ →
      σ.Sound ∧ σ₀.shelf.Ages (fun key => ¬ c₀.keys.leases Slot.InRange key) σ.shelf := by
  constructor
  · intro history c run
    obtain ⟨tracks, keys⟩ := run.tracks fresh
    refine ⟨keys ▸ tracks.toFootprint, fun event c' log works => ?_⟩
    exact (works.touches tracks.toConsistent).quiet
  · intro σ₀ events c σ sound uses
    exact (uses.ages fresh sound).2.2

theorem footprint_retried :
    let list : Store.Call := .list standard.keys.scanRoot
    let set : Store.Call :=
      .set (standard.keys.leaseKey ⟨0, 0⟩) (Slot.toJson ⟨0, 0⟩) standard.leaseTtl
    let delete : Store.Call := .delete (standard.keys.leaseKey ⟨0, 0⟩)
    let history : List (Event × List Exchange) :=
      [(.acquired (.ok ⟨0, 0⟩), [⟨list, .ok []⟩, ⟨set, .error (.unavailable "")⟩, ⟨set, .ok ()⟩]),
        (.released (.ok true), [⟨delete, .ok true⟩]), (.released (.ok false), [])]
    let store : MemoryStore := ⟨Table.empty.insert "OTHER" ⟨"x", ⟨1⟩⟩⟩
    (∃ c, History standard history c ∧ Footprint standard.keys history) ∧
      ∃ c σ, Uses standard (.memory store ⟨0⟩) [.acquired (.ok ⟨0, 0⟩)] c σ ∧
        σ.shelf.entries "OTHER" = some ⟨"x", 1⟩ := by
  intro list set delete history store
  constructor
  · have listed : Notes (.store list) [] (.ok []) [⟨list, .ok []⟩] := .call
    have failed (log) : Notes (.store set) log (.error (.unavailable "")) (log ++ [_]) := .call
    have written (log) : Notes (.store set) log (.ok ()) (log ++ [_]) := .call
    have deleted : Notes (.store delete) [] (.ok true) [⟨delete, .ok true⟩] := .call
    have acquired : Runs Notes standard.acquire [] (.ok ⟨0, 0⟩, standard.holding ⟨0, 0⟩) _ :=
      .ask listed (.ask (failed _) (.ask .sleep (.ask (written _) .done)))
    have released : Runs Notes (standard.holding ⟨0, 0⟩).release [] (.ok true, _) _ :=
      .ask deleted .done
    have taken := History.start.works (.acquired acquired)
    have run : History standard history ((standard.holding ⟨0, 0⟩).releasing ⟨0, 0⟩) :=
      (taken.works (.released released)).works (.released .done)
    exact ⟨_, run, ((footprint standard_fresh).1 _ _ run).1⟩
  · have listed : SharedStore.Answers list (.memory store ⟨0⟩) (.ok []) (.memory store ⟨0⟩) :=
      SharedStore.answers_memory (by rfl)
    have written : SharedStore.Answers set (.memory store ⟨0⟩) (.ok ()) _ :=
      SharedStore.answers_memory (store.answer_set _ _ (by decide))
    have uses : Uses standard (.memory store ⟨0⟩) [.acquired (.ok ⟨0, 0⟩)] _ _ :=
      .works .start (.acquired (runs_acquire_of_calls standard_fresh
        (.ask (.call listed) .done) (.ask (.call written) .done)))
    refine ⟨_, _, uses, ?_⟩
    have sound : SharedStore.Sound (.memory store ⟨0⟩) := trivial
    refine ((footprint standard_fresh).2 _ _ _ _ sound uses).2.stays ?_ rfl (by decide)
    rintro ⟨slot, -, same⟩
    have root := standard.keys.scanRoot_isPrefixOf slot
    rw [← same] at root
    exact absurd root (by decide)

end Coordinator

end SlotLease
