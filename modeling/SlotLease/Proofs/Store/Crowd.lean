import SlotLease.Proofs.Store.Files
import Mathlib.Logic.Function.Basic

/-!
Callers that work on one directory at a time, request by request in any order. An operation that
follows the rules puts nothing but records and files that it moved under its temporary name, and
nobody else touches that name; so `Acts` is all that it can do to the others.
-/

namespace SlotLease

open FileStore (fileName)

structure Task : Type 1 where
  handle : FileStore
  {Result : Type}
  rest : Files.Program Result

structure Crowd (ι : Type) : Type 1 where
  directory : Directory
  pending : ι → Option Task

namespace Crowd

structure Event (ι : Type) where
  caller : ι
  request : Files.Request
  reply : Files.Reply request

variable {ι : Type}

def idle (d : Directory) : Crowd ι := ⟨d, fun _ => none⟩

def put [DecidableEq ι] (c : Crowd ι) (d : Directory) (i : ι) (task? : Option Task) : Crowd ι :=
  ⟨d, Function.update c.pending i task?⟩

def Apart (c : Crowd ι) (task : Task) : Prop :=
  ∀ i other, c.pending i = some other → other.handle.temporary ≠ task.handle.temporary

inductive Step [DecidableEq ι] (allowed : Crowd ι → Task → Prop) (shown : UInt64 → Prop)
    (c : Crowd ι) : List (Event ι) → Crowd ι → Prop
  | began : c.pending i = none → allowed c task →
      Step allowed shown c [] (c.put c.directory i (some task))
  | asked {Result : Type} {r : Files.Request} {reply : Files.Reply r}
      {next : Files.Reply r → Files.Program Result} :
      c.pending i = some ⟨s, .ask r next⟩ → shown clock →
      c.directory.answer clock r = (reply, d) →
      Step allowed shown c [⟨i, r, reply⟩] (c.put d i (some ⟨s, next reply⟩))
  | ended {Result : Type} {result : Result} : c.pending i = some ⟨s, .done result⟩ →
      Step allowed shown c [] (c.put c.directory i none)

inductive Run [DecidableEq ι] (allowed : Crowd ι → Task → Prop) (shown : UInt64 → Prop)
    (c : Crowd ι) : List (Event ι) → Crowd ι → Prop
  | start : Run allowed shown c [] c
  | step : Run allowed shown c events c' → Step allowed shown c' new c'' →
      Run allowed shown c (events ++ new) c''

inductive Holding where
  | nothing
  | draft (record : Record)
  /-- The file of a key, moved there, and whether it has been found to be live. -/
  | aside (key : String) (content : ByteArray) (live : Bool)
  | spare

def Live (content : ByteArray) (clock : UInt64) : Prop :=
  ∃ r, Record.decode? content = some r ∧ r.isLive clock = true

/-- What is left of an operation that works on the files of `keys` by way of one temporary name,
while a directory answers it. A file that is moved aside gets its name back if it is live. -/
inductive Follows (keys : String → Prop) (temporary : String) {Result : Type} :
    Holding → Files.Program Result → Prop
  | done : Follows keys temporary .nothing (.done result)
  | reads {next : Except FileError ByteArray → Files.Program Result} :
      (∀ reply, Follows keys temporary .nothing (next reply)) →
      Follows keys temporary .nothing (.ask (.read name) next)
  | looks {next : UInt64 → Files.Program Result} :
      (∀ clock, Follows keys temporary .nothing (next clock)) →
      Follows keys temporary .nothing (.ask .now next)
  | drafts {next : Except FileError Unit → Files.Program Result} :
      keys record.key → (∀ cause, Follows keys temporary .nothing (next (.error cause))) →
      Follows keys temporary (.draft record) (next (.ok ())) →
      Follows keys temporary .nothing (.ask (.write temporary record.encode) next)
  | places {next : Except FileError Unit → Files.Program Result} :
      (∀ cause, Follows keys temporary .spare (next (.error cause))) →
      Follows keys temporary .nothing (next (.ok ())) →
      Follows keys temporary (.draft record) (.ask (.rename temporary (fileName record.key)) next)
  | moves {next : Except FileError Unit → Files.Program Result} :
      keys key → (∀ cause, Follows keys temporary .nothing (next (.error cause))) →
      (∀ content, Follows keys temporary (.aside key content false) (next (.ok ()))) →
      Follows keys temporary .nothing (.ask (.rename (fileName key) temporary) next)
  | opens {next : Except FileError ByteArray → Files.Program Result} :
      ((Record.decode? content).isSome →
        Follows keys temporary (.aside key content false) (next (.ok content))) →
      (Record.decode? content = none → Follows keys temporary .spare (next (.ok content))) →
      Follows keys temporary (.aside key content false) (.ask (.read temporary) next)
  | judges {next : UInt64 → Files.Program Result} :
      (∀ clock, Live content clock →
        Follows keys temporary (.aside key content true) (next clock)) →
      (∀ clock, ¬ Live content clock → Follows keys temporary .spare (next clock)) →
      Follows keys temporary (.aside key content false) (.ask .now next)
  | links {next : Except FileError Unit → Files.Program Result} :
      Follows keys temporary .spare (next (.ok ())) →
      Follows keys temporary .spare (next (.error .alreadyExists)) →
      Follows keys temporary (.aside key content true) (.ask (.link temporary (fileName key)) next)
  | clears {next : Except FileError Unit → Files.Program Result} :
      Follows keys temporary .nothing (next (.ok ())) →
      Follows keys temporary .spare (.ask (.remove temporary) next)

def Quiet : (r : Files.Request) → Files.Reply r → Prop
  | .write .., .ok _ => False
  | .rename .., .ok _ => False
  | _, _ => True

def Rests (d : Directory) (temporary : String) : Holding → Prop
  | .nothing => True
  | .draft record => Table.get? d temporary = some (.file record.encode)
  | .aside key content _ => Table.get? d temporary = some (.file content) ∧
      Directory.nameFits (fileName key) = true
  | .spare => ∃ content, Table.get? d temporary = some (.file content)

inductive Acts (keys : String → Prop) (shown : UInt64 → Prop) (temporary : String)
    (d : Directory) : Holding → (r : Files.Request) → Files.Reply r → Holding → Directory → Prop
  | idle : Quiet r reply → Acts keys shown temporary d holding r reply holding d
  | drafted {record : Record} : keys record.key →
      Acts keys shown temporary d .nothing (.write temporary record.encode) (.ok ())
        (.draft record) (Table.insert d temporary (.file record.encode))
  | placed {record : Record} :
      Acts keys shown temporary d (.draft record) (.rename temporary (fileName record.key))
        (.ok ()) .nothing
        (Table.insert (Table.erase d temporary) (fileName record.key) (.file record.encode))
  | failed : Quiet r reply → Acts keys shown temporary d (.draft record) r reply .spare d
  | moved : keys key → Table.get? d (fileName key) = some (.file content) →
      Acts keys shown temporary d .nothing (.rename (fileName key) temporary) (.ok ())
        (.aside key content false)
        (Table.insert (Table.erase d (fileName key)) temporary (.file content))
  | spared : Quiet r reply → shown clock → Live content clock →
      Acts keys shown temporary d (.aside key content false) r reply (.aside key content true) d
  | doomed : Quiet r reply → shown clock → ¬ Live content clock →
      Acts keys shown temporary d (.aside key content false) r reply .spare d
  | linked : Quiet r reply → Table.get? d (fileName key) = none →
      Acts keys shown temporary d (.aside key content true) r reply .spare
        (Table.insert d (fileName key) (.file content))
  | taken : Quiet r reply → Table.get? d (fileName key) = some node →
      Acts keys shown temporary d (.aside key content true) r reply .spare d
  | cleared : Quiet r reply →
      Acts keys shown temporary d .spare r reply .nothing (Table.erase d temporary)

def Plain (keys : String → Prop) (d : Directory) : Prop :=
  ∀ key number, keys key → Table.get? d (fileName key) ≠ some (.folder number)

def name? (c : Crowd ι) (i : ι) : Option String :=
  (c.pending i).map fun task => task.handle.temporary

structure Kept (keys : String → Prop) (c : Crowd ι) (held : ι → Holding) : Prop where
  follows : ∀ i task, c.pending i = some task →
    Follows keys task.handle.temporary (held i) task.rest
  rests : ∀ i name, c.name? i = some name → Rests c.directory name (held i)
  apart : ∀ i j name, c.name? i = some name → c.name? j = some name → i = j
  idle : ∀ i, c.pending i = none → held i = .nothing

inductive Moves [DecidableEq ι] (keys : String → Prop) (shown : UInt64 → Prop) (c : Crowd ι)
    (held : ι → Holding) : List (Event ι) → Crowd ι → (ι → Holding) → Prop
  | still : c'.directory = c.directory →
      (∀ i, held i ≠ .nothing → c'.name? i = c.name? i) → Moves keys shown c held [] c' held
  | acts {i : ι} {name : String} {r : Files.Request} {reply : Files.Reply r} {holding : Holding} :
      c.name? i = some name →
      Acts keys shown name c.directory (held i) r reply holding c'.directory →
      (∀ i, c'.name? i = c.name? i) →
      Moves keys shown c held [⟨i, r, reply⟩] c' (Function.update held i holding)

variable {keys : String → Prop} {temporary : String} {Result Result' : Type}

theorem Follows.bind {holding : Holding} {p : Files.Program Result}
    {f : Result → Files.Program Result'} (h : Follows keys temporary holding p)
    (rest : ∀ result, Follows keys temporary .nothing (f result)) :
    Follows keys temporary holding (p >>= f) := by
  induction h with
  | done => exact rest _
  | reads _ ih => exact .reads ih
  | looks _ ih => exact .looks ih
  | drafts own _ _ failed drafted => exact .drafts own failed drafted
  | places _ _ failed placed => exact .places failed placed
  | moves own _ _ failed moved => exact .moves own failed moved
  | opens _ _ record other => exact .opens record other
  | judges _ _ live ended => exact .judges live ended
  | links _ _ linked taken => exact .links linked taken
  | clears _ ih => exact .clears ih

end Crowd

namespace FileStore

open Crowd (Follows)

variable {keys : String → Prop} {key : String} {record : Record}

theorem isLiveAside_follows {α : Type} (s : FileStore) {temporary : String} {content : ByteArray}
    {f : Bool → Files.Program α} (live : Follows keys temporary (.aside key content true) (f true))
    (ended : Follows keys temporary .spare (f false)) :
    Follows keys temporary (.aside key content false) (s.isLiveAside temporary >>= f) := by
  refine .opens (fun record => ?_) (fun other => ?_)
  · obtain ⟨r, found⟩ := Option.isSome_iff_exists.1 record
    simp only [Interaction.bind_done, found]
    refine .judges (fun clock holds => ?_) (fun clock fails => ?_)
    · obtain ⟨_, same, holds⟩ := holds
      cases found.symm.trans same
      simp only [Interaction.bind_done, holds]
      exact live
    · have fails : r.isLive clock = false := by simpa [Crowd.Live, found] using fails
      simp only [Interaction.bind_done, fails]
      exact ended
  · simp only [Interaction.bind_done, other]
    exact ended

theorem isLiveAside_asks {α : Type} (s : FileStore) (temporary : String)
    (f : Bool → Files.Program α) : ∃ next : Except FileError ByteArray → Files.Program α,
      (s.isLiveAside temporary >>= f) = .ask (.read temporary) next ∧
      ∀ r : Record, next (.ok r.encode) = .ask .now fun clock => f (r.isLive clock) := by
  refine ⟨_, rfl, fun r => ?_⟩
  simp only [Interaction.bind_done, Record.decode?_encode]
  rfl

theorem evict_follows (s : FileStore) (own : keys key) :
    Follows keys s.temporary .nothing (s.evict (fileName key)) := by
  refine .moves own (fun cause => ?_) (fun content => ?_)
  · cases cause <;> exact .done
  · have removed : Follows keys s.temporary .spare (do
        return (← removeIfPresent s.temporary, s.afterTemporary)) := .clears .done
    exact s.afterTemporary.isLiveAside_follows (.links removed removed) removed

theorem write_follows (s : FileStore) (own : keys record.key) :
    Follows keys s.temporary .nothing (s.write record) :=
  .drafts own (fun _ => .done) (.places (fun _ => .clears .done) .done)

theorem deadline_follows {α : Type} {temporary : String} {ttl : Duration}
    {f : Except StoreError UInt64 → Files.Program α}
    (rest : ∀ result, Follows keys temporary .nothing (f result)) :
    Follows keys temporary .nothing (deadline ttl >>= f) := by
  refine .bind ?_ rest
  rw [deadline]
  split
  · exact .done
  · refine .looks fun now => ?_
    show Follows _ _ _ (if _ then _ else _)
    split <;> exact .done

theorem set_follows (s : FileStore) (own : keys key) (value : String) (ttl : Duration) :
    Follows keys s.temporary .nothing (s.set key value ttl) := by
  refine deadline_follows fun result => ?_
  cases result with
  | error e => exact .done
  | ok expiresAt => exact s.write_follows own

theorem refresh_follows (s : FileStore) (key : String) (ttl : Duration) (all : ∀ key, keys key) :
    Follows keys s.temporary .nothing (s.refresh key ttl) := by
  refine deadline_follows fun result => ?_
  cases result with
  | error e => exact .done
  | ok expiresAt =>
    refine .reads fun reply => ?_
    rcases reply with cause | content
    · cases cause <;> exact .done
    · simp only [Interaction.bind_done]
      cases Record.decode? content with
      | none => exact .done
      | some r =>
        refine .looks fun now => ?_
        simp only [Interaction.bind_done]
        cases r.isLive now with
        | true => exact (s.write_follows (all _)).bind fun _ => .done
        | false =>
          show Follows _ _ _ ((s.evict _ >>= _) >>= _)
          rw [bind_assoc]
          refine (s.evict_follows (all _)).bind fun evicted => ?_
          rcases evicted with ⟨_ | _, _⟩ <;> exact .done

end FileStore

namespace Crowd

variable {keys : String → Prop} {shown : UInt64 → Prop} {temporary : String} {d d' : Directory}
  {holding : Holding} {r : Files.Request} {reply : Files.Reply r} {Result : Type}

theorem Follows.acts {next : Files.Reply r → Files.Program Result}
    (follows : Follows keys temporary holding (.ask r next)) (rests : Rests d temporary holding)
    (fits : Directory.nameFits temporary = true) (plain : Plain keys d) (now : shown clock)
    (answered : d.answer clock r = (reply, d')) :
    ∃ holding', Acts keys shown temporary d holding r reply holding' d' ∧
      Follows keys temporary holding' (next reply) ∧ Rests d' temporary holding' := by
  cases follows with
  | reads rest =>
    cases answered
    exact ⟨_, .idle trivial, rest _, rests⟩
  | looks rest =>
    cases answered
    exact ⟨_, .idle trivial, rest _, rests⟩
  | drafts own failed drafted =>
    obtain ⟨⟨cause, rfl⟩, rfl⟩ | ⟨rfl, rfl⟩ := Directory.write_cases answered
    · exact ⟨_, .idle trivial, failed cause, rests⟩
    · exact ⟨_, .drafted own, drafted, (Table.get?_insert ..).trans (if_pos rfl)⟩
  | places failed placed =>
    obtain ⟨⟨cause, rfl⟩, rfl⟩ | ⟨rfl, _, node, here, rfl⟩ := Directory.rename_cases answered
    · exact ⟨_, .failed trivial, failed cause, _, rests⟩
    · cases rests.symm.trans here
      exact ⟨_, .placed, placed, trivial⟩
  | @moves key _ own failed moved =>
    obtain ⟨⟨cause, rfl⟩, rfl⟩ | ⟨rfl, fits', node, here, rfl⟩ := Directory.rename_cases answered
    · exact ⟨_, .idle trivial, failed cause, rests⟩
    · cases node with
      | folder number => exact absurd here (plain key number own)
      | file content =>
        exact ⟨_, .moved own here, moved content, (Table.get?_insert ..).trans (if_pos rfl), fits'⟩
  | @opens content _ _ record other =>
    rw [Directory.answer, Directory.read_present fits rests.1] at answered
    cases answered
    cases found : Record.decode? content with
    | some r => exact ⟨_, .idle trivial, record (by simp [found]), rests⟩
    | none =>
      exact ⟨_, .doomed trivial now (by simp [Live, found]), other found, _, rests.1⟩
  | @judges content _ _ live ended =>
    cases answered
    by_cases holds : Live content clock
    · exact ⟨_, .spared trivial now holds, live _ holds, rests⟩
    · exact ⟨_, .doomed trivial now holds, ended _ holds, _, rests.1⟩
  | @links _ content _ linked taken =>
    obtain ⟨absent, link⟩ | ⟨⟨node, there⟩, link⟩ :=
      Directory.link_present (d := d) fits rests.2 rests.1
    · cases link.symm.trans answered
      refine ⟨_, .linked trivial absent, linked, content, ?_⟩
      rw [Table.get?_insert, rests.1, ite_self]
    · cases link.symm.trans answered
      exact ⟨_, .taken trivial there, taken, _, rests.1⟩
  | clears cleared =>
    obtain ⟨content, here⟩ := rests
    cases (Directory.remove_present fits here).symm.trans answered
    exact ⟨_, .cleared trivial, cleared, trivial⟩

theorem Acts.elsewhere {holding' : Holding} {name : String}
    (acts : Acts keys shown temporary d holding r reply holding' d') (other : temporary ≠ name)
    (noKey : ∀ key, fileName key ≠ name) : Table.get? d' name = Table.get? d name := by
  cases acts with
  | idle | failed | spared | doomed | taken => rfl
  | drafted => rw [Table.get?_insert, if_neg other]
  | placed => rw [Table.get?_insert, if_neg (noKey _), Table.get?_erase, if_neg other]
  | moved => rw [Table.get?_insert, if_neg other, Table.get?_erase, if_neg (noKey _)]
  | linked => rw [Table.get?_insert, if_neg (noKey _)]
  | cleared => rw [Table.get?_erase, if_neg other]

theorem Rests.congr (rests : Rests d temporary holding)
    (same : Table.get? d' temporary = Table.get? d temporary) : Rests d' temporary holding := by
  cases holding <;> simp only [Rests, same] at rests ⊢ <;> exact rests

variable {c c' : Crowd ι} {held held' : ι → Holding} {i j : ι}

theorem name?_eq_some {name : String} : c.name? i = some name ↔
    ∃ task, c.pending i = some task ∧ task.handle.temporary = name := Option.map_eq_some_iff

theorem name?_ne_fileName {name : String} (h : c.name? i = some name) (key : String) :
    fileName key ≠ name := by
  obtain ⟨task, _, rfl⟩ := name?_eq_some.1 h
  exact (task.handle.temporary_ne_fileName key).symm

theorem kept_idle (d : Directory) : (idle d : Crowd ι).Kept keys fun _ => .nothing where
  follows _ _ found := nomatch found
  rests _ _ _ := trivial
  apart _ _ _ found := nomatch found
  idle _ _ := rfl

variable [DecidableEq ι]

theorem put_self (c : Crowd ι) (d : Directory) (i : ι) (task? : Option Task) :
    (c.put d i task?).pending i = task? := Function.update_self ..

theorem put_other (c : Crowd ι) (d : Directory) (task? : Option Task) (ne : j ≠ i) :
    (c.put d i task?).pending j = c.pending j := Function.update_of_ne ne ..

theorem name?_put_self (c : Crowd ι) (d : Directory) (i : ι) (task? : Option Task) :
    (c.put d i task?).name? i = task?.map fun task => task.handle.temporary :=
  congrArg _ (c.put_self d i task?)

theorem name?_put_other (c : Crowd ι) (d : Directory) (task? : Option Task) (ne : j ≠ i) :
    (c.put d i task?).name? j = c.name? j := congrArg _ (c.put_other d task? ne)

theorem Kept.put (kept : c.Kept keys held) {task? : Option Task}
    (own : ∀ task, task? = some task → Follows keys task.handle.temporary holding task.rest ∧
      Rests d task.handle.temporary holding ∧
      ∀ j, j ≠ i → c.name? j ≠ some task.handle.temporary)
    (idle : task? = none → holding = .nothing)
    (others : ∀ j name, j ≠ i → c.name? j = some name →
      Table.get? d name = Table.get? c.directory name) :
    (c.put d i task?).Kept keys (Function.update held i holding) := by
  have named (name) (found : (c.put d i task?).name? i = some name) :
      ∃ task, task? = some task ∧ task.handle.temporary = name :=
    Option.map_eq_some_iff.1 ((c.name?_put_self d i task?).symm.trans found)
  refine ⟨fun j task found => ?_, fun j name found => ?_, fun j k name found found' => ?_,
    fun j found => ?_⟩
  · by_cases same : j = i
    · subst same
      rw [put_self] at found
      rw [Function.update_self]
      exact (own task found).1
    · rw [put_other _ _ _ same] at found
      rw [Function.update_of_ne same]
      exact kept.follows j task found
  · by_cases same : j = i
    · subst same
      obtain ⟨task, here, rfl⟩ := named name found
      rw [Function.update_self]
      exact (own task here).2.1
    · rw [name?_put_other _ _ _ same] at found
      rw [Function.update_of_ne same]
      exact (kept.rests j name found).congr (others j name same found)
  · by_cases same : j = i
    · subst same
      obtain ⟨task, here, rfl⟩ := named name found
      by_contra different
      rw [name?_put_other _ _ _ (Ne.symm different)] at found'
      exact (own task here).2.2 k (Ne.symm different) found'
    · rw [name?_put_other _ _ _ same] at found
      by_cases same' : k = i
      · subst same'
        obtain ⟨task, here, rfl⟩ := named name found'
        exact absurd found ((own task here).2.2 j same)
      · rw [name?_put_other _ _ _ same'] at found'
        exact kept.apart j k name found found'
  · by_cases same : j = i
    · subst same
      rw [put_self] at found
      rw [Function.update_self]
      exact idle found
    · rw [put_other _ _ _ same] at found
      rw [Function.update_of_ne same]
      exact kept.idle j found

theorem Step.moves {allowed : Crowd ι → Task → Prop} (step : Step allowed shown c new c')
    (kept : c.Kept keys held) (plain : Plain keys c.directory)
    (rules : ∀ c task, allowed c task →
      c.Apart task ∧ Follows keys task.handle.temporary .nothing task.rest) :
    ∃ held', c'.Kept keys held' ∧ Moves keys shown c held new c' held' := by
  cases step with
  | @began i task free begins =>
    obtain ⟨apart, follows⟩ := rules c task begins
    have nothing := kept.idle i free
    have same : Function.update held i .nothing = held := by
      rw [← nothing, Function.update_eq_self]
    refine ⟨held, same ▸ kept.put ?_ nofun fun _ _ _ _ => rfl, .still rfl fun j holds => ?_⟩
    · rintro _ ⟨⟩
      refine ⟨follows, trivial, fun j _ found => ?_⟩
      obtain ⟨other, found, same⟩ := name?_eq_some.1 found
      exact apart j other found same
    · have ne : j ≠ i := fun same => holds (same ▸ nothing)
      exact c.name?_put_other _ _ ne
  | @asked i s clock d _ r reply next found now answered =>
    have named : c.name? i = some s.temporary := by rw [name?, found]; rfl
    obtain ⟨holding, acts, follows, rests⟩ := (kept.follows i _ found).acts
      (kept.rests i _ named) s.nameFits_temporary plain now answered
    refine ⟨_, kept.put ?_ nofun ?_, .acts named acts fun j => ?_⟩
    · rintro _ ⟨⟩
      refine ⟨follows, rests, fun j ne found => ne (kept.apart j i _ found named)⟩
    · intro j name ne found
      refine acts.elsewhere ?_ (name?_ne_fileName found)
      rintro rfl
      exact ne (kept.apart j i _ found named)
    · by_cases same : j = i
      · subst same
        exact (c.name?_put_self ..).trans named.symm
      · exact c.name?_put_other _ _ same
  | @ended i s _ _ found =>
    have nothing : held i = .nothing := by
      have follows := kept.follows i _ found
      generalize held i = holding at follows
      cases follows
      rfl
    have same : Function.update held i .nothing = held := by
      rw [← nothing, Function.update_eq_self]
    refine ⟨held, same ▸ kept.put nofun (fun _ => rfl) fun _ _ _ _ => rfl,
      .still rfl fun j holds => ?_⟩
    have ne : j ≠ i := fun same => holds (same ▸ nothing)
    exact c.name?_put_other _ _ ne

theorem Plain.insert (plain : Plain keys d) (name : String) (content : ByteArray) :
    Plain keys (Table.insert d name (.file content)) := by
  intro key number own
  rw [Table.get?_insert]
  split
  · exact nofun
  · exact plain key number own

theorem Plain.erase (plain : Plain keys d) (name : String) : Plain keys (Table.erase d name) := by
  intro key number own
  rw [Table.get?_erase]
  split
  · exact nofun
  · exact plain key number own

theorem Acts.plain {holding' : Holding}
    (acts : Acts keys shown temporary d holding r reply holding' d') (plain : Plain keys d) :
    Plain keys d' := by
  cases acts with
  | idle | failed | spared | doomed | taken => exact plain
  | drafted | linked => exact plain.insert _ _
  | placed | moved => exact (plain.erase _).insert _ _
  | cleared => exact plain.erase _

theorem Moves.plain (moves : Moves keys shown c held new c' held')
    (plain : Plain keys c.directory) : Plain keys c'.directory := by
  cases moves with
  | still same => exact same ▸ plain
  | acts _ acts => exact acts.plain plain

theorem Run.keeps {allowed : Crowd ι → Task → Prop}
    {I : List (Event ι) → Crowd ι → (ι → Holding) → Prop}
    (run : Run allowed shown (idle d) events c) (plain : Plain keys d)
    (rules : ∀ c task, allowed c task →
      c.Apart task ∧ Follows keys task.handle.temporary .nothing task.rest)
    (start : I [] (idle d) fun _ => .nothing)
    (step : ∀ events c held new c' held', c.Kept keys held → I events c held →
      Moves keys shown c held new c' held' → I (events ++ new) c' held') :
    ∃ held, c.Kept keys held ∧ I events c held := by
  have all : Plain keys c.directory ∧ ∃ held, c.Kept keys held ∧ I events c held := by
    induction run with
    | start => exact ⟨plain, _, kept_idle d, start⟩
    | step _ once ih =>
      obtain ⟨plain, held, kept, holds⟩ := ih
      obtain ⟨held', kept', moves⟩ := once.moves kept plain rules
      exact ⟨moves.plain plain, held', kept', step _ _ _ _ _ _ kept holds moves⟩
  exact all.2

theorem Run.start_task {allowed : Crowd ι → Task → Prop} (run : Run allowed shown c events c')
    (i : ι) (task : Task) (free : c'.pending i = none) (begins : allowed c' task) :
    Run allowed shown c events (c'.put c'.directory i (some task)) :=
  List.append_nil events ▸ run.step (.began free begins)

theorem Run.ask {allowed : Crowd ι → Task → Prop} (run : Run allowed shown c events c') (i : ι)
    (clock : UInt64) {s : FileStore} {next : Files.Reply r → Files.Program Result}
    (found : c'.pending i = some ⟨s, .ask r next⟩) (now : shown clock)
    (answered : c'.directory.answer clock r = (reply, d)) :
    Run allowed shown c (events ++ [⟨i, r, reply⟩]) (c'.put d i (some ⟨s, next reply⟩)) :=
  run.step (.asked found now answered)

theorem Run.finish {allowed : Crowd ι → Task → Prop} (run : Run allowed shown c events c') (i : ι)
    {s : FileStore} {result : Result} (found : c'.pending i = some ⟨s, .done result⟩) :
    Run allowed shown c events (c'.put c'.directory i none) :=
  List.append_nil events ▸ run.step (.ended found)

end Crowd

end SlotLease
