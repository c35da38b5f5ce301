import SlotLease.Proofs.Store.Crowd

/-!
Evictions that race with writers. An eviction moves the file of a key aside and gives it its name
back if it is live, unless another one has got the name; so once a live record has been put into
place there is always one in place or about to be put back, and in the end there is one in place.
-/

namespace SlotLease

open FileStore (fileName)

namespace Crowd

inductive Tends (key : String) : Task → Prop
  | evicts : Tends key ⟨s, s.evict (fileName key)⟩
  | sets : Tends key ⟨s, s.set key value ttl⟩

variable {ι : Type} {key : String} {first last : UInt64} {c c' : Crowd ι}
  {held held' : ι → Holding} {events new : List (Event ι)} {d d' : Directory} {task : Task}
  {content : ByteArray}

theorem Tends.follows (tends : Tends key task) :
    Follows (key = ·) task.handle.temporary .nothing task.rest := by
  cases tends with
  | evicts => exact FileStore.evict_follows _ rfl
  | sets => exact FileStore.set_follows _ rfl _ _

def Own (key : String) (events : List (Event ι)) (content : ByteArray) : Prop :=
  ∃ r : Record, content = r.encode ∧ r.key = key ∧
    ∃ i name, ⟨i, .write name content, .ok ()⟩ ∈ events

def Placed (key : String) (events : List (Event ι)) : Prop :=
  ∃ i name, ⟨i, .rename name (fileName key), .ok ()⟩ ∈ events

def Moved (key : String) (events : List (Event ι)) (name : String) : Prop :=
  ∃ i, ⟨i, .rename (fileName key) name, .ok ()⟩ ∈ events

def Cleared (key : String) (events : List (Event ι)) (c : Crowd ι) (held : ι → Holding) : Prop :=
  ∀ name, Moved key events name → (∃ s : FileStore, name = s.temporary) ∧
    (Table.get? c.directory name = none ∨ ∃ i, c.name? i = some name ∧ held i ≠ .nothing)

/-- As long as no record is in place, what has the name of the key is not live. From then on only
records of the writers get it, and when none has it an eviction has got one that it may put back. -/
inductive Stage (key : String) (first : UInt64) (events : List (Event ι)) (d : Directory)
    (held : ι → Holding) : Prop
  | before : ¬ Placed key events →
      (∀ node, Table.get? d (fileName key) = some node →
        ∃ content, node = .file content ∧ ¬ Live content first) →
      Stage key first events d held
  | after : (∀ node, Table.get? d (fileName key) = some node →
        ∃ content, node = .file content ∧ Own key events content) →
      (Table.get? d (fileName key) = none →
        ∃ i content live, held i = .aside key content live ∧ Own key events content) →
      Stage key first events d held

def Fits (key : String) (first : UInt64) (events : List (Event ι)) : Holding → Prop
  | .draft r => Own key events r.encode
  | .aside key' content live =>
    key' = key ∧ (Own key events content ∨ live = false ∧ ¬ Live content first)
  | _ => True

theorem Live.of_le {clock clock' : UInt64} (h : Live content clock') (le : clock ≤ clock') :
    Live content clock := by
  obtain ⟨r, found, live⟩ := h
  exact ⟨r, found, Files.World.isLive_of_le le live⟩

theorem Own.append (h : Own key events content) (new : List (Event ι)) :
    Own key (events ++ new) content := by
  obtain ⟨r, same, own, i, name, mem⟩ := h
  exact ⟨r, same, own, i, name, List.mem_append_left _ mem⟩

theorem Own.key_eq {r : Record} (h : Own key events r.encode) : r.key = key := by
  obtain ⟨r', same, own, _⟩ := h
  rw [Record.encode_injective same, own]

theorem Fits.append {holding : Holding} (h : Fits key first events holding)
    (new : List (Event ι)) : Fits key first (events ++ new) holding := by
  cases holding with
  | draft r => exact Own.append h new
  | aside key' content live => exact ⟨h.1, h.2.imp_left fun own => own.append new⟩
  | nothing | spare => trivial

variable {i : ι} {s : FileStore} {holding holding' : Holding} {request : Files.Request}
  {reply : Files.Reply request}

theorem Placed.of_append {event : Event ι} (placed : Placed key (events ++ [event]))
    (other : ∀ i name, event ≠ ⟨i, .rename name (fileName key), .ok ()⟩) : Placed key events := by
  obtain ⟨i, name, mem⟩ := placed
  refine ⟨i, name, (List.mem_append.1 mem).resolve_right fun mem => ?_⟩
  exact other i name (List.mem_singleton.1 mem).symm

theorem placed_of_quiet (quiet : Quiet request reply)
    (placed : Placed key (events ++ [⟨i, request, reply⟩])) : Placed key events := by
  refine placed.of_append fun j name same => ?_
  cases same
  exact absurd quiet id

theorem Acts.fits
    (acts : Acts (key = ·) (fun clock => first ≤ clock ∧ clock ≤ last) s.temporary d holding
      request reply holding' d')
    (fits : Fits key first events holding) (stage : Stage key first events d held) :
    Fits key first (events ++ [⟨i, request, reply⟩]) holding' := by
  cases acts with
  | idle => exact fits.append _
  | drafted own =>
    exact ⟨_, rfl, own.symm, i, _, List.mem_append_right _ (List.mem_singleton_self _)⟩
  | moved own found =>
    subst own
    refine ⟨rfl, ?_⟩
    cases stage with
    | before _ ended =>
      obtain ⟨_, same, ended⟩ := ended _ found
      cases same
      exact .inr ⟨rfl, ended⟩
    | after own _ =>
      obtain ⟨_, same, own⟩ := own _ found
      cases same
      exact .inl (own.append _)
  | spared _ now live =>
    obtain ⟨same, own | ⟨_, ended⟩⟩ := fits
    · exact ⟨same, .inl (own.append _)⟩
    · exact absurd (live.of_le now.1) ended
  | placed | failed | doomed | linked | taken | cleared => trivial

theorem Acts.moved_cases {keys : String → Prop} {shown : UInt64 → Prop} {name : String}
    (acts : Acts keys shown s.temporary d holding request reply holding' d')
    (moved : Moved key (events ++ [⟨i, request, reply⟩]) name) :
    Moved key events name ∨ name = s.temporary ∧ holding' ≠ .nothing := by
  obtain ⟨j, mem⟩ := moved
  rcases List.mem_append.1 mem with mem | mem
  · exact .inl ⟨j, mem⟩
  · have same := List.mem_singleton.1 mem
    cases acts with
    | moved =>
      have same : Files.Request.rename (fileName key) name = .rename _ s.temporary :=
        congrArg Event.request same
      exact .inr ⟨(Files.Request.rename.inj same).2, nofun⟩
    | drafted => cases congrArg Event.request same
    | placed =>
      have same : Files.Request.rename (fileName key) name = .rename s.temporary _ :=
        congrArg Event.request same
      exact absurd (Files.Request.rename.inj same).1.symm (s.temporary_ne_fileName key)
    | idle quiet | failed quiet | spared quiet | doomed quiet | linked quiet | taken quiet
        | cleared quiet =>
      cases same
      exact absurd quiet id

theorem Acts.nothing_cases {keys : String → Prop} {shown : UInt64 → Prop}
    (acts : Acts keys shown s.temporary d holding request reply .nothing d') :
    Table.get? d' s.temporary = none ∨ holding = .nothing ∧ d' = d := by
  cases acts with
  | idle => exact .inr ⟨rfl, rfl⟩
  | placed =>
    left
    rw [Table.get?_insert, if_neg (s.temporary_ne_fileName _).symm, Table.get?_erase, if_pos rfl]
  | cleared =>
    left
    rw [Table.get?_erase, if_pos rfl]

theorem stage_insert (own : Own key events content) :
    Stage key first events (Table.insert d (fileName key) (.file content)) held := by
  refine .after (fun node found => ?_) fun none => ?_
  · rw [Table.get?_insert, if_pos rfl] at found
    cases found
    exact ⟨content, rfl, own⟩
  · rw [Table.get?_insert, if_pos rfl] at none
    cases none

variable [DecidableEq ι]

theorem Stage.update (stage : Stage key first events d held)
    (same : Table.get? d' (fileName key) = Table.get? d (fileName key))
    (unplaced : Placed key (events ++ new) → Placed key events)
    (keeps : Table.get? d (fileName key) = none → ∀ content live,
      held i = .aside key content live → Own key events content →
        ∃ live', holding' = .aside key content live') :
    Stage key first (events ++ new) d' (Function.update held i holding') := by
  cases stage with
  | before none ended =>
    rw [← same] at ended
    exact .before (none ∘ unplaced) ended
  | after own aside =>
    refine .after (fun node found => ?_) fun none => ?_
    · obtain ⟨content, file, own⟩ := own node (same.symm.trans found)
      exact ⟨content, file, own.append _⟩
    · have none := same.symm.trans none
      obtain ⟨j, content, live, holds, own⟩ := aside none
      by_cases caller : j = i
      · subst caller
        obtain ⟨live', kept⟩ := keeps none content live holds own
        exact ⟨j, content, live', (Function.update_self ..).trans kept, own.append _⟩
      · exact ⟨j, content, live, (Function.update_of_ne caller ..).trans holds, own.append _⟩

theorem Acts.stage
    (acts : Acts (key = ·) (fun clock => first ≤ clock ∧ clock ≤ last) s.temporary d (held i)
      request reply holding' d')
    (lasting : ∀ content, Own key events content → Live content last)
    (fits : Fits key first events (held i)) (stage : Stage key first events d held) :
    Stage key first (events ++ [⟨i, request, reply⟩]) d' (Function.update held i holding') := by
  have apart : s.temporary ≠ fileName key := s.temporary_ne_fileName key
  generalize holds : held i = holding at acts fits
  cases acts with
  | idle quiet =>
    refine stage.update rfl (placed_of_quiet quiet) fun _ _ live aside _ => ⟨live, ?_⟩
    rw [← holds, aside]
  | drafted =>
    refine stage.update ?_ (·.of_append fun _ _ => nofun) fun _ _ _ aside _ =>
      nomatch holds.symm.trans aside
    rw [Table.get?_insert, if_neg apart]
  | @placed r =>
    have same := Own.key_eq fits
    subst same
    exact stage_insert (Own.append fits _)
  | failed quiet =>
    exact stage.update rfl (placed_of_quiet quiet) fun _ _ _ aside _ =>
      nomatch holds.symm.trans aside
  | @moved _ content own found =>
    subst own
    have gone : Table.get? (Table.insert (Table.erase d (fileName key)) s.temporary
        (.file content)) (fileName key) = none := by
      rw [Table.get?_insert, if_neg apart, Table.get?_erase, if_pos rfl]
    -- what is moved aside is one of the records that were written, or nothing was in place before
    cases stage with
    | before none =>
      refine .before (fun placed => none (placed.of_append fun _ name same => ?_))
        fun node here => nomatch gone.symm.trans here
      have same : Files.Request.rename (fileName key) s.temporary = .rename name (fileName key) :=
        congrArg Event.request same
      exact apart (Files.Request.rename.inj same).2
    | after own =>
      obtain ⟨_, same, own⟩ := own _ found
      cases same
      refine .after (fun node here => nomatch gone.symm.trans here) fun _ => ?_
      exact ⟨i, content, false, Function.update_self .., own.append _⟩
  | spared quiet =>
    refine stage.update rfl (placed_of_quiet quiet) fun _ _ _ aside _ => ⟨true, ?_⟩
    cases holds.symm.trans aside
    rfl
  | doomed quiet now ended =>
    refine stage.update rfl (placed_of_quiet quiet) fun _ _ _ aside own => ?_
    cases holds.symm.trans aside
    exact absurd ((lasting _ own).of_le now.2) ended
  | linked =>
    obtain ⟨same, own | ⟨⟨⟩, _⟩⟩ := fits
    have same := same.symm
    subst same
    exact stage_insert (own.append _)
  | taken quiet there =>
    refine stage.update rfl (placed_of_quiet quiet) fun none => ?_
    obtain ⟨rfl, _⟩ := fits
    cases there.symm.trans none
  | cleared quiet =>
    refine stage.update ?_ (placed_of_quiet quiet) fun _ _ _ aside _ =>
      nomatch holds.symm.trans aside
    rw [Table.get?_erase, if_neg apart]

theorem Moves.cleared {keys : String → Prop} {shown : UInt64 → Prop}
    (moves : Moves keys shown c held new c' held') (kept : c.Kept keys held)
    (h : Cleared key events c held) : Cleared key (events ++ new) c' held' := by
  intro name moved
  cases moves with
  | still same names =>
    rw [List.append_nil] at moved
    obtain ⟨temporary, gone | ⟨i, named, holds⟩⟩ := h name moved
    · exact ⟨temporary, .inl (same ▸ gone)⟩
    · exact ⟨temporary, .inr ⟨i, (names i holds).trans named, holds⟩⟩
  | @acts _ i own _ _ holding named acts names =>
    obtain ⟨task, _, rfl⟩ := name?_eq_some.1 named
    have caller (holds : holding ≠ .nothing) : ∃ j,
        c'.name? j = some task.handle.temporary ∧ Function.update held i holding j ≠ .nothing :=
      ⟨i, (names i).trans named, by rwa [Function.update_self]⟩
    rcases acts.moved_cases moved with before | ⟨rfl, holds⟩
    · obtain ⟨⟨s, rfl⟩, cleared⟩ := h name before
      refine ⟨⟨s, rfl⟩, ?_⟩
      by_cases same : task.handle.temporary = s.temporary
      · rw [← same] at cleared ⊢
        by_cases holds : holding = .nothing
        · subst holds
          rcases acts.nothing_cases with gone | ⟨nothing, unchanged⟩
          · exact .inl gone
          · rw [unchanged]
            refine cleared.imp_right fun ⟨j, named', holds⟩ => ?_
            rw [kept.apart j i _ named' named] at holds
            exact absurd nothing holds
        · exact .inr (caller holds)
      · rcases cleared with gone | ⟨j, named', holds⟩
        · refine .inl ((acts.elsewhere same fun key => ?_).trans gone)
          exact (s.temporary_ne_fileName key).symm
        · have other : j ≠ i := by
            rintro rfl
            exact same (Option.some.inj (named.symm.trans named'))
          exact .inr ⟨j, (names j).trans named', by rwa [Function.update_of_ne other]⟩
    · exact ⟨⟨_, rfl⟩, .inr (caller holds)⟩

structure Guarded (key : String) (first last : UInt64) (events : List (Event ι)) (c : Crowd ι)
    (held : ι → Holding) : Prop where
  cleared : Cleared key events c held
  safe : (∀ content, Own key events content → Live content last) →
    (∀ i, Fits key first events (held i)) ∧ Stage key first events c.directory held

theorem Moves.guarded
    (moves : Moves (key = ·) (fun clock => first ≤ clock ∧ clock ≤ last) c held new c' held')
    (kept : c.Kept (key = ·) held) (h : Guarded key first last events c held) :
    Guarded key first last (events ++ new) c' held' where
  cleared := moves.cleared kept h.cleared
  safe lasting := by
    have lasting' (content) (own : Own key events content) := lasting content (own.append new)
    obtain ⟨fits, stage⟩ := h.safe lasting'
    cases moves with
    | still same =>
      rw [List.append_nil, same]
      exact ⟨fits, stage⟩
    | @acts _ i own _ _ holding named acts =>
      obtain ⟨task, _, rfl⟩ := name?_eq_some.1 named
      refine ⟨(Function.forall_update_iff held fun _ => Fits key first _).2 ⟨?_, fun j _ => ?_⟩, ?_⟩
      · exact acts.fits (fits i) stage
      · exact (fits j).append _
      · exact acts.stage lasting' (fits i) stage

/-- However evictions and writers of a key take turns, as long as no two operations under way have
the same temporary name: if a record was put into place and all that were written stay live, one of
them is in place in the end, and no file that was moved aside is left. -/
theorem evictions_lose_nothing
    (start : ∀ node, Table.get? d (fileName key) = some node →
      ∃ content, node = .file content ∧ ¬ Live content first)
    (run : Run (fun c task => c.Apart task ∧ Tends key task)
      (fun clock => first ≤ clock ∧ clock ≤ last) (idle d : Crowd ι) events c)
    (finished : ∀ i, c.pending i = none) (placed : Placed key events)
    (lasting : ∀ i name (r : Record), ⟨i, .write name r.encode, .ok ()⟩ ∈ events →
      r.isLive last = true) :
    (∃ r : Record, Table.get? c.directory (fileName key) = some (.file r.encode) ∧ r.key = key ∧
        r.isLive last = true ∧ ∃ i name, ⟨i, .write name r.encode, .ok ()⟩ ∈ events) ∧
      ∀ i aside, ⟨i, .rename (fileName key) aside, .ok ()⟩ ∈ events →
        Table.get? c.directory aside = none := by
  have plain : Plain (key = ·) d := by
    rintro _ number rfl found
    obtain ⟨content, same, _⟩ := start _ found
    cases same
  have unplaced : ¬ Placed key ([] : List (Event ι)) := fun ⟨_, _, mem⟩ => nomatch mem
  obtain ⟨held, kept, h⟩ := run.keeps (I := Guarded key first last) plain
    (fun _ _ begins => ⟨begins.1, begins.2.follows⟩)
    ⟨fun _ ⟨_, mem⟩ => (nomatch mem), fun _ => ⟨fun _ => trivial, .before unplaced start⟩⟩
    fun _ _ _ _ _ _ kept h moves => moves.guarded kept h
  have nothing (i) : held i = .nothing := kept.idle i (finished i)
  constructor
  · have live (content) (own : Own key events content) : Live content last := by
      obtain ⟨r, rfl, _, i, name, mem⟩ := own
      exact ⟨r, r.decode?_encode, lasting i name r mem⟩
    cases (h.safe live).2 with
    | before unplaced => exact absurd placed unplaced
    | after own aside =>
      cases here : Table.get? c.directory (fileName key) with
      | none =>
        -- somebody would have it aside, but all have finished
        obtain ⟨i, _, _, holds, _⟩ := aside here
        cases (nothing i).symm.trans holds
      | some node =>
        obtain ⟨_, rfl, r, rfl, same, i, name, mem⟩ := own node here
        exact ⟨r, rfl, same, lasting i name r mem, i, name, mem⟩
  · intro i name mem
    obtain ⟨_, gone | ⟨j, _, holds⟩⟩ := h.cleared name ⟨i, mem⟩
    · exact gone
    · exact absurd (nothing j) holds

theorem Run.judge {allowed : Crowd ι → Task → Prop} {shown : UInt64 → Prop}
    (run : Run allowed shown c events c') (i : ι) (clock : UInt64) {aside : FileStore}
    {temporary : String} {r : Record} {Result : Type} {f : Bool → Files.Program Result}
    (found : c'.pending i = some ⟨s, aside.isLiveAside temporary >>= f⟩)
    (fits : Directory.nameFits temporary = true)
    (here : Table.get? c'.directory temporary = some (.file r.encode)) (now : shown clock) :
    Run allowed shown c
      (events ++ [⟨i, .read temporary, .ok r.encode⟩] ++ [⟨i, .now, clock⟩])
      (c'.put c'.directory i (some ⟨s, f (r.isLive clock)⟩)) := by
  obtain ⟨next, asks, goes⟩ := aside.isLiveAside_asks temporary f
  rw [asks] at found
  have read : c'.directory.answer clock (.read temporary) = (.ok r.encode, c'.directory) :=
    Prod.ext (Directory.read_present fits here) rfl
  have opened := run.ask i clock found now read
  rw [goes] at opened
  have judged := opened.ask i clock (c'.put_self ..) now rfl
  rwa [Crowd.put, Crowd.put, Function.update_idem] at judged

theorem evictions_lose_nothing_restored :
    let s : FileStore := ⟨"leases", 7, 0⟩
    let s' : FileStore := ⟨"leases", 8, 0⟩
    let old : Record := ⟨"a", "x", 0⟩
    let new : Record := ⟨"a", "y", 1000⟩
    let d : Directory := Table.insert ∅ (fileName "a") (.file old.encode)
    let events : List (Event Bool) :=
      [⟨true, .now, (0 : UInt64)⟩, ⟨true, .write s'.temporary new.encode, .ok ()⟩,
        ⟨true, .rename s'.temporary (fileName "a"), .ok ()⟩,
        ⟨false, .rename (fileName "a") s.temporary, .ok ()⟩,
        ⟨false, .read s.temporary, .ok new.encode⟩, ⟨false, .now, (0 : UInt64)⟩,
        ⟨false, .link s.temporary (fileName "a"), .ok ()⟩, ⟨false, .remove s.temporary, .ok ()⟩]
    ∃ c, Run (fun c task => c.Apart task ∧ Tends "a" task)
        (fun clock => 0 ≤ clock ∧ clock ≤ 0) (idle d) events c ∧
      Table.get? c.directory (fileName "a") = some (.file new.encode) ∧
      Table.get? c.directory s.temporary = none := by
  intro s s' old new d events
  have other : s.temporary ≠ s'.temporary := fun same =>
    absurd (FileStore.temporary_eq_iff.1 same).1 (by decide)
  have fits : Directory.nameFits (fileName "a") = true :=
    FileStore.nameFits_fileName.2 (by decide)
  have now : (0 : UInt64) ≤ 0 ∧ (0 : UInt64) ≤ 0 := by decide
  let d₁ : Directory := Table.insert d s'.temporary (.file new.encode)
  let d₂ : Directory := Table.insert (Table.erase d₁ s'.temporary) (fileName "a") (.file new.encode)
  let d₃ : Directory := Table.insert (Table.erase d₂ (fileName "a")) s.temporary (.file new.encode)
  let d₄ : Directory := Table.insert d₃ (fileName "a") (.file new.encode)
  have write : d.write s'.temporary new.encode = (.ok (), d₁) := by
    refine Directory.write_free s'.nameFits_temporary fun number => ?_
    rw [Table.get?_insert, if_neg (s'.temporary_ne_fileName _).symm]
    exact nofun
  have place : d₁.rename s'.temporary (fileName "a") = (.ok (), d₂) := by
    refine Directory.rename_present s'.nameFits_temporary fits
      ((Table.get?_insert ..).trans (if_pos rfl)) fun number => ?_
    rw [Table.get?_insert, if_neg (s'.temporary_ne_fileName _), Table.get?_insert, if_pos rfl]
    exact nofun
  have free (number) : Table.get? d₂ s.temporary ≠ some (.folder number) := by
    rw [Table.get?_insert, if_neg (s.temporary_ne_fileName _).symm, Table.get?_erase,
      if_neg other.symm, Table.get?_insert, if_neg other.symm, Table.get?_insert,
      if_neg (s.temporary_ne_fileName _).symm]
    exact nofun
  have move : d₂.rename (fileName "a") s.temporary = (.ok (), d₃) :=
    Directory.rename_present fits s.nameFits_temporary
      ((Table.get?_insert ..).trans (if_pos rfl)) free
  have aside : Table.get? d₃ s.temporary = some (.file new.encode) :=
    (Table.get?_insert ..).trans (if_pos rfl)
  have gone : Table.get? d₃ (fileName "a") = none := by
    rw [Table.get?_insert, if_neg (s.temporary_ne_fileName _), Table.get?_erase, if_pos rfl]
  have link : d₃.link s.temporary (fileName "a") = (.ok (), d₄) := by
    obtain ⟨_, linked⟩ | ⟨⟨_, here⟩, _⟩ := Directory.link_present s.nameFits_temporary fits aside
    · exact linked
    · cases gone.symm.trans here
  have still : Table.get? d₄ s.temporary = some (.file new.encode) := by
    rw [Table.get?_insert, if_neg (s.temporary_ne_fileName _).symm, aside]
  have remove : d₄.remove s.temporary = (.ok (), Table.erase d₄ s.temporary) :=
    Directory.remove_present s.nameFits_temporary still
  have apart : ((idle d).put d false (some ⟨s, s.evict (fileName "a")⟩)).Apart
      ⟨s', s'.set "a" "y" (.ofSeconds 1)⟩ := by
    intro i task under
    cases i with
    | false =>
      cases under
      exact other
    | true => cases under
  have begun : Run (fun c task => c.Apart task ∧ Tends "a" task)
      (fun clock => 0 ≤ clock ∧ clock ≤ 0) (idle d) [] _ :=
    (Run.start.start_task false ⟨s, s.evict (fileName "a")⟩ rfl ⟨nofun, .evicts⟩).start_task true
      ⟨s', s'.set "a" "y" (.ofSeconds 1)⟩ rfl ⟨apart, .sets⟩
  have placed := (((begun.ask true 0 rfl now rfl).ask true 0 rfl now write).ask true 0 rfl now
    place).finish true rfl
  have judged := (placed.ask false 0 rfl now move).judge false 0 rfl s.nameFits_temporary aside now
  have ended := ((judged.ask false 0 rfl now link).ask false 0 rfl now remove).finish false rfl
  have written (i name) (r : Record) (mem : ⟨i, .write name r.encode, .ok ()⟩ ∈ events) :
      r = new := by
    have mem : i = true ∧ name = s'.temporary ∧ r.encode = new.encode := by
      simpa [events] using mem
    exact Record.encode_injective mem.2.2
  have start : ∀ node, Table.get? d (fileName "a") = some node →
      ∃ content, node = .file content ∧ ¬ Live content 0 := by
    intro node found
    rw [Table.get?_insert, if_pos rfl] at found
    cases found
    refine ⟨_, rfl, fun ⟨r, here, live⟩ => ?_⟩
    rw [Record.decode?_encode] at here
    cases here
    exact absurd live (by decide)
  have lasting (i name) (r : Record) (mem : ⟨i, .write name r.encode, .ok ()⟩ ∈ events) :
      r.isLive 0 = true := by
    rw [written i name r mem]
    decide
  have placed : Placed "a" events := ⟨true, s'.temporary, by simp [events]⟩
  obtain ⟨⟨r, found, _, _, i, name, mem⟩, cleared⟩ :=
    evictions_lose_nothing start ended (fun i => by cases i <;> rfl) placed lasting
  exact ⟨_, ended, written i name r mem ▸ found, cleared false _ (by simp)⟩

end Crowd

end SlotLease
