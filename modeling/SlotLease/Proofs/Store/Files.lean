import SlotLease.Proofs.Store.Directory
import SlotLease.Proofs.Store.Expiring

namespace SlotLease

namespace Files

open Interaction

variable {w : World} {name source target : String} {content : ByteArray}

theorem ensures_of_answer {request : Request} {Q : Files.Reply request → World → Prop}
    (other : request ≠ .names)
    (h : ∀ clock, w.clock ≤ clock → Q (w.directory.answer clock request).1
      ⟨(w.directory.answer clock request).2, clock⟩) :
    Ensures Serves (.ask request .done) Q w := by
  intro reply w' served
  cases served with
  | names => exact absurd rfl other
  | answers answered =>
    obtain ⟨later, same⟩ := answered
    have := h w'.clock later
    rw [same] at this
    exact this

theorem ensures_read {Q : Except FileError ByteArray → World → Prop}
    (h : ∀ clock, w.clock ≤ clock → Q (w.directory.read name) ⟨w.directory, clock⟩) :
    Ensures Serves (read name) Q w := ensures_of_answer nofun h

theorem ensures_write {Q : Except FileError Unit → World → Prop}
    (h : ∀ clock, w.clock ≤ clock →
      Q (w.directory.write name content).1 ⟨(w.directory.write name content).2, clock⟩) :
    Ensures Serves (write name content) Q w := ensures_of_answer nofun h

theorem ensures_rename {Q : Except FileError Unit → World → Prop}
    (h : ∀ clock, w.clock ≤ clock →
      Q (w.directory.rename source target).1 ⟨(w.directory.rename source target).2, clock⟩) :
    Ensures Serves (rename source target) Q w := ensures_of_answer nofun h

theorem ensures_remove {Q : Except FileError Unit → World → Prop}
    (h : ∀ clock, w.clock ≤ clock →
      Q (w.directory.remove name).1 ⟨(w.directory.remove name).2, clock⟩) :
    Ensures Serves (remove name) Q w := ensures_of_answer nofun h

theorem ensures_now {Q : UInt64 → World → Prop}
    (h : ∀ clock, w.clock ≤ clock → Q clock ⟨w.directory, clock⟩) :
    Ensures Serves now Q w := ensures_of_answer nofun h

theorem ensures_names {Q : Except FileError (List String) → World → Prop}
    (h : ∀ clock listed, w.clock ≤ clock → listed.Perm w.directory.keys →
      Q (.ok listed) ⟨w.directory, clock⟩) : Ensures Serves names Q w := by
  intro reply w' served
  cases served with
  | names later perm => exact h _ _ later perm
  | answers answered =>
    obtain ⟨directory, clock⟩ := w'
    obtain ⟨later, same⟩ := answered
    obtain ⟨rfl, rfl⟩ := Prod.mk.inj same
    exact h clock _ later (.refl _)

end Files

namespace Directory

variable {d : Directory} {name source target : String} {r : Record}

theorem Sound.read_eq (h : d.Sound) (name : String) :
    (d.read name = .error .nameTooLong ∧ nameFits name = false) ∨
      (d.read name = .error .notFound ∧ d.record? name = none) ∨
      ∃ r, d.read name = .ok r.encode ∧ d.record? name = some r := by
  unfold read
  rw [h.get? name]
  cases nameFits name with
  | false => exact .inl ⟨rfl, rfl⟩
  | true =>
    cases d.record? name with
    | none => exact .inr (.inl ⟨rfl, rfl⟩)
    | some r => exact .inr (.inr ⟨r, rfl, rfl⟩)

theorem Sound.absent (h : d.Sound) (none : d.record? name = none) : Table.get? d name = .none := by
  rw [h.get? name, none]
  rfl

theorem Sound.present (h : d.Sound) (found : d.record? name = some r) :
    Table.get? d name = some (.file r.encode) := by
  rw [h.get? name, found]
  rfl

theorem remove_present {content : ByteArray} (fits : nameFits name = true)
    (here : Table.get? d name = some (.file content)) :
    d.remove name = (.ok (), Table.erase d name) := by
  simp [remove, fits, here]

theorem erase_insert_erase (absent : Table.get? d target = .none) (node : Node) :
    Table.erase (Table.insert (Table.erase d source) target node) target =
      Table.erase d source := by
  apply Table.ext
  intro name
  rw [Table.get?_erase, Table.get?_insert, Table.get?_erase]
  by_cases same : target = name
  · subst same
    simp [absent]
  · rw [if_neg same, if_neg same]

theorem erase_insert (absent : Table.get? d target = .none) (node : Node) :
    Table.erase (Table.insert d target node) target = d := by
  apply Table.ext
  intro name
  rw [Table.get?_erase, Table.get?_insert]
  by_cases same : target = name
  · subst same
    rw [if_pos rfl, absent]
  · rw [if_neg same, if_neg same]

theorem rename_present {content : ByteArray} (fits : nameFits source = true)
    (fits' : nameFits target = true) (here : Table.get? d source = some (.file content))
    (file : ∀ number, Table.get? d target ≠ some (.folder number)) :
    d.rename source target =
      (.ok (), Table.insert (Table.erase d source) target (.file content)) := by
  simp only [rename, fits, fits', Bool.not_true, Bool.or_self, Bool.false_eq_true, if_false, here]
  cases there : Table.get? d target with
  | none => rfl
  | some node =>
    cases node with
    | file content => rfl
    | folder number => exact absurd there (file number)

theorem rename_long (long : ¬ (nameFits source = true ∧ nameFits target = true)) :
    d.rename source target = (.error .nameTooLong, d) := by
  have : (!nameFits source || !nameFits target) = true := by
    rw [← Bool.not_and, Bool.not_eq_true', Bool.eq_false_iff, Ne, Bool.and_eq_true]
    exact long
  rw [rename, if_pos this]

variable {d' : Directory} {content : ByteArray} {reply : Except FileError Unit}

theorem write_cases (h : d.write name content = (reply, d')) :
    (∃ cause, reply = .error cause) ∧ d' = d ∨
      reply = .ok () ∧ d' = Table.insert d name (.file content) := by
  unfold write at h
  split at h
  · cases h
    exact .inl ⟨⟨_, rfl⟩, rfl⟩
  · split at h <;> cases h
    · exact .inl ⟨⟨_, rfl⟩, rfl⟩
    · exact .inr ⟨rfl, rfl⟩

theorem write_free (fits : nameFits name = true)
    (file : ∀ number, Table.get? d name ≠ some (.folder number)) :
    d.write name content = (.ok (), Table.insert d name (.file content)) := by
  rw [write, fits]
  cases here : Table.get? d name with
  | none => rfl
  | some node =>
    cases node with
    | file _ => rfl
    | folder number => exact absurd here (file number)

theorem rename_cases (h : d.rename source target = (reply, d')) :
    (∃ cause, reply = .error cause) ∧ d' = d ∨
      reply = .ok () ∧ nameFits source = true ∧ ∃ node, Table.get? d source = some node ∧
        d' = Table.insert (Table.erase d source) target node := by
  unfold rename at h
  split at h
  · cases h
    exact .inl ⟨⟨_, rfl⟩, rfl⟩
  · rename_i fits
    have fits : nameFits source = true := by
      cases long : nameFits source with
      | true => rfl
      | false => simp [long] at fits
    split at h <;> cases h
    case h_5 node here _ _ _ => exact .inr ⟨rfl, fits, node, here, rfl⟩
    all_goals exact .inl ⟨⟨_, rfl⟩, rfl⟩

theorem read_present (fits : nameFits name = true)
    (here : Table.get? d name = some (.file content)) : d.read name = .ok content := by
  simp [read, fits, here]

theorem link_present (fits : nameFits source = true) (fits' : nameFits target = true)
    (here : Table.get? d source = some (.file content)) :
    Table.get? d target = none ∧
        d.link source target = (.ok (), Table.insert d target (.file content)) ∨
      (∃ node, Table.get? d target = some node) ∧
        d.link source target = (.error .alreadyExists, d) := by
  cases there : Table.get? d target with
  | none => exact .inl ⟨rfl, by simp [link, fits, fits', here, there]⟩
  | some node => exact .inr ⟨⟨node, rfl⟩, by simp [link, fits, fits', here, there]⟩

end Directory

namespace FileStore

open Interaction Files

variable {w w' : World} {name key : String} {r : Record}

def Untouched (w w' : World) : Prop := w'.directory = w.directory ∧ w.clock ≤ w'.clock

theorem read_ensures (s : FileStore) (sound : w.directory.Sound) (name : String) :
    Ensures Serves (s.read name) (fun result w' => Untouched w w' ∧
      (result = .ok (w.directory.record? name) ∨
        (∃ cause, result = .error (.io cause)) ∧ Directory.nameFits name = false)) w := by
  rw [FileStore.read, ensures_bind]
  apply ensures_read
  intro clock later
  rcases sound.read_eq name with ⟨failed, long⟩ | ⟨absent, none⟩ | ⟨r, here, found⟩
  · rw [failed]
    exact ⟨⟨rfl, later⟩, .inr ⟨⟨_, rfl⟩, long⟩⟩
  · rw [absent, none]
    exact ⟨⟨rfl, later⟩, .inl rfl⟩
  · rw [here, found]
    simp only [Record.decode?_encode]
    exact ⟨⟨rfl, later⟩, .inl rfl⟩

theorem removeIfPresent_ensures {content : ByteArray} (fits : Directory.nameFits name = true)
    (here : Table.get? w.directory name = some (.file content)) :
    Ensures Serves (removeIfPresent name) (fun result w' => result = .ok () ∧
      w'.directory = w.directory.erase name ∧ w.clock ≤ w'.clock) w := by
  rw [removeIfPresent, ensures_bind]
  apply ensures_remove
  intro clock later
  rw [Directory.remove_present fits here]
  exact ⟨rfl, rfl, later⟩

theorem isLiveAside_ensures (s : FileStore) (fits : Directory.nameFits name = true)
    (here : Table.get? w.directory name = some (.file r.encode))
    (ended : r.isLive w.clock = false) :
    Ensures Serves (s.isLiveAside name) (fun result w' => result = false ∧ Untouched w w') w := by
  rw [isLiveAside, FileStore.read, ensures_bind, ensures_bind]
  apply ensures_read
  intro clock later
  have read : w.directory.read name = .ok r.encode := by simp [Directory.read, fits, here]
  simp only [read, Record.decode?_encode, ensures_pure, ensures_bind]
  apply ensures_now
  intro clock' later'
  have later' : w.clock ≤ clock' := UInt64.le_trans later later'
  exact ⟨World.ended_of_le later' ended, rfl, later'⟩

theorem evict_ended (s : FileStore) (free : Table.get? w.directory s.temporary = none)
    (here : Table.get? w.directory name = some (.file r.encode))
    (ended : r.isLive w.clock = false) :
    Ensures Serves (s.evict name) (fun result w' => w.clock ≤ w'.clock ∧
      (result.1 = .ok () ∧ w'.directory = w.directory.erase name ∨
        ((∃ e, result.1 = .error e) ∧ Directory.nameFits name = false) ∧
          w'.directory = w.directory)) w := by
  rw [evict, ensures_bind]
  apply ensures_rename
  intro clock later
  cases fits : Directory.nameFits name with
  | true =>
    have renamed := Directory.rename_present fits s.nameFits_temporary here (by simp [free])
    have moved : Table.get? (Table.insert (Table.erase w.directory name) s.temporary
        (.file r.encode)) s.temporary = some (.file r.encode) := by simp
    have ended : r.isLive clock = false := World.ended_of_le later ended
    rw [renamed]
    simp only [ensures_bind]
    refine (isLiveAside_ensures _ s.nameFits_temporary moved ended).mono ?_
    rintro _ w' ⟨rfl, same, later'⟩
    rw [if_neg (by decide), ensures_bind]
    refine (removeIfPresent_ensures s.nameFits_temporary (by rw [same]; exact moved)).mono ?_
    rintro _ w'' ⟨rfl, gone, later''⟩
    rw [same, Directory.erase_insert_erase free] at gone
    exact ⟨UInt64.le_trans later (UInt64.le_trans later' later''), .inl ⟨rfl, gone⟩⟩
  | false =>
    rw [Directory.rename_long (by simp [fits])]
    exact ⟨later, .inr ⟨⟨⟨_, rfl⟩, rfl⟩, rfl⟩⟩

theorem evict_ensures (s : FileStore) (sound : w.directory.Sound)
    (found : w.directory.record? name = some r) (ended : r.isLive w.clock = false) :
    Ensures Serves (s.evict name) (fun result w' => w.clock ≤ w'.clock ∧
      (result.1 = .ok () ∧ w'.directory = w.directory.erase name ∨
        ((∃ e, result.1 = .error e) ∧ Directory.nameFits name = false) ∧
          w'.directory = w.directory)) w :=
  evict_ended s (sound.absent (sound.record?_temporary s)) (sound.present found) ended

theorem write_beside (s : FileStore) (free : Table.get? w.directory s.temporary = none) (r : Record)
    (file : ∀ number, Table.get? w.directory (fileName r.key) ≠ some (.folder number)) :
    Ensures Serves (s.write r) (fun result w' => w.clock ≤ w'.clock ∧
      ((result.1 = .ok () ∧ Directory.nameFits (fileName r.key) = true) ∧
          w'.directory = w.directory.insert (fileName r.key) (.file r.encode) ∨
        ((∃ e, result.1 = .error e) ∧ Directory.nameFits (fileName r.key) = false) ∧
          w'.directory = w.directory)) w := by
  have other := s.temporary_ne_fileName r.key
  have fits := s.nameFits_temporary
  rw [FileStore.write, ensures_bind]
  apply ensures_write
  intro clock later
  have made : Table.get? (Table.insert w.directory s.temporary (.file r.encode)) s.temporary =
      some (.file r.encode) := by simp
  have written : w.directory.write s.temporary r.encode =
      (.ok (), Table.insert w.directory s.temporary (.file r.encode)) := by
    simp [Directory.write, fits, free]
  rw [written]
  simp only [ensures_bind]
  apply ensures_rename
  intro clock' later'
  have later' := UInt64.le_trans later later'
  cases fits' : Directory.nameFits (fileName r.key) with
  | false =>
    rw [Directory.rename_long (by simp [fits'])]
    simp only [ensures_bind]
    apply ensures_remove
    intro clock'' later''
    rw [Directory.remove_present fits made, Directory.erase_insert free]
    exact ⟨UInt64.le_trans later' later'', .inr ⟨⟨⟨_, rfl⟩, trivial⟩, rfl⟩⟩
  | true =>
    rw [Directory.rename_present fits fits' made]
    · rw [Directory.erase_insert free]
      exact ⟨later', .inl ⟨⟨rfl, rfl⟩, rfl⟩⟩
    · intro number
      rw [Table.get?_insert, if_neg other]
      exact file number

theorem write_ensures (s : FileStore) (sound : w.directory.Sound) (r : Record) :
    Ensures Serves (s.write r) (fun result w' => w.clock ≤ w'.clock ∧
      (result.1 = .ok () ∧ w'.directory = w.directory.insert (fileName r.key) (.file r.encode) ∨
        ((∃ e, result.1 = .error e) ∧ Directory.nameFits (fileName r.key) = false) ∧
          w'.directory = w.directory)) w := by
  refine (write_beside s (sound.absent (sound.record?_temporary s)) r fun number there => ?_).mono
    fun result w' ⟨later, ends⟩ => ⟨later, ends.imp_left fun ⟨⟨ok, _⟩, written⟩ => ⟨ok, written⟩⟩
  rw [sound.get?] at there
  cases found : w.directory.record? (fileName r.key) <;> simp [found] at there

def Looked (w : World) (key : String) (result : Except StoreError (Option Record)) (w' : World) :
    Prop :=
  w'.directory.Sound ∧ w.shelf.Ages Shelf.all w'.shelf ∧
    match result with
    | .error _ => Directory.nameFits (fileName key) = false
    | .ok none => ¬ w'.shelf.Live key
    | .ok (some r) => w'.directory = w.directory ∧ w.clock ≤ w'.clock ∧
        w.directory.record? (fileName key) = some r ∧ r.isLive w.clock = true

theorem untouched_ages (h : Untouched w w') : w.shelf.Ages Shelf.all w'.shelf := by
  obtain ⟨d, clock⟩ := w
  obtain ⟨d', clock'⟩ := w'
  obtain ⟨rfl, later⟩ := h
  exact World.ages_same later

theorem erased_ages {clock : UInt64} (named : name = fileName key) (ended : r.isLive clock = false)
    (found : w.directory.record? name = some r) (later : w.clock ≤ w'.clock)
    (still : clock ≤ w'.clock) (same : w'.directory = w.directory.erase name) :
    w.shelf.Ages Shelf.all w'.shelf := by
  obtain ⟨d, clock₀⟩ := w
  obtain ⟨d', clock'⟩ := w'
  subst named
  subst same
  apply World.ages_erase_of_ended later
  intro r' found'
  rw [found] at found'
  cases found'
  exact World.ended_of_le still ended

theorem written_ages (later : w.clock ≤ w'.clock)
    (written : w'.directory = w.directory.insert (fileName r.key) (.file r.encode)) :
    w.shelf.Ages (Shelf.others r.key) w'.shelf ∧
      w'.shelf.entries r.key = some ⟨r.value, r.expiresAt.toNat⟩ := by
  obtain ⟨d, clock⟩ := w
  obtain ⟨d', clock'⟩ := w'
  subst written
  exact ⟨World.ages_insert later, World.stored_insert⟩

theorem erase_ages (later : w.clock ≤ w'.clock)
    (erased : w'.directory = w.directory.erase (fileName key)) :
    w.shelf.Ages (Shelf.others key) w'.shelf := by
  obtain ⟨d, clock⟩ := w
  obtain ⟨d', clock'⟩ := w'
  subst erased
  exact World.ages_erase later

theorem not_live_of_absent (absent : w.directory.record? (fileName key) = none) :
    ¬ w.shelf.Live key := by
  intro live
  obtain ⟨r, here, _⟩ := World.live_shelf.1 live
  rw [absent] at here
  exact Option.some_ne_none r here.symm

theorem readLive_ensures (s : FileStore) (sound : w.directory.Sound) (key : String) :
    Ensures Serves (s.readLive key) (fun result w' => Looked w key result.1 w') w := by
  rw [readLive, ensures_bind]
  refine (read_ensures s sound (fileName key)).mono ?_
  rintro _ w₁ ⟨untouched, rfl | ⟨⟨cause, rfl⟩, long⟩⟩
  · obtain ⟨same, later⟩ := untouched
    have sound₁ : w₁.directory.Sound := same ▸ sound
    cases found : w.directory.record? (fileName key) with
    | none => exact ⟨sound₁, untouched_ages ⟨same, later⟩, not_live_of_absent (by rw [same, found])⟩
    | some r =>
      simp only [ensures_bind]
      apply ensures_now
      intro clock later'
      have later' := UInt64.le_trans later later'
      cases live : r.isLive clock with
      | true =>
        rw [if_pos rfl]
        exact ⟨sound₁, untouched_ages ⟨same, later'⟩, same, later', found,
          World.isLive_of_le later' live⟩
      | false =>
        rw [if_neg (by decide), ensures_bind]
        have evicts :=
          evict_ensures (w := ⟨w₁.directory, clock⟩) s sound₁ (by rw [same, found]) live
        refine evicts.mono ?_
        rintro ⟨result, s'⟩ w₂ ⟨later₂, ⟨rfl, gone⟩ | ⟨⟨⟨e, rfl⟩, long⟩, kept⟩⟩
        · rw [same] at gone
          refine ⟨gone ▸ sound.erase _, ?_, ?_⟩
          · exact erased_ages rfl live found (UInt64.le_trans later' later₂) later₂ gone
          · apply not_live_of_absent
            rw [gone]
            exact (Directory.record?_erase ..).trans (if_pos rfl)
        · rw [same] at kept
          exact ⟨kept ▸ sound, untouched_ages ⟨kept, UInt64.le_trans later' later₂⟩, long⟩
  · exact ⟨untouched.1 ▸ sound, untouched_ages untouched, long⟩

def span (ttl : Duration) : Int := ttl.millis

def scale : Scale := ⟨span, UInt64.size⟩

theorem deadline_ensures (ttl : Duration) :
    Ensures Serves (deadline ttl) (fun result w' => Untouched w w' ∧
      ∃ counted : Int, w.clock.toNat ≤ counted ∧ counted ≤ w'.clock.toNat ∧
        match result with
        | .ok expiresAt => (expiresAt.toNat : Int) = counted + span ttl
        | .error cause => cause = .ttlOutOfRange ttl ∧ scale.limit ≤ counted + span ttl) w := by
  have size : UInt64.size = 2 ^ 64 := rfl
  rw [deadline]
  split
  · rename_i long
    refine ⟨⟨rfl, UInt64.le_refl _⟩, w.clock.toNat, Int.le_refl _, Int.le_refl _, rfl, ?_⟩
    simp only [scale, span]
    omega
  · rw [ensures_bind]
    apply ensures_now
    intro clock later
    have since : (w.clock.toNat : Int) ≤ clock.toNat :=
      Int.ofNat_le.2 (UInt64.le_iff_toNat_le.1 later)
    split
    · rename_i beyond
      refine ⟨⟨rfl, later⟩, clock.toNat, since, Int.le_refl _, rfl, ?_⟩
      simp only [scale, span]
      omega
    · rename_i short fits
      refine ⟨⟨rfl, later⟩, clock.toNat, since, Int.le_refl _, ?_⟩
      simp only [span]
      rw [UInt64.toNat_add, UInt64.toNat_ofNat', Nat.mod_eq_of_lt (by omega),
        Nat.mod_eq_of_lt (by omega)]
      rfl

def listed? (d : Directory) (root : String) (now : UInt64) (name : String) : Option String :=
  if isLeaseName name then
    ((d.record? name).filter fun r =>
      r.isLive now && root.toList.isPrefixOf r.key.toList).map (·.key)
  else none

structure Walked (root : String) (now : UInt64) (names found : List String) (w : World)
    (result : Except StoreError (List String)) (w' : World) : Prop where
  sound : w'.directory.Sound
  ages : w.shelf.Ages Shelf.all w'.shelf
  exact : ∀ keys, result = .ok keys → keys = found ++ names.filterMap (listed? w.directory root now)
  failed : ∀ cause, result = .error cause → ∃ name ∈ names, Directory.nameFits name = false

variable {root : String} {now : UInt64} {names found : List String}
  {result : Except StoreError (List String)}

theorem Walked.of_error {cause : StoreError} (sound : w'.directory.Sound)
    (ages : w.shelf.Ages Shelf.all w'.shelf) (long : Directory.nameFits name = false) :
    Walked root now (name :: names) found w (.error cause) w' where
  sound := sound
  ages := ages
  exact _ ok := nomatch ok
  failed _ _ := ⟨name, List.mem_cons_self, long⟩

theorem Walked.cons {w₁ : World}
    (walked : Walked root now names (found ++ (listed? w.directory root now name).toList) w₁
      result w')
    (ages : w.shelf.Ages Shelf.all w₁.shelf)
    (others : ∀ name' ∈ names, w₁.directory.record? name' = w.directory.record? name') :
    Walked root now (name :: names) found w result w' where
  sound := walked.sound
  ages := ages.trans walked.ages
  exact keys ok := by
    have same : names.filterMap (listed? w₁.directory root now) =
        names.filterMap (listed? w.directory root now) := by
      refine List.filterMap_congr fun name' mem => ?_
      rw [listed?, listed?, others name' mem]
    rw [walked.exact keys ok, same, List.append_assoc, List.filterMap_cons]
    cases listed? w.directory root now name <;> rfl
  failed cause failed := by
    obtain ⟨name', mem, long⟩ := walked.failed cause failed
    exact ⟨name', List.mem_cons_of_mem name mem, long⟩

theorem Walked.pass {w₁ : World} (walked : Walked root now names found w₁ result w')
    (untouched : Untouched w w₁) (unlisted : listed? w.directory root now name = none) :
    Walked root now (name :: names) found w result w' := by
  refine Walked.cons ?_ (untouched_ages untouched) fun name' _ => by rw [untouched.1]
  rw [unlisted, Option.toList_none, List.append_nil]
  exact walked

theorem Walked.take {w₁ : World} {r : Record}
    (walked : Walked root now names
      (found ++ if root.toList.isPrefixOf r.key.toList then [r.key] else []) w₁ result w')
    (untouched : Untouched w w₁) (named : isLeaseName name = true)
    (there : w.directory.record? name = some r) (live : r.isLive now = true) :
    Walked root now (name :: names) found w result w' := by
  have here : (listed? w.directory root now name).toList =
      if root.toList.isPrefixOf r.key.toList = true then [r.key] else [] := by
    simp only [listed?, named, if_true, there, Option.filter_some, live, Bool.true_and]
    split <;> rfl
  refine Walked.cons ?_ (untouched_ages untouched) fun name' _ => by rw [untouched.1]
  rw [here]
  exact walked

theorem Walked.drop {w₁ : World} (walked : Walked root now names found w₁ result w')
    (ages : w.shelf.Ages Shelf.all w₁.shelf) (gone : w₁.directory = w.directory.erase name)
    (alone : name ∉ names) (unlisted : listed? w.directory root now name = none) :
    Walked root now (name :: names) found w result w' := by
  refine Walked.cons ?_ ages fun name' mem => ?_
  · rw [unlisted, Option.toList_none, List.append_nil]
    exact walked
  · rw [gone, Directory.record?_erase, if_neg]
    rintro rfl
    exact alone mem

theorem listFiles_ensures (s : FileStore) (sound : w.directory.Sound) (root : String)
    (now : UInt64) (names found : List String) (distinct : names.Nodup) (early : now ≤ w.clock) :
    Ensures Serves (s.listFiles root now names found)
      (fun result w' => Walked root now names found w result.1 w') w := by
  induction names generalizing s w found with
  | nil =>
    refine ⟨sound, .refl _, ?_, nofun⟩
    rintro keys ⟨⟩
    exact (List.append_nil found).symm
  | cons name rest ih =>
    obtain ⟨alone, distinct⟩ := List.nodup_cons.1 distinct
    rw [listFiles]
    split
    · -- a file of another name holds no lease
      rename_i other
      refine (ih s sound found distinct early).mono fun result w' walked => ?_
      refine walked.pass ⟨rfl, UInt64.le_refl _⟩ (if_neg ?_)
      simpa using other
    · rename_i named
      have named : isLeaseName name = true := by simpa using named
      rw [ensures_bind]
      refine (read_ensures s sound name).mono ?_
      rintro _ w₁ ⟨⟨same, later⟩, rfl | ⟨⟨cause, rfl⟩, long⟩⟩
      · have sound₁ : w₁.directory.Sound := same ▸ sound
        have early₁ := UInt64.le_trans early later
        cases found? : w.directory.record? name with
        | none =>
          refine (ih s sound₁ found distinct early₁).mono fun result w' walked => ?_
          exact walked.pass ⟨same, later⟩ (by simp [listed?, found?])
        | some r =>
          cases live : r.isLive now with
          | true =>
            simp only [live, if_true]
            refine (ih s sound₁ _ distinct early₁).mono fun result w' walked => ?_
            exact walked.take ⟨same, later⟩ named found? live
          | false =>
            simp only [live, Bool.false_eq_true, if_false, ensures_bind]
            have ended : r.isLive w₁.clock = false := World.ended_of_le early₁ live
            refine (evict_ensures s sound₁ (by rw [same, found?]) ended).mono ?_
            rintro ⟨result, s'⟩ w₂ ⟨later₂, ⟨rfl, gone⟩ | ⟨⟨⟨e, rfl⟩, long⟩, kept⟩⟩
            · rw [same] at gone
              have ages : w.shelf.Ages Shelf.all w₂.shelf :=
                erased_ages (sound.name_eq found?) ended found? (UInt64.le_trans later later₂)
                  later₂ gone
              refine (ih s' (gone ▸ sound.erase _) found distinct
                (UInt64.le_trans early₁ later₂)).mono fun result w' walked => ?_
              exact walked.drop ages gone alone (by simp [listed?, found?, live])
            · rw [same] at kept
              exact .of_error (kept ▸ sound) (untouched_ages ⟨kept, UInt64.le_trans later later₂⟩)
                long
      · exact .of_error (same ▸ sound) (untouched_ages ⟨same, later⟩) long

theorem name_of_listed? (sound : w.directory.Sound)
    (found : listed? w.directory root now name = some key) :
    isLeaseName name = true ∧ name = fileName key ∧ root.toList.isPrefixOf key.toList = true ∧
      ∃ r, w.directory.record? name = some r ∧ r.isLive now = true := by
  rw [listed?] at found
  split at found
  · rename_i named
    obtain ⟨r, there, rfl⟩ := Option.map_eq_some_iff.1 found
    obtain ⟨there, shown⟩ := Option.filter_eq_some_iff.1 there
    rw [Bool.and_eq_true] at shown
    exact ⟨named, sound.name_eq there, shown.2, r, there, shown.1⟩
  · cases found

theorem mem_listing (sound : w.directory.Sound) (perm : names.Perm w.directory.keys) :
    key ∈ names.filterMap (listed? w.directory root now) ↔ isLeaseName (fileName key) = true ∧
      root.toList.isPrefixOf key.toList = true ∧ ∃ e, w.shelf.visible? now.toNat key = some e := by
  rw [World.visible_shelf, List.mem_filterMap]
  constructor
  · rintro ⟨name, _, found⟩
    obtain ⟨named, rfl, begins, shown⟩ := name_of_listed? sound found
    exact ⟨named, begins, shown⟩
  · rintro ⟨named, begins, r, there, live⟩
    cases fileName_injective (sound.name_eq there)
    refine ⟨fileName r.key, perm.mem_iff.2 (Table.mem_keys.2 ⟨_, sound.present there⟩), ?_⟩
    simp only [listed?, named, if_true, there, Option.filter_some, live, begins, Bool.and_self,
      Option.map_some]

theorem listing_nodup (sound : w.directory.Sound) (distinct : names.Nodup) :
    (names.filterMap (listed? w.directory root now)).Nodup := by
  refine distinct.filterMap fun name name' key here there => ?_
  exact (name_of_listed? sound here).2.1.trans (name_of_listed? sound there).2.1.symm

def Fits (key : String) : Prop := key ≠ "" ∧ key.utf8ByteSize ≤ 124

theorem Fits.named (h : Fits key) : Directory.nameFits (fileName key) = true :=
  nameFits_fileName.2 h.2

structure Answered (w : World) (call : Store.Call) (result : call.Reply × FileStore)
    (w' : World) : Prop where
  sound : w'.directory.Sound
  conforms : w.shelf.Conforms span call result.1 w'.shelf
  precise : (∀ key, call.key? = some key → Fits key) → w.shelf.Within Fits →
    w.shelf.Precise scale call result.1 w'.shelf ∧
      ∀ cause, result.1 = .error cause → w'.directory = w.directory

theorem Answered.of_ok {call : Store.Call} {value : call.Value} {s : FileStore}
    (sound : w'.directory.Sound) (conforms : w.shelf.Conforms span call (.ok value) w'.shelf)
    (precise : w.shelf.Within Fits → w.shelf.Precise scale call (.ok value) w'.shelf) :
    Answered w call (.ok value, s) w' where
  sound := sound
  conforms := conforms
  precise _ within := by
    refine ⟨precise within, fun cause failed => ?_⟩
    cases failed

theorem Answered.of_long {call : Store.Call} {cause : StoreError} {s : FileStore}
    (named : call.key? = some key) (long : Directory.nameFits (fileName key) = false)
    (sound : w'.directory.Sound) (ages : w.shelf.Ages Shelf.all w'.shelf) :
    Answered w call (.error cause, s) w' where
  sound := sound
  conforms := .of_error ages
  precise fits _ := by
    rw [(fits key named).named] at long
    cases long

theorem ascending_mergeSort {keys : List String} (distinct : keys.Nodup) :
    (keys.mergeSort (· ≤ ·)).Pairwise (· < ·) := by
  have sorted : (keys.mergeSort (· ≤ ·)).Pairwise (fun a b => decide (a ≤ b) = true) := by
    refine List.pairwise_mergeSort (fun a b c le le' => ?_) (fun a b => ?_) keys
    · exact decide_eq_true (String.le_trans (of_decide_eq_true le) (of_decide_eq_true le'))
    · simpa using String.le_total a b
  refine sorted.imp₂ (fun a b le other => ?_) (List.nodup_mergeSort.2 distinct)
  exact Std.lt_of_le_of_ne (of_decide_eq_true le) other

theorem exists_fits (sound : w.directory.Sound) (within : w.shelf.Within Fits)
    (mem : name ∈ w.directory.keys) : ∃ key, Fits key ∧ name = fileName key := by
  obtain ⟨node, found⟩ := Table.mem_keys.1 mem
  obtain ⟨r, rfl, rfl⟩ := sound name node found
  have there : w.directory.record? (fileName r.key) = some r := by
    simp [Directory.record?, found]
  exact ⟨r.key, within _ _ (World.stored_eq_some.2 ⟨r, there, rfl⟩), rfl⟩

structure Scanned (root : String) (w : World) (result : Except StoreError (List String))
    (w' : World) : Prop where
  sound : w'.directory.Sound
  ages : w.shelf.Ages Shelf.all w'.shelf
  exact : ∀ keys, result = .ok keys → keys.Pairwise (· < ·) ∧
    ∃ looked : UInt64, w.clock ≤ looked ∧ looked ≤ w'.clock ∧ ∀ key, key ∈ keys ↔
      isLeaseName (fileName key) = true ∧ root.toList.isPrefixOf key.toList = true ∧
        ∃ e, w.shelf.visible? looked.toNat key = some e
  failed : ∀ cause, result = .error cause →
    ∃ name ∈ w.directory.keys, Directory.nameFits name = false

theorem list_scans (s : FileStore) (sound : w.directory.Sound) (root : String) :
    Ensures Serves (s.list root) (fun result w' => Scanned root w result.1 w') w := by
  rw [list, ensures_bind]
  apply ensures_now
  intro now since
  rw [ensures_bind]
  apply ensures_names
  intro clock names later perm
  have distinct : names.Nodup := perm.nodup_iff.2 (Table.keys_ascending _).nodup
  simp only [ensures_bind]
  refine (listFiles_ensures (w := ⟨w.directory, clock⟩) s sound root now names [] distinct
    later).mono ?_
  rintro ⟨result, s'⟩ w' walked
  have upTo : clock ≤ w'.clock := UInt64.le_iff_toNat_le.2 (Int.ofNat_le.1 walked.ages.later)
  have ages : w.shelf.Ages Shelf.all w'.shelf :=
    (World.ages_same (UInt64.le_trans since later)).trans walked.ages
  cases result with
  | error cause =>
    refine ⟨walked.sound, ages, by rintro _ ⟨⟩, fun _ _ => ?_⟩
    obtain ⟨name, mem, long⟩ := walked.failed cause rfl
    exact ⟨name, perm.mem_iff.1 mem, long⟩
  | ok found =>
    cases walked.exact found rfl
    refine ⟨walked.sound, ages, ?_, by rintro _ ⟨⟩⟩
    rintro _ ⟨⟩
    rw [List.nil_append]
    refine ⟨ascending_mergeSort (listing_nodup sound distinct), now, since,
      UInt64.le_trans later upTo, fun key => ?_⟩
    rw [List.mem_mergeSort]
    exact mem_listing sound perm

theorem list_ensures (s : FileStore) (sound : w.directory.Sound) (root : String) :
    Ensures Serves (s.list root) (Answered w (.list root)) w := by
  refine (list_scans s sound root).mono ?_
  rintro ⟨result, s'⟩ w' scanned
  cases result with
  | error cause =>
    refine ⟨scanned.sound, scanned.ages, fun _ within => ?_⟩
    obtain ⟨name, mem, long⟩ := scanned.failed cause rfl
    obtain ⟨key, fits, rfl⟩ := exists_fits sound within mem
    rw [fits.named] at long
    cases long
  | ok keys =>
    obtain ⟨ascending, looked, since, upTo, listing⟩ := scanned.exact keys rfl
    have since : w.shelf.now ≤ looked.toNat := Int.ofNat_le.2 (UInt64.le_iff_toNat_le.1 since)
    have upTo : (looked.toNat : Int) ≤ w'.shelf.now :=
      Int.ofNat_le.2 (UInt64.le_iff_toNat_le.1 upTo)
    refine .of_ok scanned.sound ⟨scanned.ages, ?_, ?_⟩
      fun within => ⟨ascending, looked.toNat, since, upTo, ?_⟩
    · intro key mem
      obtain ⟨_, begins, e, shown⟩ := (listing key).1 mem
      obtain ⟨found, before⟩ := Shelf.visible?_eq_some.1 shown
      exact ⟨begins, e, found, Int.lt_of_le_of_lt since before⟩
    · intro key filled begins live
      obtain ⟨e, found, before⟩ := live
      refine (listing key).2 ⟨isLeaseName_fileName filled, begins, e, ?_⟩
      exact Shelf.visible?_eq_some.2
        ⟨scanned.ages.old trivial found, Int.lt_of_le_of_lt upTo before⟩
    · intro key
      rw [listing key, and_iff_right_of_imp]
      rintro ⟨_, e, shown⟩
      exact isLeaseName_fileName (within key e (Shelf.visible?_eq_some.1 shown).1).1

theorem has_ensures (s : FileStore) (sound : w.directory.Sound) (key : String) :
    Ensures Serves (s.has key) (Answered w (.has key)) w := by
  rw [has, ensures_bind]
  refine (readLive_ensures s sound key).mono ?_
  rintro ⟨result, s'⟩ w' ⟨sound', ages, looked⟩
  rcases result with e | none | r
  · exact .of_long rfl looked sound' ages
  · exact .of_ok sound' ⟨ages, looked⟩ fun _ => trivial
  · obtain ⟨_, _, there, live⟩ := looked
    exact .of_ok sound' ⟨ages, World.live_shelf.2 ⟨r, there, live⟩⟩ fun _ => trivial

theorem get_ensures (s : FileStore) (sound : w.directory.Sound) (key : String) :
    Ensures Serves (s.get key) (Answered w (.get key)) w := by
  rw [get, ensures_bind]
  refine (readLive_ensures s sound key).mono ?_
  rintro ⟨result, s'⟩ w' ⟨sound', ages, looked⟩
  rcases result with e | none | r
  · exact .of_long rfl looked sound' ages
  · exact .of_ok sound' ⟨ages, looked⟩ fun _ => trivial
  · obtain ⟨_, _, there, live⟩ := looked
    have found := World.stored_eq_some.2 ⟨r, there, rfl⟩
    exact .of_ok sound' ⟨ages, _, found, World.isLive_iff.1 live, rfl⟩ fun _ => trivial

theorem set_ensures (s : FileStore) (sound : w.directory.Sound) (key value : String)
    (ttl : Duration) :
    Ensures Serves (s.set key value ttl) (Answered w (.set key value ttl)) w := by
  rw [set, ensures_bind]
  refine (deadline_ensures ttl).mono ?_
  rintro result w₁ ⟨⟨same, later⟩, counted, low, high, ends⟩
  cases result with
  | error cause =>
    exact ⟨same ▸ sound, untouched_ages ⟨same, later⟩,
      fun _ _ => ⟨⟨ends.1, counted, low, high, ends.2⟩, fun _ _ => same⟩⟩
  | ok expiresAt =>
    refine (write_ensures s (same ▸ sound) ⟨key, value, expiresAt⟩).mono ?_
    rintro ⟨result, s'⟩ w' ⟨later', ⟨rfl, written⟩ | ⟨⟨⟨e, rfl⟩, long⟩, kept⟩⟩
    · rw [same] at written
      obtain ⟨ages, entry⟩ := written_ages (UInt64.le_trans later later') written
      refine .of_ok (written ▸ sound.insert ⟨key, value, expiresAt⟩) ⟨ages, counted, low, ?_, ?_⟩
        fun _ e found => World.deadline_lt found
      · exact Int.le_trans high (Int.ofNat_le.2 (UInt64.le_iff_toNat_le.1 later'))
      · rw [← ends]
        exact entry
    · rw [same] at kept
      exact .of_long rfl long (kept ▸ sound)
        (untouched_ages ⟨kept, UInt64.le_trans later later'⟩)

theorem refresh_ensures (s : FileStore) (sound : w.directory.Sound) (key : String)
    (ttl : Duration) : Ensures Serves (s.refresh key ttl) (Answered w (.refresh key ttl)) w := by
  rw [refresh, ensures_bind]
  refine (deadline_ensures ttl).mono ?_
  rintro result w₁ ⟨⟨same, later⟩, counted, low, high, ends⟩
  have sound₁ : w₁.directory.Sound := same ▸ sound
  have ages₁ : w.shelf.Ages Shelf.all w₁.shelf := untouched_ages ⟨same, later⟩
  cases result with
  | error cause =>
    exact ⟨sound₁, ages₁,
      fun _ _ => ⟨⟨ends.1, counted, low, high, ends.2⟩, fun _ _ => same⟩⟩
  | ok expiresAt =>
    have below : counted + span ttl < UInt64.size := ends ▸ Int.ofNat_lt.2 expiresAt.toNat_lt
    simp only [ensures_bind]
    refine (readLive_ensures s sound₁ key).mono ?_
    rintro ⟨result, s'⟩ w₂ ⟨sound₂, ages₂, looked⟩
    rcases result with e | none | r
    · exact .of_long rfl looked sound₂ (ages₁.trans ages₂)
    · exact .of_ok sound₂ ⟨ages₁.trans ages₂, looked⟩
        fun _ => ⟨counted, low, Int.le_trans high ages₂.later, below⟩
    · obtain ⟨same₂, later₂, there, live⟩ := looked
      cases fileName_injective (sound₁.name_eq there)
      simp only [ensures_bind]
      refine (write_ensures s' sound₂ { r with expiresAt }).mono ?_
      rintro ⟨result, s''⟩ w' ⟨later', ⟨rfl, written⟩ | ⟨⟨⟨e, rfl⟩, long⟩, kept⟩⟩
      · rw [same₂, same] at written
        have later₁ := UInt64.le_trans later₂ later'
        obtain ⟨ages, entry⟩ :=
          written_ages (r := { r with expiresAt }) (UInt64.le_trans later later₁) written
        refine .of_ok (written ▸ sound.insert { r with expiresAt })
          ⟨ages, _, World.stored_eq_some.2 ⟨r, same ▸ there, rfl⟩,
            World.isLive_iff.1 (World.isLive_of_le later live), counted, low, ?_, ?_⟩
          fun _ e found => World.deadline_lt found
        · exact Int.le_trans high (Int.ofNat_le.2 (UInt64.le_iff_toNat_le.1 later₁))
        · rw [← ends]
          exact entry
      · exact .of_long rfl long (kept ▸ sound₂)
          ((ages₁.trans ages₂).trans (untouched_ages ⟨kept, later'⟩))

theorem delete_ensures (s : FileStore) (sound : w.directory.Sound) (key : String) :
    Ensures Serves (s.delete key) (Answered w (.delete key)) w := by
  rw [delete, ensures_bind]
  refine (readLive_ensures s sound key).mono ?_
  rintro ⟨result, s'⟩ w₁ ⟨sound₁, ages, looked⟩
  rcases result with e | none | r
  · exact .of_long rfl looked sound₁ ages
  · exact .of_ok sound₁ ⟨ages, looked⟩ fun _ => trivial
  · obtain ⟨same, later, there, live⟩ := looked
    have here := sound₁.present (same ▸ there)
    simp only [ensures_bind]
    cases fits : Directory.nameFits (fileName key) with
    | true =>
      refine (removeIfPresent_ensures fits here).mono ?_
      rintro _ w' ⟨rfl, gone, later'⟩
      have erased : w'.directory = w.directory.erase (fileName key) := by rw [gone, same]
      have absent : w'.directory.record? (fileName key) = none := by
        rw [erased, Directory.record?_erase, if_pos rfl]
      refine .of_ok (gone ▸ sound₁.erase _) ⟨?_, World.live_shelf.2 ⟨r, there, live⟩, ?_⟩
        fun _ => trivial
      · exact erase_ages (UInt64.le_trans later later') erased
      · exact congrArg (Option.map _) absent
    | false =>
      rw [removeIfPresent, ensures_bind]
      apply ensures_remove
      intro clock later'
      have long : w₁.directory.remove (fileName key) = (.error .nameTooLong, w₁.directory) := by
        simp [Directory.remove, fits]
      rw [long]
      exact .of_long rfl fits sound₁ (untouched_ages ⟨same, UInt64.le_trans later later'⟩)

theorem answer_ensures (s : FileStore) (sound : w.directory.Sound) (call : Store.Call) :
    Ensures Serves (s.answer call) (Answered w call) w := by
  cases call with
  | list root => exact list_ensures s sound root
  | has key => exact has_ensures s sound key
  | get key => exact get_ensures s sound key
  | set key value ttl => exact set_ensures s sound key value ttl
  | refresh key ttl => exact refresh_ensures s sound key ttl
  | delete key => exact delete_ensures s sound key

end FileStore

end SlotLease
