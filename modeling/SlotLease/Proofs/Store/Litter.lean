import SlotLease.Proofs.Store.Failure

namespace SlotLease

open Interaction

open FileStore (ending fileName isLeaseName)

namespace Directory

inductive LeaseFile (name : String) : Node → Prop
  | record (r : Record) : name = fileName r.key → LeaseFile name (.file r.encode)
  | litter : ending.toList.isSuffixOf name.toList = true → Record.decode? content = none →
      LeaseFile name (.file content)

def Littered (d : Directory) : Prop :=
  ∀ name node, Table.get? d name = some node → nameFits name = true ∧ LeaseFile name node

variable {d d' : Directory} {name : String} {r : Record} {content : ByteArray}

theorem LeaseFile.named {node : Node} (h : LeaseFile name node) :
    ending.toList.isSuffixOf name.toList = true := by
  cases h with
  | record r same => exact same ▸ FileStore.ending_fileName r.key
  | litter named => exact named

theorem littered_empty : Littered ∅ := fun _ _ found => nomatch found

theorem Littered.clean (h : d.Littered) : d.Clean := by
  intro s
  cases found : Table.get? d s.temporary with
  | none => rfl
  | some node =>
    have named := (h _ _ found).2.named
    rw [s.not_ending_temporary] at named
    cases named

theorem Littered.erase (h : d.Littered) (name : String) : Littered (Table.erase d name) := by
  intro name' node found
  rw [Table.get?_erase] at found
  split at found
  · cases found
  · exact h name' node found

theorem Littered.insert (h : d.Littered) {node : Node} (fits : nameFits name = true)
    (file : LeaseFile name node) : Littered (Table.insert d name node) := by
  intro name' node' found
  rw [Table.get?_insert] at found
  split at found
  · rename_i same
    cases found
    exact same ▸ ⟨fits, file⟩
  · exact h name' node' found

theorem Littered.edits (h : d.Littered) (edits : d.Edits d') (clean : d'.Clean) :
    d'.Littered := by
  intro name node found
  have lasting : Files.Lasting name := by
    rintro s rfl
    cases found.symm.trans (clean s)
  cases edits name lasting with
  | stays same => exact h _ _ (same ▸ found)
  | goes gone => cases found.symm.trans gone
  | put r named fits there =>
    cases found.symm.trans there
    exact ⟨fits, .record r named⟩

theorem Littered.present (h : d.Littered) (found : d.record? name = some r) :
    Table.get? d name = some (.file r.encode) ∧ name = fileName r.key ∧ nameFits name = true := by
  obtain ⟨content, here⟩ := get?_of_record? found
  obtain ⟨fits, file⟩ := h _ _ here
  rw [record?, here] at found
  cases file with
  | record r' same =>
    cases (Record.decode?_encode r').symm.trans found
    exact ⟨here, same, fits⟩
  | litter _ undecodable => cases undecodable.symm.trans found

theorem Littered.noFolder (h : d.Littered) (name : String) (number : Nat) :
    Table.get? d name ≠ some (.folder number) := by
  intro found
  cases (h _ _ found).2

end Directory

namespace Files

/-- Directories that come of an empty one by calls, with no link and no removal refused, and by
litter that others leave. -/
inductive Used : Directory → Prop
  | empty : Used ∅
  | littered : Used d → Directory.nameFits name = true →
      ending.toList.isSuffixOf name.toList = true → Record.decode? content = none →
      Used (d.insert name (.file content))
  | called : Used d →
      Runs Responds (FileStore.answer handle call) ⟨d, [], []⟩ (reply, handle')
        ⟨d', shown, refused⟩ →
      Lenient refused → Used d'

theorem Used.isLittered {d : Directory} (used : Used d) : d.Littered := by
  induction used with
  | empty => exact Directory.littered_empty
  | littered _ fits named undecodable ih => exact ih.insert fits (.litter named undecodable)
  | called _ run lenient ih =>
    have settled := run.ensured (FileStore.answer_settles _ _)
    exact ih.edits settled.edits (settled.tidy.clean ih.clean lenient.unstuck)

end Files

namespace FileStore

open Files

variable {w w₁ w' : World} {name key root : String} {r : Record}

theorem clock_le_of_ages {kept : String → Prop} (ages : w.shelf.Ages kept w'.shelf) :
    w.clock ≤ w'.clock := UInt64.le_iff_toNat_le.2 (Int.ofNat_le.1 ages.later)

theorem entries_of_untouched (h : Untouched w w') : w'.shelf.entries = w.shelf.entries := by
  show w'.stored = w.stored
  funext key
  rw [World.stored, h.1]
  rfl

structure Keeps (w w' : World) : Prop where
  littered : w'.directory.Littered
  ages : w.shelf.Ages Shelf.all w'.shelf

theorem Keeps.trans (h : Keeps w w₁) (h' : Keeps w₁ w') : Keeps w w' :=
  ⟨h'.littered, h.ages.trans h'.ages⟩

theorem Untouched.keeps (h : Untouched w w') (littered : w.directory.Littered) : Keeps w w' :=
  ⟨h.1 ▸ littered, untouched_ages h⟩

theorem read_amid (s : FileStore) (littered : w.directory.Littered) (name : String) :
    Ensures Serves (s.read name) (fun result w' => Untouched w w' ∧
      (result = .ok (w.directory.record? name) ∨
        (∃ e, result = .error e) ∧ w.directory.record? name = none)) w := by
  rw [FileStore.read, ensures_bind]
  apply ensures_read
  intro clock later
  cases whole : w.directory.read name with
  | ok content =>
    rw [Directory.record?_of_read whole]
    cases decoded : Record.decode? content with
    | some r =>
      simp only [decoded]
      exact ⟨⟨rfl, later⟩, .inl rfl⟩
    | none =>
      simp only [decoded]
      exact ⟨⟨rfl, later⟩, .inr ⟨⟨_, rfl⟩, trivial⟩⟩
  | error cause =>
    have none : w.directory.record? name = none := by
      cases found : w.directory.record? name with
      | none => rfl
      | some r =>
        obtain ⟨here, _, fits⟩ := littered.present found
        cases (Directory.read_present fits here).symm.trans whole
    rw [none]
    cases cause with
    | notFound => exact ⟨⟨rfl, later⟩, .inl rfl⟩
    | _ => exact ⟨⟨rfl, later⟩, .inr ⟨⟨_, rfl⟩, rfl⟩⟩

theorem evict_amid (s : FileStore) (littered : w.directory.Littered)
    (found : w.directory.record? name = some r) (ended : r.isLive w.clock = false) :
    Ensures Serves (s.evict name) (fun result w' => result.1 = .ok () ∧ Keeps w w' ∧
      w'.directory.record? name = none) w := by
  obtain ⟨here, named, fits⟩ := littered.present found
  refine (evict_ended s (littered.clean s) here ended).mono ?_
  rintro result w' ⟨later, ⟨ok, gone⟩ | ⟨⟨_, long⟩, _⟩⟩
  · refine ⟨ok, ⟨gone ▸ littered.erase name, ?_⟩, ?_⟩
    · exact erased_ages named ended found later later gone
    · rw [gone, Directory.record?_erase, if_pos rfl]
  · cases fits.symm.trans long

theorem readLive_amid (s : FileStore) (littered : w.directory.Littered) (key : String) :
    Ensures Serves (s.readLive key) (fun result w' => Keeps w w' ∧ match result.1 with
      | .error _ => w.directory.record? (fileName key) = none
      | .ok none => ¬ w'.shelf.Live key
      | .ok (some r) => w'.directory = w.directory ∧ w.directory.record? (fileName key) = some r ∧
          r.isLive w.clock = true) w := by
  rw [readLive, ensures_bind]
  refine (read_amid s littered (fileName key)).mono ?_
  rintro _ w₁ ⟨untouched, rfl | ⟨⟨e, rfl⟩, none⟩⟩
  · have keeps := untouched.keeps littered
    obtain ⟨same, later⟩ := untouched
    cases found : w.directory.record? (fileName key) with
    | none => exact ⟨keeps, not_live_of_absent (by rw [same, found])⟩
    | some r =>
      simp only [ensures_bind]
      apply ensures_now
      intro clock later'
      have keeps : Keeps w ⟨w₁.directory, clock⟩ :=
        Untouched.keeps ⟨same, UInt64.le_trans later later'⟩ littered
      cases live : r.isLive clock with
      | true =>
        rw [if_pos rfl]
        exact ⟨keeps, same, rfl, World.isLive_of_le (UInt64.le_trans later later') live⟩
      | false =>
        rw [if_neg (by decide), ensures_bind]
        have evicts := evict_amid (w := ⟨w₁.directory, clock⟩) s keeps.littered
          (by rw [same, found]) live
        refine evicts.mono ?_
        rintro ⟨_, s'⟩ w₂ ⟨rfl, keeps', gone⟩
        exact ⟨keeps.trans keeps', not_live_of_absent gone⟩
  · exact ⟨untouched.keeps littered, none⟩

structure Collects (root : String) (now : UInt64) (names found : List String) (w : World)
    (result : Except StoreError (List String)) (w' : World) : Prop where
  keeps : Keeps w w'
  listed : ∀ keys, result = .ok keys → ∀ key ∈ keys, key ∈ found ∨
    root.toList.isPrefixOf key.toList = true ∧
      ∃ e, w.shelf.entries key = some e ∧ (now.toNat : Int) < e.deadline
  complete : ∀ keys, result = .ok keys → (∀ key ∈ found, key ∈ keys) ∧ ∀ key,
    fileName key ∈ names → isLeaseName (fileName key) = true →
      root.toList.isPrefixOf key.toList = true → w'.shelf.Live key → key ∈ keys

variable {now : UInt64} {names found found' : List String}
  {result : Except StoreError (List String)}

theorem Collects.of_error {cause : StoreError} (keeps : Keeps w w') :
    Collects root now names found w (.error cause) w' := ⟨keeps, nofun, nofun⟩

theorem Collects.cons (keeps : Keeps w w₁)
    (rest : Collects root now names found' w₁ result w') (old : ∀ key ∈ found, key ∈ found')
    (new : ∀ key ∈ found', key ∈ found ∨ root.toList.isPrefixOf key.toList = true ∧
      ∃ e, w.shelf.entries key = some e ∧ (now.toNat : Int) < e.deadline)
    (here : ∀ key, name = fileName key → isLeaseName name = true →
      root.toList.isPrefixOf key.toList = true → w₁.shelf.Live key → key ∈ found') :
    Collects root now (name :: names) found w result w' where
  keeps := keeps.trans rest.keeps
  listed keys ok key mem := by
    rcases rest.listed keys ok key mem with mem | ⟨begins, e, there, live⟩
    · exact new key mem
    · exact .inr ⟨begins, e, keeps.ages.old trivial there, live⟩
  complete keys ok := by
    obtain ⟨kept, complete⟩ := rest.complete keys ok
    refine ⟨fun key mem => kept key (old key mem), fun key mem named begins live => ?_⟩
    rcases List.mem_cons.1 mem with same | mem
    · exact kept key (here key same.symm (same ▸ named) begins
        (rest.keeps.ages.live trivial live))
    · exact complete key mem named begins live

theorem Collects.pass (keeps : Keeps w w₁) (rest : Collects root now names found w₁ result w')
    (dead : isLeaseName name = true → ∀ key, name = fileName key → ¬ w₁.shelf.Live key) :
    Collects root now (name :: names) found w result w' :=
  rest.cons keeps (fun _ mem => mem) (fun _ mem => .inl mem)
    fun key same named _ live => absurd live (dead named key same)

theorem listFiles_amid (s : FileStore) (littered : w.directory.Littered) (root : String)
    (now : UInt64) (names found : List String) (early : now ≤ w.clock) :
    Ensures Serves (s.listFiles root now names found)
      (fun result w' => Collects root now names found w result.1 w') w := by
  induction names generalizing s w found with
  | nil =>
    refine ⟨⟨littered, .refl _⟩, ?_, ?_⟩
    · rintro keys ⟨⟩ key mem
      exact .inl mem
    · rintro keys ⟨⟩
      exact ⟨fun _ mem => mem, nofun⟩
  | cons name rest ih =>
    rw [listFiles]
    split
    · -- a file of another name holds no lease
      rename_i other
      refine (ih s littered found early).mono fun result w' collects => ?_
      refine collects.pass ⟨littered, .refl _⟩ fun named => ?_
      rw [named] at other
      cases other
    rw [ensures_bind]
    refine (read_amid s littered name).mono ?_
    rintro _ w₁ ⟨untouched, read⟩
    have keeps := untouched.keeps littered
    obtain ⟨same, later⟩ := untouched
    have early₁ := UInt64.le_trans early later
    have absent (none : w.directory.record? name = none) :
        isLeaseName name = true → ∀ key, name = fileName key → ¬ w₁.shelf.Live key := by
      rintro _ key rfl
      exact not_live_of_absent (by rw [same, none])
    rcases read with rfl | ⟨⟨e, rfl⟩, none⟩
    · cases there : w.directory.record? name with
      | none =>
        refine (ih s keeps.littered found early₁).mono fun result w' collects => ?_
        exact collects.pass keeps (absent there)
      | some r =>
        obtain ⟨_, rfl, _⟩ := littered.present there
        have entry := World.stored_eq_some.2 ⟨r, there, rfl⟩
        cases live : r.isLive now with
        | true =>
          simp only [live, if_true]
          refine (ih s keeps.littered _ early₁).mono fun result w' collects => ?_
          refine collects.cons keeps (fun _ mem => List.mem_append_left _ mem) ?_ ?_
          · intro key mem
            refine (List.mem_append.1 mem).imp_right fun mem => ?_
            split at mem
            · rename_i begins
              cases List.mem_singleton.1 mem
              exact ⟨begins, _, entry, World.isLive_iff.1 live⟩
            · cases mem
          · intro key same _ begins _
            cases fileName_injective same
            rw [if_pos begins]
            exact List.mem_append_right _ List.mem_cons_self
        | false =>
          simp only [live, Bool.false_eq_true, if_false, ensures_bind]
          have ended : r.isLive w₁.clock = false := World.ended_of_le early₁ live
          refine (evict_amid s keeps.littered (by rw [same, there]) ended).mono ?_
          rintro ⟨_, s'⟩ w₂ ⟨rfl, keeps', gone⟩
          have early₂ := UInt64.le_trans early₁ (clock_le_of_ages keeps'.ages)
          refine (ih s' keeps'.littered found early₂).mono fun result w' collects => ?_
          refine collects.pass (keeps.trans keeps') fun _ key same => ?_
          cases fileName_injective same
          exact not_live_of_absent gone
    · cases e with
      | corrupt _ =>
        refine (ih s keeps.littered found early₁).mono fun result w' collects => ?_
        exact collects.pass keeps (absent none)
      | _ => exact .of_error keeps

structure AnsweredAmid (w : World) (call : Store.Call) (reply : call.Reply) (w' : World) :
    Prop where
  littered : w'.directory.Littered
  conforms : w.shelf.Conforms span call reply w'.shelf

theorem Keeps.of_error {call : Store.Call} {cause : StoreError} (h : Keeps w w') :
    AnsweredAmid w call (.error cause) w' := ⟨h.littered, .of_error h.ages⟩

theorem list_amid (s : FileStore) (littered : w.directory.Littered) (root : String) :
    Ensures Serves (s.list root)
      (fun result w' => AnsweredAmid w (.list root) result.1 w') w := by
  rw [list, ensures_bind]
  apply ensures_now
  intro now since
  rw [ensures_bind]
  apply ensures_names
  intro clock names later perm
  have keeps : Keeps w ⟨w.directory, clock⟩ :=
    Untouched.keeps ⟨rfl, UInt64.le_trans since later⟩ littered
  simp only [ensures_bind]
  refine (listFiles_amid (w := ⟨w.directory, clock⟩) s littered root now names [] later).mono ?_
  rintro ⟨cause | keys, s'⟩ w' collects
  · exact (keeps.trans collects.keeps).of_error
  · have kept := keeps.trans collects.keeps
    refine ⟨kept.littered, kept.ages, fun key mem => ?_, fun key filled begins live => ?_⟩
    · rw [List.mem_mergeSort] at mem
      rcases collects.listed keys rfl key mem with mem | ⟨begins, e, there, before⟩
      · cases mem
      · have since : (w.clock.toNat : Int) ≤ now.toNat :=
          Int.ofNat_le.2 (UInt64.le_iff_toNat_le.1 since)
        exact ⟨begins, e, keeps.ages.old trivial there, Int.lt_of_le_of_lt since before⟩
    · rw [List.mem_mergeSort]
      have named := isLeaseName_fileName filled
      obtain ⟨r, there, _⟩ := World.live_shelf.1 (kept.ages.live trivial live)
      have mem : fileName key ∈ w.directory.keys :=
        Table.mem_keys.2 ⟨_, (littered.present there).1⟩
      exact (collects.complete keys rfl).2 key (perm.mem_iff.2 mem) named begins live

theorem has_amid (s : FileStore) (littered : w.directory.Littered) (key : String) :
    Ensures Serves (s.has key) (fun result w' => AnsweredAmid w (.has key) result.1 w') w := by
  rw [has, ensures_bind]
  refine (readLive_amid s littered key).mono ?_
  rintro ⟨result, s'⟩ w' ⟨keeps, looked⟩
  rcases result with e | none | r
  · exact keeps.of_error
  · exact ⟨keeps.littered, keeps.ages, looked⟩
  · exact ⟨keeps.littered, keeps.ages, World.live_shelf.2 ⟨r, looked.2⟩⟩

theorem get_amid (s : FileStore) (littered : w.directory.Littered) (key : String) :
    Ensures Serves (s.get key) (fun result w' => AnsweredAmid w (.get key) result.1 w') w := by
  rw [get, ensures_bind]
  refine (readLive_amid s littered key).mono ?_
  rintro ⟨result, s'⟩ w' ⟨keeps, looked⟩
  rcases result with e | none | r
  · exact keeps.of_error
  · exact ⟨keeps.littered, keeps.ages, looked⟩
  · obtain ⟨_, there, live⟩ := looked
    exact ⟨keeps.littered, keeps.ages, _, World.stored_eq_some.2 ⟨r, there, rfl⟩,
      World.isLive_iff.1 live, rfl⟩

theorem write_amid (s : FileStore) (littered : w.directory.Littered) (r : Record) :
    Ensures Serves (s.write r) (fun result w' => match result.1 with
      | .ok () => w'.directory.Littered ∧ w.shelf.Ages (Shelf.others r.key) w'.shelf ∧
          w'.shelf.entries r.key = some ⟨r.value, r.expiresAt.toNat⟩
      | .error _ => Keeps w w') w := by
  refine (write_beside s (littered.clean s) r (littered.noFolder _)).mono ?_
  rintro ⟨result, s'⟩ w' ⟨later, ⟨⟨rfl, fits⟩, written⟩ | ⟨⟨⟨e, rfl⟩, _⟩, same⟩⟩
  · exact ⟨written ▸ littered.insert fits (.record r rfl), written_ages later written⟩
  · exact Untouched.keeps ⟨same, later⟩ littered

theorem set_amid (s : FileStore) (littered : w.directory.Littered) (key value : String)
    (ttl : Duration) : Ensures Serves (s.set key value ttl)
      (fun result w' => AnsweredAmid w (.set key value ttl) result.1 w') w := by
  rw [set, ensures_bind]
  refine (deadline_ensures ttl).mono ?_
  rintro result w₁ ⟨untouched, counted, low, high, ends⟩
  have keeps := untouched.keeps littered
  cases result with
  | error cause => exact keeps.of_error
  | ok expiresAt =>
    refine (write_amid s keeps.littered ⟨key, value, expiresAt⟩).mono ?_
    rintro ⟨cause | _, s'⟩ w' wrote
    · exact (keeps.trans wrote).of_error
    · obtain ⟨littered', ages, entry⟩ := wrote
      refine ⟨littered', keeps.ages.weaken.trans ages, counted, low, ?_, ?_⟩
      · exact Int.le_trans high ages.later
      · rw [← ends]
        exact entry

theorem refresh_amid (s : FileStore) (littered : w.directory.Littered) (key : String)
    (ttl : Duration) : Ensures Serves (s.refresh key ttl)
      (fun result w' => AnsweredAmid w (.refresh key ttl) result.1 w') w := by
  rw [refresh, ensures_bind]
  refine (deadline_ensures ttl).mono ?_
  rintro result w₁ ⟨untouched, counted, low, high, ends⟩
  have keeps₁ := untouched.keeps littered
  cases result with
  | error cause => exact keeps₁.of_error
  | ok expiresAt =>
    simp only [ensures_bind]
    refine (readLive_amid s keeps₁.littered key).mono ?_
    rintro ⟨cause | _ | r, s'⟩ w₂ ⟨keeps₂, looked⟩
    · exact (keeps₁.trans keeps₂).of_error
    · exact ⟨keeps₂.littered, (keeps₁.trans keeps₂).ages, looked⟩
    · obtain ⟨same, there, live⟩ := looked
      obtain ⟨_, named, _⟩ := keeps₁.littered.present there
      cases fileName_injective named
      have entry := keeps₁.ages.old trivial (World.stored_eq_some.2 ⟨r, there, rfl⟩)
      simp only [ensures_bind]
      refine (write_amid s' keeps₂.littered { r with expiresAt }).mono ?_
      rintro ⟨cause | _, s''⟩ w' wrote
      · exact ((keeps₁.trans keeps₂).trans wrote).of_error
      · obtain ⟨littered', ages, written⟩ := wrote
        refine ⟨littered', (keeps₁.trans keeps₂).ages.weaken.trans ages, _, entry, ?_, counted, low,
          ?_, ?_⟩
        · exact Int.lt_of_le_of_lt keeps₁.ages.later (World.isLive_iff.1 live)
        · exact Int.le_trans high (Int.le_trans keeps₂.ages.later ages.later)
        · rw [← ends]
          exact written

theorem delete_amid (s : FileStore) (littered : w.directory.Littered) (key : String) :
    Ensures Serves (s.delete key) (fun result w' => AnsweredAmid w (.delete key) result.1 w' ∧
      ∀ cause, result.1 = .error cause → w.shelf.entries key = none) w := by
  rw [delete, ensures_bind]
  refine (readLive_amid s littered key).mono ?_
  rintro ⟨cause | _ | r, s'⟩ w₁ ⟨keeps, looked⟩
  · exact ⟨keeps.of_error, fun _ _ => congrArg (Option.map _) looked⟩
  · exact ⟨⟨keeps.littered, keeps.ages, looked⟩, by rintro _ ⟨⟩⟩
  · obtain ⟨same, there, live⟩ := looked
    obtain ⟨here, _, fits⟩ := keeps.littered.present (same ▸ there)
    simp only [ensures_bind]
    refine (removeIfPresent_ensures fits here).mono ?_
    rintro _ w' ⟨rfl, gone, later⟩
    have absent : w'.directory.record? (fileName key) = none := by
      rw [gone, Directory.record?_erase, if_pos rfl]
    refine ⟨⟨gone ▸ keeps.littered.erase _, ?_, World.live_shelf.2 ⟨r, there, live⟩,
      congrArg (Option.map _) absent⟩, by rintro _ ⟨⟩⟩
    exact keeps.ages.weaken.trans (erase_ages later gone)

theorem answer_amid (s : FileStore) (littered : w.directory.Littered) (call : Store.Call) :
    Ensures Serves (s.answer call) (fun result w' => AnsweredAmid w call result.1 w') w := by
  cases call with
  | list root => exact list_amid s littered root
  | has key => exact has_amid s littered key
  | get key => exact get_amid s littered key
  | set key value ttl => exact set_amid s littered key value ttl
  | refresh key ttl => exact refresh_amid s littered key ttl
  | delete key => exact (delete_amid s littered key).mono fun _ _ h => h.1

end FileStore

end SlotLease
