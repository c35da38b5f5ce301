import SlotLease.Proofs.Store.Session

/-!
Calls that fail. The directory may refuse any request, its clock may show anything, and besides
lease files it may hold what others have put there. A call that fails has dropped nothing but
records that had ended, and it leaves a temporary file behind only where the directory refused to
clear it away.
-/

namespace SlotLease

open Interaction

open FileStore (ending fileName)

namespace FileStore

open Files

variable {w w' w'' : Session} {name key : String} {r : Record} {s : FileStore}

theorem read_responds (s : FileStore) (name : String) :
    Ensures Responds (s.read name) (fun result w' => Idle w w' ∧
      ∀ r, result = .ok (some r) → w.directory.record? name = some r) w := by
  rw [FileStore.read, ensures_bind]
  apply Session.ensures_read
  · intro cause
    cases cause <;> exact ⟨idle_refuse .., by rintro _ ⟨⟩⟩
  · cases whole : w.directory.read name with
    | error cause => cases cause <;> exact ⟨.refl w, by rintro _ ⟨⟩⟩
    | ok content =>
      rw [Directory.record?_of_read whole]
      cases decoded : Record.decode? content with
      | none =>
        simp only [decoded]
        exact ⟨.refl w, by rintro _ ⟨⟩⟩
      | some r =>
        simp only [decoded]
        exact ⟨.refl w, by rintro _ ⟨⟩; rfl⟩

theorem isLiveAside_responds (s : FileStore) (aside : String) :
    Ensures Responds (s.isLiveAside aside) (fun _ w' => Idle w w') w := by
  rw [isLiveAside, ensures_bind]
  refine (read_responds s aside).mono ?_
  rintro result w₁ ⟨idle, -⟩
  rcases result with _ | _ | r
  · exact idle
  · exact idle
  · simp only [ensures_bind]
    exact Session.ensures_now fun clock => idle.trans (idle_see w₁ clock)

theorem removeIfPresent_responds (name : String) :
    Ensures Responds (removeIfPresent name) (fun result w' =>
      w' = w.refuse (.remove name) ∨ w' = w ∧ (w.directory.remove name).1 ≠ .ok () ∨
        result = .ok () ∧ w' = { w with directory := w.directory.erase name }) w := by
  rw [removeIfPresent, ensures_bind]
  apply Session.ensures_remove
  · intro cause
    cases cause <;> exact .inl rfl
  · rcases removed : w.directory.remove name with ⟨reply, d⟩
    rcases Directory.remove_cases removed with ⟨⟨cause, rfl⟩, rfl⟩ | ⟨rfl, rfl⟩
    · cases cause <;> exact .inr (.inl ⟨rfl, by rintro ⟨⟩⟩)
    · exact .inr (.inr ⟨rfl, rfl⟩)

def Evicts (s : FileStore) (name : String) (w : Session) (result : Except StoreError Unit)
    (w' : Session) : Prop :=
  Confined s name w w' ∧
    (Table.get? w'.directory name = Table.get? w.directory name ∨
      Table.get? w'.directory name = none ∧ (result = .ok () ∨ Stuck w'.refused s.temporary))

theorem Idle.evicts {result : Except StoreError Unit} (h : Idle w w') :
    Evicts s name w result w' := ⟨h.confined, .inl (by rw [h.same])⟩

section Aside

variable {content : ByteArray}

theorem Aside.refuse (h : Aside s name content w w') (r : Request) :
    Aside s name content w (w'.refuse r) :=
  ⟨h.onward.trans (w'.onward_refuse r), h.elsewhere, h.file, h.before, h.here⟩

theorem Aside.here' (h : Aside s name content w w') :
    Table.get? w'.directory name = none ∨
      Table.get? w'.directory name = Table.get? w.directory name := by
  rw [h.before]
  exact h.here

theorem moved_aside (other : name ≠ s.temporary)
    (before : Table.get? w.directory name = some (.file content)) :
    Aside s name content w
      ⟨Table.insert (Table.erase w.directory name) s.temporary (.file content), w.shown,
        w.refused⟩ where
  onward := ⟨List.Subset.refl _, List.Subset.refl _⟩
  elsewhere := fun _ here aside => by
    rw [Table.get?_insert, if_neg aside.symm, Table.get?_erase, if_neg here.symm]
  file := by rw [Table.get?_insert, if_pos rfl]
  before := before
  here := .inl (by rw [Table.get?_insert, if_neg other.symm, Table.get?_erase, if_pos rfl])

theorem Aside.after_idle (h : Aside s name content w w') (idle : Idle w' w'') :
    Aside s name content w w'' := by
  obtain ⟨onward, elsewhere, file, before, here⟩ := h
  rw [← idle.same] at elsewhere file here
  exact ⟨onward.trans idle.onward, elsewhere, file, before, here⟩

theorem Aside.linked (h : Aside s name content w w') (other : name ≠ s.temporary) :
    Aside s name content w
      { w' with directory := Table.insert w'.directory name (.file content) } where
  onward := ⟨h.onward.shown, h.onward.refused⟩
  elsewhere := fun other' here aside => by
    rw [Table.get?_insert, if_neg here.symm]
    exact h.elsewhere other' here aside
  file := by rw [Table.get?_insert, if_neg other, h.file]
  before := h.before
  here := .inr (by rw [Table.get?_insert, if_pos rfl])

theorem Aside.cleared (h : Aside s name content w w') (other : name ≠ s.temporary)
    (s' : FileStore) :
    Ensures Responds (do return (← removeIfPresent s.temporary, s'))
      (fun result w'' => Evicts s name w result.1 w'') w' := by
  rw [ensures_bind]
  refine (removeIfPresent_responds s.temporary).mono ?_
  rintro result _ (rfl | ⟨-, absent⟩ | ⟨rfl, rfl⟩)
  · have stuck : Stuck (w'.refuse (.remove s.temporary)).refused s.temporary :=
      .inl (w'.mem_refuse _)
    exact ⟨⟨h.onward.trans (w'.onward_refuse _), h.elsewhere, .inr (.inr stuck)⟩,
      h.here'.symm.imp_right fun gone => ⟨gone, .inr stuck⟩⟩
  · rw [Directory.remove_present s.nameFits_temporary h.file] at absent
    exact absurd rfl absent
  · refine ⟨⟨⟨h.onward.shown, h.onward.refused⟩, fun other' here aside => ?_, .inl ?_⟩, ?_⟩
    · rw [Table.get?_erase, if_neg aside.symm]
      exact h.elsewhere other' here aside
    · rw [Table.get?_erase, if_pos rfl]
    · rw [Table.get?_erase, if_neg other.symm]
      exact h.here'.symm.imp_right fun gone => ⟨gone, .inl rfl⟩

theorem Aside.back (h : Aside s name content w w') (other : name ≠ s.temporary)
    (gone : Table.get? w'.directory name = none) (fits : Directory.nameFits name = true)
    (refused : .link s.temporary name ∈ w'.refused) (s' : FileStore) :
    Ensures Responds (do return (ofFile (← Files.rename s.temporary name), s'))
      (fun result w'' => Evicts s name w result.1 w'') w' := by
  rw [ensures_bind]
  apply Session.ensures_rename
  · intro cause
    have stuck : Stuck (w'.refuse (.rename s.temporary name)).refused s.temporary :=
      .inr ⟨name, (w'.onward_refuse _).refused refused, w'.mem_refuse _⟩
    exact ⟨⟨h.onward.trans (w'.onward_refuse _), h.elsewhere, .inr (.inr stuck)⟩,
      .inr ⟨gone, .inr stuck⟩⟩
  · rw [Directory.rename_present s.nameFits_temporary fits h.file (by simp [gone])]
    refine ⟨⟨⟨h.onward.shown, h.onward.refused⟩, fun other' here aside => ?_, .inl ?_⟩, .inl ?_⟩
    · rw [Table.get?_insert, if_neg here.symm, Table.get?_erase, if_neg aside.symm]
      exact h.elsewhere other' here aside
    · rw [Table.get?_insert, if_neg other, Table.get?_erase, if_pos rfl]
    · rw [Table.get?_insert, if_pos rfl, h.before]

end Aside

theorem evict_responds (s : FileStore) (other : name ≠ s.temporary)
    (found : w.directory.record? name = some r) :
    Ensures Responds (s.evict name) (fun result w' => Evicts s name w result.1 w') w := by
  obtain ⟨content, before⟩ := Directory.get?_of_record? found
  -- from the renaming on the content is aside, until it is removed or has its name back
  rw [evict, ensures_bind]
  apply Session.ensures_rename
  · intro cause
    cases cause <;> exact (idle_refuse ..).evicts
  rcases renamed : w.directory.rename name s.temporary with ⟨reply, d⟩
  rcases Directory.rename_cases renamed with ⟨⟨cause, rfl⟩, rfl⟩ | ⟨rfl, fits, node, there, rfl⟩
  · cases cause <;> exact (Idle.refl w).evicts
  rw [before] at there
  cases there
  simp only [ensures_bind]
  refine (isLiveAside_responds _ _).mono ?_
  intro live w₁ idle
  have moved : Aside s name content w w₁ := (moved_aside other before).after_idle idle
  cases live with
  | false =>
    rw [if_neg (by decide)]
    exact moved.cleared other _
  | true =>
    have gone : Table.get? w₁.directory name = none := by
      rw [idle.same, Table.get?_insert, if_neg other.symm, Table.get?_erase, if_pos rfl]
    rw [if_pos rfl, ensures_bind]
    apply Session.ensures_link
    · intro cause
      have back := (moved.refuse (.link s.temporary name)).back other gone fits
        (w₁.mem_refuse _) s.afterTemporary
      cases cause with
      -- a refusal that tells of another entry of the name is believed
      | alreadyExists => exact (moved.refuse _).cleared other _
      | _ => exact back
    · rcases Directory.link_present s.nameFits_temporary fits moved.file with
        ⟨_, linked⟩ | ⟨⟨node, taken⟩, _⟩
      · rw [linked]
        exact (moved.linked other).cleared other _
      · cases gone.symm.trans taken

structure Lands (w : Session) (result : Except StoreError α) (w' : Session) : Prop where
  tidy : Tidy w w'
  edits : w.directory.Edits w'.directory
  drops : ∀ cause, result = .error cause → w.directory.Drops w'.shown w'.directory
  kept : ∀ cause, result = .error cause → Unstuck w'.refused → w.directory.Kept w'.directory

theorem Idle.lands {result : Except StoreError α} (h : Idle w w') : Lands w result w' where
  tidy := h.tidy
  edits := h.kept.edits
  drops := fun _ _ => h.kept.drops
  kept := fun _ _ _ => h.kept

theorem Lands.after_idle {result : Except StoreError α} (h' : Lands w' result w'')
    (h : Idle w w') : Lands w result w'' := by
  obtain ⟨tidy, edits, drops, kept⟩ := h'
  rw [h.same] at edits drops kept
  exact ⟨h.tidy.trans tidy, edits, drops, kept⟩

theorem Lands.imp {result : Except StoreError α} {result' : Except StoreError β}
    (h : Lands w result w') (only : ∀ cause, result' = .error cause → result = .error cause) :
    Lands w result' w' :=
  ⟨h.tidy, h.edits, fun cause failed => h.drops cause (only cause failed),
    fun cause failed => h.kept cause (only cause failed)⟩

theorem Lands.ok {result : Except StoreError α} (h : Lands w result w') (value : β) :
    Lands w (.ok value : Except StoreError β) w' := ⟨h.tidy, h.edits, nofun, nofun⟩

theorem Lands.error (h : Lands w (.error cause : Except StoreError α) w') :
    Lands w (.error cause : Except StoreError β) w' := h.imp (by rintro _ ⟨⟩; rfl)

theorem Lands.map {result : Except StoreError α} (h : Lands w result w') (f : α → β) :
    Lands w (result.map f) w' :=
  h.imp (by cases result <;> rintro _ ⟨⟩; rfl)

theorem Evicts.drops {result : Except StoreError Unit} (h : Evicts s name w result w')
    (named : ending.toList.isSuffixOf name.toList = true)
    (found : w.directory.record? name = some r) (mem : clock ∈ w.shown)
    (ended : r.isLive clock = false) : w.directory.Drops w'.shown w'.directory := by
  obtain ⟨confined, here | ⟨gone, -⟩⟩ := h
  · exact (confined.kept here).drops
  · exact confined.drops ⟨gone, named, r, found, clock, confined.onward.shown mem, ended⟩

theorem Evicts.lands {result : Except StoreError Unit} (h : Evicts s name w result w')
    (named : ending.toList.isSuffixOf name.toList = true)
    (found : w.directory.record? name = some r) (mem : clock ∈ w.shown)
    (ended : r.isLive clock = false) : Lands w result w' where
  tidy := h.1.tidy (lasting_of_ending named)
  edits := (h.drops named found mem ended).edits
  drops := fun _ _ => h.drops named found mem ended
  kept := by
    rintro cause rfl free
    rcases h.2 with here | ⟨_, done | stuck⟩
    · exact h.1.kept here
    · cases done
    · exact absurd stuck (free s)

theorem readLive_responds (s : FileStore) (key : String) :
    Ensures Responds (s.readLive key) (fun result w' => Lands w result.1 w' ∧
      ∀ r, result.1 = .ok (some r) → Idle w w') w := by
  rw [readLive, ensures_bind]
  refine (read_responds s (fileName key)).mono ?_
  rintro (cause | _ | r) w₁ ⟨idle, found⟩
  · exact ⟨idle.lands, fun _ _ => idle⟩
  · exact ⟨idle.lands, fun _ _ => idle⟩
  · have found := idle.same ▸ found r rfl
    simp only [ensures_bind]
    apply Session.ensures_now
    intro clock
    have idle := idle.trans (idle_see w₁ clock)
    cases live : r.isLive clock with
    | true =>
      rw [if_pos rfl]
      exact ⟨idle.lands, fun _ _ => idle⟩
    | false =>
      rw [if_neg (by decide), ensures_bind]
      refine (evict_responds (w := w₁.see clock) s (lasting_fileName key s) found).mono ?_
      rintro ⟨result, s'⟩ w' evicts
      have lands := (evicts.lands (ending_fileName key) found (by simp [Session.see])
        live).after_idle idle
      cases result with
      | ok _ => exact ⟨lands.ok none, nofun⟩
      | error cause => exact ⟨lands.error, nofun⟩

theorem removeIfPresent_lands (lasting : Lasting name) :
    Ensures Responds (removeIfPresent name) (fun result w' => Lands w result w') w := by
  refine (removeIfPresent_responds name).mono ?_
  rintro result _ (rfl | ⟨rfl, -⟩ | ⟨rfl, rfl⟩)
  · exact (idle_refuse ..).lands
  · exact (Idle.refl _).lands
  · refine ⟨⟨⟨List.Subset.refl _, List.Subset.refl _⟩, fun s => ?_⟩, fun other _ => ?_, nofun,
      nofun⟩
    · rw [Table.get?_erase, if_neg (lasting s)]
      exact .inr (.inl rfl)
    · by_cases same : name = other
      · exact .goes (by rw [Table.get?_erase, if_pos same])
      · exact .stays (by rw [Table.get?_erase, if_neg same])

theorem Confined.lands {result : Except StoreError α} (h : Confined s name w w')
    (lasting : Lasting name)
    (here : Table.get? w'.directory name = Table.get? w.directory name) : Lands w result w' where
  tidy := h.tidy lasting
  edits := h.edits (.stays here)
  drops := fun _ _ => (h.kept here).drops
  kept := fun _ _ _ => h.kept here

theorem unwritten (s s' : FileStore) (cause : StoreError) {content : ByteArray}
    (lasting : Lasting name) (onward : w.Onward w')
    (written : w'.directory = Table.insert w.directory s.temporary (.file content)) :
    Ensures Responds (do let _ ← Files.remove s.temporary; return (.error cause, s'))
      (fun (result : Except StoreError Unit × FileStore) w'' => Lands w result.1 w'') w' := by
  have elsewhere (other : String) (aside : other ≠ s.temporary) :
      Table.get? w'.directory other = Table.get? w.directory other := by
    rw [written, Table.get?_insert, if_neg aside.symm]
  have file : Table.get? w'.directory s.temporary = some (.file content) := by
    rw [written, Table.get?_insert, if_pos rfl]
  rw [ensures_bind]
  apply Session.ensures_remove
  · intro cause
    have stuck : Stuck (w'.refuse (.remove s.temporary)).refused s.temporary :=
      .inl (w'.mem_refuse _)
    exact Confined.lands ⟨onward.trans (w'.onward_refuse _), fun other _ => elsewhere other,
      .inr (.inr stuck)⟩ lasting (elsewhere name (lasting s))
  · rw [Directory.remove_present s.nameFits_temporary file]
    refine Confined.lands (s := s) ⟨⟨onward.shown, onward.refused⟩, fun other _ aside => ?_,
      .inl ?_⟩ lasting ?_
    · rw [Table.get?_erase, if_neg aside.symm, elsewhere other aside]
    · rw [Table.get?_erase, if_pos rfl]
    · rw [Table.get?_erase, if_neg (lasting s).symm, elsewhere name (lasting s)]

theorem write_lands (s : FileStore) (r : Record) :
    Ensures Responds (s.write r) (fun result w' => Lands w result.1 w') w := by
  have lasting := lasting_fileName r.key
  rw [FileStore.write, ensures_bind]
  apply Session.ensures_write
  · exact fun _ => (idle_refuse ..).lands
  rcases wrote : w.directory.write s.temporary r.encode with ⟨reply, d⟩
  rcases Directory.write_cases wrote with ⟨⟨cause, rfl⟩, rfl⟩ | ⟨rfl, rfl⟩
  · exact (Idle.refl w).lands
  simp only [ensures_bind]
  apply Session.ensures_rename
  · exact fun cause => unwritten s _ (.io cause) lasting
      ⟨List.Subset.refl _, List.subset_append_left _ _⟩ rfl
  rcases renamed : Directory.rename (Table.insert w.directory s.temporary (.file r.encode))
    s.temporary (fileName r.key) with ⟨reply, d⟩
  rcases Directory.rename_cases renamed with ⟨⟨cause, rfl⟩, rfl⟩ | ⟨rfl, -, node, there, rfl⟩
  · exact unwritten s _ (.io cause) lasting ⟨List.Subset.refl _, List.Subset.refl _⟩ rfl
  · rw [Table.get?_insert, if_pos rfl] at there
    cases there
    have fits := (Directory.nameFits_of_rename (congrArg Prod.fst renamed)).2
    have confined : Confined s (fileName r.key) w
        ⟨Table.insert (Table.erase (Table.insert w.directory s.temporary (.file r.encode))
          s.temporary) (fileName r.key) (.file r.encode), w.shown, w.refused⟩ := by
      refine ⟨⟨List.Subset.refl _, List.Subset.refl _⟩, fun other here aside => ?_, .inl ?_⟩
      · rw [Table.get?_insert, if_neg here.symm, Table.get?_erase, if_neg aside.symm,
          Table.get?_insert, if_neg aside.symm]
      · rw [Table.get?_insert, if_neg (lasting s), Table.get?_erase, if_pos rfl]
    exact ⟨confined.tidy lasting, confined.edits (.put r rfl fits (by simp)), nofun, nofun⟩

theorem deadline_responds (ttl : Duration) :
    Ensures Responds (deadline ttl) (fun _ w' => Idle w w') w := by
  rw [deadline]
  split
  · exact .refl w
  · rw [ensures_bind]
    apply Session.ensures_now
    intro clock
    split <;> exact idle_see w clock

structure Thins (w w' : Session) : Prop where
  tidy : Tidy w w'
  drops : w.directory.Drops w'.shown w'.directory

theorem Idle.thins (h : Idle w w') : Thins w w' := ⟨h.tidy, h.kept.drops⟩

theorem Thins.trans (h : Thins w w') (h' : Thins w' w'') : Thins w w'' :=
  ⟨h.tidy.trans h'.tidy, (h.drops.mono h'.tidy.onward.shown).trans h'.drops⟩

theorem listFiles_responds (s : FileStore) (root : String) (now : UInt64) (mem : now ∈ w.shown)
    (names found : List String) :
    Ensures Responds (s.listFiles root now names found) (fun _ w' => Thins w w') w := by
  induction names generalizing s w found with
  | nil => exact (Idle.refl w).thins
  | cons name rest ih =>
    rw [listFiles]
    split
    · exact ih s mem found
    · rename_i named
      have named : ending.toList.isSuffixOf name.toList = true := by
        simp only [isLeaseName, Bool.not_eq_true', Bool.not_eq_false, Bool.and_eq_true] at named
        exact named.1
      rw [ensures_bind]
      refine (read_responds s name).mono ?_
      rintro result w₁ ⟨idle, there⟩
      -- a listing goes on with another handle and a directory that is as before or thinner
      have onward {s' : FileStore} {w₂ : Session} (thins : Thins w w₂) (more : List String) :
          Ensures Responds (s'.listFiles root now rest more) (fun _ w' => Thins w w') w₂ :=
        (ih s' (thins.tidy.onward.shown mem) more).mono fun _ _ => thins.trans
      rcases result with cause | _ | r
      · cases cause with
        | corrupt => exact onward idle.thins found
        | unavailable | io | ttlOutOfRange => exact idle.thins
      · exact onward idle.thins found
      · cases live : r.isLive now with
        | true =>
          simp only [live, if_true]
          exact onward idle.thins _
        | false =>
          simp only [live, Bool.false_eq_true, if_false, ensures_bind]
          refine (evict_responds s (lasting_of_ending named s)
            (idle.same ▸ there r rfl)).mono ?_
          rintro ⟨result, s'⟩ w₂ evicts
          have lands := evicts.lands named (idle.same ▸ there r rfl) (idle.onward.shown mem) live
          have thins : Thins w w₂ := idle.thins.trans ⟨lands.tidy,
            evicts.drops named (idle.same ▸ there r rfl) (idle.onward.shown mem) live⟩
          cases result with
          | error cause => exact thins
          | ok _ => exact onward thins found

structure Settled (w : Session) (call : Store.Call) (reply : call.Reply) (w' : Session) :
    Prop where
  tidy : Tidy w w'
  edits : w.directory.Edits w'.directory
  drops : ∀ cause, reply = .error cause → w.directory.Drops w'.shown w'.directory
  kept : ∀ cause, reply = .error cause → (∀ root, call ≠ .list root) → Unstuck w'.refused →
    w.directory.Kept w'.directory

theorem Lands.settled (call : Store.Call) {reply : call.Reply} (h : Lands w reply w') :
    Settled w call reply w' :=
  ⟨h.tidy, h.edits, h.drops, fun cause failed _ => h.kept cause failed⟩

theorem list_settles (s : FileStore) (root : String) :
    Ensures Responds (s.list root) (fun result w' => Settled w (.list root) result.1 w') w := by
  rw [list, ensures_bind]
  apply Session.ensures_now
  intro now
  have idle := idle_see w now
  rw [ensures_bind]
  apply Session.ensures_names
  · exact fun _ => (idle.trans (idle_refuse ..)).lands.settled (.list root)
  intro names
  simp only [ensures_bind]
  refine (listFiles_responds s root now (by simp [Session.see]) names []).mono ?_
  rintro ⟨result, s'⟩ w' thins
  have thins := idle.thins.trans thins
  cases result with
  | ok found => exact ⟨thins.tidy, thins.drops.edits, nofun, nofun⟩
  | error cause =>
    exact ⟨thins.tidy, thins.drops.edits, fun _ _ => thins.drops,
      fun _ _ other => absurd rfl (other _)⟩

theorem has_lands (s : FileStore) (key : String) :
    Ensures Responds (s.has key) (fun result w' => Lands w result.1 w') w := by
  rw [has, ensures_bind]
  exact (readLive_responds s key).mono fun _ _ found => found.1.map _

theorem get_lands (s : FileStore) (key : String) :
    Ensures Responds (s.get key) (fun result w' => Lands w result.1 w') w := by
  rw [get, ensures_bind]
  exact (readLive_responds s key).mono fun _ _ found => found.1.map _

theorem set_lands (s : FileStore) (key value : String) (ttl : Duration) :
    Ensures Responds (s.set key value ttl) (fun result w' => Lands w result.1 w') w := by
  rw [set, ensures_bind]
  refine (deadline_responds ttl).mono ?_
  rintro (cause | expiresAt) w₁ idle
  · exact idle.lands
  · exact (write_lands s _).mono fun _ _ lands => lands.after_idle idle

theorem refresh_lands (s : FileStore) (key : String) (ttl : Duration) :
    Ensures Responds (s.refresh key ttl) (fun result w' => Lands w result.1 w') w := by
  rw [refresh, ensures_bind]
  refine (deadline_responds ttl).mono ?_
  rintro (cause | expiresAt) w₁ idle
  · exact idle.lands
  · simp only [ensures_bind]
    refine (readLive_responds s key).mono ?_
    rintro ⟨cause | _ | r, s'⟩ w₂ ⟨lands, found⟩
    · exact lands.error.after_idle idle
    · exact (lands.ok false).after_idle idle
    · simp only [ensures_bind]
      refine (write_lands s' _).mono fun _ _ lands => ?_
      exact (lands.map _).after_idle (idle.trans (found r rfl))

theorem delete_lands (s : FileStore) (key : String) :
    Ensures Responds (s.delete key) (fun result w' => Lands w result.1 w') w := by
  rw [delete, ensures_bind]
  refine (readLive_responds s key).mono ?_
  rintro ⟨cause | _ | r, s'⟩ w₁ ⟨lands, found⟩
  · exact lands.error
  · exact lands.ok false
  · simp only [ensures_bind]
    refine (removeIfPresent_lands (lasting_fileName key)).mono fun _ _ lands => ?_
    exact (lands.map _).after_idle (found r rfl)

theorem answer_settles (s : FileStore) (call : Store.Call) :
    Ensures Responds (s.answer call) (fun result w' => Settled w call result.1 w') w := by
  cases call with
  | list root => exact list_settles s root
  | has key => exact (has_lands s key).mono fun _ _ => Lands.settled (.has key)
  | get key => exact (get_lands s key).mono fun _ _ => Lands.settled (.get key)
  | set key value ttl =>
    exact (set_lands s key value ttl).mono fun _ _ => Lands.settled (.set key value ttl)
  | refresh key ttl =>
    exact (refresh_lands s key ttl).mono fun _ _ => Lands.settled (.refresh key ttl)
  | delete key => exact (delete_lands s key).mono fun _ _ => Lands.settled (.delete key)

/-! ### Runs of calls -/

variable {d : Directory} {shown : List UInt64} {refused : List Request} {ttl : Duration}

theorem now_runs (clock : UInt64) : Runs Responds now ⟨d, shown, refused⟩ clock
    ⟨d, shown ++ [clock], refused⟩ := .ask .shows .done

theorem deadline_runs (clock : UInt64) (below : clock.toNat + ttl.millis < UInt64.size) :
    Runs Responds (deadline ttl) ⟨d, shown, refused⟩ (.ok (clock + ttl.millis.toUInt64))
      ⟨d, shown ++ [clock], refused⟩ := by
  rw [deadline, if_neg (by omega)]
  refine runs_bind (now_runs clock) ?_
  rw [if_neg (by omega)]
  exact .done

theorem write_temporary (s : FileStore) (clean : d.Clean) (content : ByteArray) :
    d.write s.temporary content = (.ok (), Table.insert d s.temporary (.file content)) :=
  Directory.write_free s.nameFits_temporary (by simp [clean s])

theorem write_runs (s : FileStore) (clean : d.Clean)
    (fits : Directory.nameFits (fileName r.key) = true)
    (file : ∀ number, Table.get? d (fileName r.key) ≠ some (.folder number)) :
    Runs Responds (s.write r) ⟨d, shown, refused⟩ (.ok (), s.afterTemporary)
      ⟨d.insert (fileName r.key) (.file r.encode), shown, refused⟩ := by
  have free := clean s
  have made : Table.get? (Table.insert d s.temporary (.file r.encode)) s.temporary =
      some (.file r.encode) := by simp
  have renamed := Directory.rename_present s.nameFits_temporary fits made fun number => by
    rw [Table.get?_insert, if_neg (s.temporary_ne_fileName _)]
    exact file number
  rw [Directory.erase_insert free] at renamed
  exact runs_bind (.ask (.answers nofun (write_temporary s clean r.encode)) .done)
    (runs_bind (.ask (.answers nofun renamed) .done) .done)

theorem set_runs (s : FileStore) (clean : d.Clean) {key : String} (value : String) (clock : UInt64)
    (below : clock.toNat + ttl.millis < UInt64.size) (short : key.utf8ByteSize ≤ 124)
    (file : ∀ number, Table.get? d (fileName key) ≠ some (.folder number)) :
    Runs Responds (s.set key value ttl) ⟨d, shown, refused⟩ (.ok (), s.afterTemporary)
      ⟨d.insert (fileName key) (.file (Record.encode ⟨key, value, clock + ttl.millis.toUInt64⟩)),
        shown ++ [clock], refused⟩ :=
  runs_bind (deadline_runs clock below)
    (write_runs s (r := ⟨key, value, clock + ttl.millis.toUInt64⟩) clean
      (nameFits_fileName.2 short) file)

end FileStore

namespace Files

/-- Directories that come of an empty one by calls and by entries that others make; the directory
may refuse any request but links and removals. -/
inductive Reached (foreign : String → Prop) : Directory → Prop
  | empty : Reached foreign ∅
  | enters : Reached foreign d → foreign name → Reached foreign (d.insert name node)
  | called : Reached foreign d →
      Runs Responds (FileStore.answer handle call) ⟨d, [], []⟩ (reply, handle')
        ⟨d', shown, refused⟩ →
      Lenient refused → Reached foreign d'

variable {d d' : Directory} {shown : List UInt64} {refused : List Request} {call : Store.Call}
  {cause : StoreError} {handle handle' : FileStore}

end Files

end SlotLease
