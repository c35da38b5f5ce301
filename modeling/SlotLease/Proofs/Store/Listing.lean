import SlotLease.Proofs.Store.Failure
import SlotLease.Proofs.Store.FilesMap

namespace SlotLease.Files

open Interaction

open FileStore (fileName isLeaseName)

inductive Glances (clock : UInt64) : Directory → Directory → Prop
  | stays : Glances clock d d
  | called (call : Store.Call) {reply : call.Reply} (u' : Directory) :
      Glances clock d u → call.written? = none →
      Runs Serves (FileStore.answer handle call) ⟨u, clock⟩ (reply, handle') ⟨u', clock⟩ →
      Glances clock d u'

/-- A reply that a call may get at an instant, before others that write nothing or after them. -/
def Replies (d : Directory) (clock : UInt64) (call : Store.Call) (reply : call.Reply) : Prop :=
  ∃ u u' handle handle', Glances clock d u ∧
    Runs Serves (FileStore.answer handle call) ⟨u, clock⟩ (reply, handle') ⟨u', clock⟩

structure Orderly (d : Directory) : Prop where
  sound : d.Sound
  fits : ∀ name node, Table.get? d name = some node → Directory.nameFits name = true

variable {d d' : Directory} {clock : UInt64} {key root : String}

theorem Orderly.clean (h : Orderly d) : d.Clean := fun s =>
  h.sound.absent (h.sound.record?_temporary s)

theorem Orderly.edits (h : Orderly d) (edits : d.Edits d') (clean : d'.Clean) : Orderly d' := by
  have entry (name : String) (node : Node) (found : Table.get? d' name = some node) :
      (∃ r : Record, node = .file r.encode ∧ name = fileName r.key) ∧
        Directory.nameFits name = true := by
    have lasting : Lasting name := by
      rintro s rfl
      cases found.symm.trans (clean s)
    cases edits name lasting with
    | stays same => exact ⟨h.sound _ _ (same ▸ found), h.fits _ _ (same ▸ found)⟩
    | goes gone => cases found.symm.trans gone
    | put r named fits there => exact ⟨⟨r, Option.some.inj (found.symm.trans there), named⟩, fits⟩
  exact ⟨fun name node found => (entry name node found).1,
    fun name node found => (entry name node found).2⟩

theorem Reached.orderly (reached : Reached (fun _ => False) d) : Orderly d := by
  induction reached with
  | empty => exact ⟨Directory.sound_empty, nofun⟩
  | enters _ foreign => exact foreign.elim
  | called _ run lenient ih =>
    have settled := run.ensured (FileStore.answer_settles _ _)
    exact ih.edits settled.edits (settled.tidy.clean ih.clean lenient.unstuck)

def Visible (d : Directory) (clock : UInt64) (key : String) : Prop :=
  ∃ e, (World.mk d clock).shelf.visible? clock.toNat key = some e

theorem visible_of_ages {kept : String → Prop} (mem : kept key)
    (ages : (World.mk d clock).shelf.Ages kept (World.mk d' clock).shelf) :
    Visible d' clock key ↔ Visible d clock key :=
  exists_congr fun _ => Eq.congr_left (ages.visible? mem)

theorem Glances.keeps (h : Glances clock d d') (orderly : Orderly d) :
    Orderly d' ∧ ∀ key, Visible d' clock key ↔ Visible d clock key := by
  induction h with
  | stays => exact ⟨orderly, fun _ => .rfl⟩
  | called call u' _ quiet run ih =>
    obtain ⟨orderly, same⟩ := ih
    have answered := run.ensured (FileStore.answer_ensures _ orderly.sound call)
    have ages := answered.conforms.ages
    rw [quiet] at ages
    refine ⟨⟨answered.sound, fun name node found => ?_⟩, fun key => ?_⟩
    · obtain ⟨r, rfl, rfl⟩ := answered.sound name node found
      have here : u'.record? (fileName r.key) = some r := by simp [Directory.record?, found]
      obtain ⟨r', before, _⟩ := World.stored_eq_some.1
        (ages.old (by rintro ⟨⟩) (World.stored_eq_some.2 ⟨r, here, rfl⟩))
      exact orderly.fits _ _ (orderly.sound.present before)
    · rw [← same key]
      exact visible_of_ages (by rintro ⟨⟩) ages

theorem exists_replies (d : Directory) (clock : UInt64) (call : Store.Call) :
    ∃ reply, Replies d clock call reply := by
  obtain ⟨⟨reply, handle'⟩, ⟨u', _⟩, run, rfl⟩ :=
    exists_serves ⟨d, clock⟩ (FileStore.answer ⟨"", 0, 0⟩ call)
  exact ⟨reply, d, u', _, handle', .stays, run⟩

theorem Replies.list {reply : (Store.Call.list root).Reply} (orderly : Orderly d)
    (replies : Replies d clock (.list root) reply) :
    ∃ keys, reply = .ok keys ∧ ∀ key, key ∈ keys ↔
      key ≠ "" ∧ root.toList.isPrefixOf key.toList = true ∧ Visible d clock key := by
  obtain ⟨u, u', handle, handle', glances, run⟩ := replies
  obtain ⟨orderly, same⟩ := glances.keeps orderly
  have scanned := run.ensured (FileStore.list_scans handle orderly.sound root)
  cases reply with
  | error cause =>
    obtain ⟨name, mem, long⟩ := scanned.failed cause rfl
    obtain ⟨node, found⟩ := Table.mem_keys.1 mem
    rw [orderly.fits name node found] at long
    cases long
  | ok keys =>
    obtain ⟨_, looked, since, upTo, listing⟩ := scanned.exact keys rfl
    cases UInt64.le_antisymm since upTo
    refine ⟨keys, rfl, fun key => ?_⟩
    rw [listing key, FileStore.isLeaseName_fileName_iff, ← same key]
    rfl

theorem live_iff_visible : (World.mk d clock).shelf.Live key ↔ Visible d clock key :=
  exists_congr fun _ => Shelf.visible?_eq_some.symm

theorem has_looks {w : World} (handle : FileStore) (sound : w.directory.Sound)
    (short : key.utf8ByteSize ≤ 124) :
    Ensures Serves (handle.has key) (fun result w' => w.shelf.Ages Shelf.all w'.shelf ∧
      ∃ present, result.1 = .ok present ∧
        if present then w.shelf.Live key else ¬ w'.shelf.Live key) w := by
  rw [FileStore.has, ensures_bind]
  refine (FileStore.readLive_ensures handle sound key).mono ?_
  rintro ⟨cause | _ | r, s'⟩ w' ⟨_, ages, looked⟩
  · cases (FileStore.nameFits_fileName.2 short).symm.trans looked
  · exact ⟨ages, false, rfl, looked⟩
  · exact ⟨ages, true, rfl, World.live_shelf.2 ⟨r, looked.2.2⟩⟩

theorem Replies.has {reply : (Store.Call.has key).Reply} (orderly : Orderly d)
    (short : key.utf8ByteSize ≤ 124) (replies : Replies d clock (.has key) reply) :
    ∃ present, reply = .ok present ∧ (present = true ↔ Visible d clock key) := by
  obtain ⟨u, u', handle, handle', glances, run⟩ := replies
  obtain ⟨orderly, same⟩ := glances.keeps orderly
  obtain ⟨ages, present, rfl, tells⟩ := run.ensured (has_looks handle orderly.sound short)
  refine ⟨present, rfl, ?_⟩
  rw [← same key, ← live_iff_visible]
  cases present with
  | true => exact iff_of_true rfl tells
  | false =>
    refine iff_of_false nofun fun live => tells ?_
    exact live_iff_visible.2 ((visible_of_ages trivial ages).2 (live_iff_visible.1 live))

theorem has_of_visible (orderly : Orderly d) (short : key.utf8ByteSize ≤ 124)
    (visible : Visible d clock key) : Replies d clock (.has key) (.ok true) := by
  obtain ⟨reply, replies⟩ := exists_replies d clock (.has key)
  obtain ⟨present, rfl, shows⟩ := replies.has orderly short
  exact shows.2 visible ▸ replies

theorem reached_set (key value : String) (clock : UInt64) (ttl : Duration)
    (below : clock.toNat + ttl.millis < UInt64.size) (short : key.utf8ByteSize ≤ 124) :
    Reached (fun _ => False) ((∅ : Directory).insert (fileName key)
      (.file (Record.encode ⟨key, value, clock + ttl.millis.toUInt64⟩))) := by
  have set : Runs Responds (FileStore.answer ⟨"", 0, 0⟩ (.set key value ttl))
      ⟨∅, [], []⟩ (.ok (), ⟨"", 0, 1⟩) ⟨_, [clock], []⟩ :=
    FileStore.set_runs _ (fun _ => rfl) value clock below short nofun
  exact .called .empty set lenient_nil

theorem visible_insert {r : Record} (live : r.isLive clock = true) :
    Visible (d.insert (fileName key) (.file r.encode)) clock key :=
  World.visible_shelf.2 ⟨r, (Directory.record?_insert ..).trans (if_pos rfl), live⟩

/-- At every instant a listing of a directory that calls have made and a look-up of a key both
succeed, and they agree on the key unless it is empty: the empty key is in no list. -/
theorem listing_agrees (reached : Reached (fun _ => False) d) (clock : UInt64) (root key : String)
    (short : key.utf8ByteSize ≤ 124) :
    (∃ keys, Replies d clock (.list root) (.ok keys)) ∧
      (∃ present, Replies d clock (.has key) (.ok present)) ∧
      ∀ listed found, Replies d clock (.list root) listed → Replies d clock (.has key) found →
        ∃ keys present, listed = .ok keys ∧ found = .ok present ∧ (key ∈ keys ↔
          key ≠ "" ∧ root.toList.isPrefixOf key.toList = true ∧ present = true) := by
  have orderly := reached.orderly
  refine ⟨?_, ?_, fun listed found lists looks => ?_⟩
  · obtain ⟨reply, replies⟩ := exists_replies d clock (.list root)
    obtain ⟨keys, rfl, _⟩ := replies.list orderly
    exact ⟨keys, replies⟩
  · obtain ⟨reply, replies⟩ := exists_replies d clock (.has key)
    obtain ⟨present, rfl, _⟩ := replies.has orderly short
    exact ⟨present, replies⟩
  · obtain ⟨keys, rfl, listing⟩ := lists.list orderly
    obtain ⟨present, rfl, shows⟩ := looks.has orderly short
    exact ⟨keys, present, rfl, rfl, by rw [listing key, shows]⟩

theorem listing_agrees_set : ∃ d, Reached (fun _ => False) d ∧
    Replies d 999 (.has "a:1") (.ok true) ∧
    ∃ keys, Replies d 999 (.list "a:") (.ok keys) ∧ "a:1" ∈ keys := by
  have reached := reached_set "a:1" "x" 0 (.ofSeconds 1) (by decide) (by decide)
  have looks : Replies _ 999 (.has "a:1") (.ok true) :=
    has_of_visible reached.orderly (by decide) (visible_insert (by decide))
  obtain ⟨⟨keys, lists⟩, _, agree⟩ := listing_agrees reached 999 "a:" "a:1" (by decide)
  obtain ⟨_, _, same, same', listed⟩ := agree _ _ lists looks
  cases same
  cases same'
  exact ⟨_, reached, looks, keys, lists, listed.2 ⟨by decide, by decide, rfl⟩⟩

theorem empty_key_unlisted : ∃ d, Reached (fun _ => False) d ∧
    Replies d 0 (.has "") (.ok true) ∧ Replies d 0 (.list "") (.ok []) := by
  have reached := reached_set "" "v" 0 (.ofSeconds 3600) (by decide) (by decide)
  refine ⟨_, reached, has_of_visible reached.orderly (by decide) (visible_insert (by decide)), ?_⟩
  obtain ⟨reply, lists⟩ := exists_replies _ 0 (.list "")
  obtain ⟨keys, rfl, listing⟩ := lists.list reached.orderly
  suffices keys = [] from this ▸ lists
  refine List.eq_nil_iff_forall_not_mem.2 fun key mem => ?_
  obtain ⟨filled, _, visible⟩ := (listing key).1 mem
  obtain ⟨r, here, _⟩ := World.visible_shelf.1 visible
  have other : fileName "" ≠ fileName key := fun same =>
    filled (FileStore.fileName_injective same).symm
  rw [Directory.record?_insert, if_neg other] at here
  cases here

end SlotLease.Files
