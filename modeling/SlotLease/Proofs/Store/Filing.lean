import SlotLease.Proofs.Store.Crowd

namespace SlotLease

open FileStore (fileName)

namespace Crowd

inductive Writes : Task → Prop
  | sets : Writes ⟨s, s.set key value ttl⟩
  | refreshes : Writes ⟨s, s.refresh key ttl⟩

def Written {ι : Type} (events : List (Event ι)) (r : Record) : Prop :=
  ∃ i name, ⟨i, .write name r.encode, .ok ()⟩ ∈ events

def Whole {ι : Type} (events : List (Event ι)) (d : Directory) : Prop :=
  ∀ name node, FileStore.ending.toList.isSuffixOf name.toList = true →
    Table.get? d name = some node →
      ∃ r : Record, node = .file r.encode ∧ name = fileName r.key ∧ Written events r

variable {ι : Type} {c c' : Crowd ι} {held held' : ι → Holding} {events new : List (Event ι)}
  {r : Record} {task : Task}

theorem Written.append (h : Written events r) (new : List (Event ι)) :
    Written (events ++ new) r := by
  obtain ⟨i, name, mem⟩ := h
  exact ⟨i, name, List.mem_append_left _ mem⟩

theorem Writes.follows (writes : Writes task) :
    Follows (fun _ => True) task.handle.temporary .nothing task.rest := by
  cases writes with
  | sets => exact FileStore.set_follows _ trivial _ _
  | refreshes => exact FileStore.refresh_follows _ _ _ fun _ => trivial

def Filing (events : List (Event ι)) (d : Directory) : Prop :=
  ∀ name node, Table.get? d name = some node → (∃ s : FileStore, name = s.temporary) ∨
    ∃ r : Record, node = .file r.encode ∧ name = fileName r.key ∧ Written events r

def Backed (events : List (Event ι)) : Holding → Prop
  | .draft r => Written events r
  | .aside key content _ => ∃ r : Record, content = r.encode ∧ r.key = key ∧ Written events r
  | _ => True

variable {d d' : Directory} {holding holding' : Holding}

theorem Filing.append (h : Filing events d) (new : List (Event ι)) : Filing (events ++ new) d :=
  fun name node found => (h name node found).imp_right fun ⟨r, same, named, written⟩ =>
    ⟨r, same, named, written.append new⟩

theorem Filing.erase (h : Filing events d) (name : String) :
    Filing events (Table.erase d name) := by
  intro name' node found
  rw [Table.get?_erase] at found
  split at found
  · cases found
  · exact h name' node found

theorem Filing.draft (h : Filing events d) (s : FileStore) (node : Node) :
    Filing events (Table.insert d s.temporary node) := by
  intro name' node' found
  rw [Table.get?_insert] at found
  split at found
  · rename_i same
    exact .inl ⟨s, same.symm⟩
  · exact h name' node' found

theorem Filing.insert (h : Filing events d) (written : Written events r) :
    Filing events (Table.insert d (fileName r.key) (.file r.encode)) := by
  intro name' node found
  rw [Table.get?_insert] at found
  split at found
  · rename_i same
    cases found
    exact .inr ⟨r, rfl, same.symm, written⟩
  · exact h name' node found

theorem Filing.record (h : Filing events d) {key : String} {content : ByteArray}
    (found : Table.get? d (fileName key) = some (.file content)) :
    Backed events (.aside key content false) := by
  rcases h _ _ found with ⟨s, same⟩ | ⟨r, same, named, written⟩
  · exact absurd same.symm (s.temporary_ne_fileName key)
  · cases same
    exact ⟨r, rfl, (FileStore.fileName_injective named).symm, written⟩

theorem Backed.append (h : Backed events holding) (new : List (Event ι)) :
    Backed (events ++ new) holding := by
  cases holding with
  | draft r => exact Written.append h new
  | aside key content live =>
    obtain ⟨r, same, own, written⟩ := h
    exact ⟨r, same, own, written.append new⟩
  | nothing | spare => trivial

theorem Acts.files {i : ι} {s : FileStore} {request : Files.Request}
    {reply : Files.Reply request} {keys : String → Prop} {shown : UInt64 → Prop}
    (acts : Acts keys shown s.temporary d holding request reply holding' d')
    (files : Filing events d) (backed : Backed events holding) :
    Filing (events ++ [⟨i, request, reply⟩]) d' ∧
      Backed (events ++ [⟨i, request, reply⟩]) holding' := by
  have files' := files.append [⟨i, request, reply⟩]
  have backed' := backed.append [⟨i, request, reply⟩]
  cases acts with
  | idle => exact ⟨files', backed'⟩
  | failed | doomed | taken => exact ⟨files', trivial⟩
  | spared => exact ⟨files', backed'⟩
  | drafted => exact ⟨files'.draft s _, i, _, List.mem_append_right _ (List.mem_singleton_self _)⟩
  | placed => exact ⟨(files'.erase _).insert backed', trivial⟩
  | moved own found => exact ⟨(files'.erase _).draft s _, files'.record found⟩
  | linked =>
    obtain ⟨r, rfl, rfl, written⟩ := backed'
    exact ⟨files'.insert written, trivial⟩
  | cleared => exact ⟨files'.erase _, trivial⟩

variable [DecidableEq ι]

theorem Moves.files {keys : String → Prop} {shown : UInt64 → Prop}
    (moves : Moves keys shown c held new c' held')
    (h : Filing events c.directory ∧ ∀ i, Backed events (held i)) :
    Filing (events ++ new) c'.directory ∧ ∀ i, Backed (events ++ new) (held' i) := by
  obtain ⟨files, backed⟩ := h
  cases moves with
  | still same =>
    rw [List.append_nil, same]
    exact ⟨files, backed⟩
  | @acts _ i _ r reply holding named acts =>
    obtain ⟨task, _, rfl⟩ := name?_eq_some.1 named
    obtain ⟨files, own⟩ := acts.files (i := i) files (backed i)
    exact ⟨files, (Function.forall_update_iff held fun _ => Backed _).2
      ⟨own, fun j _ => (backed j).append _⟩⟩

/-- However operations on the same directory take turns, each lease file holds a whole record of its
key, as long as no two of them that are under way have the same temporary name. -/
theorem whole_files
    (run : Run (fun c task => c.Apart task ∧ Writes task) (fun _ => True) (idle ∅ : Crowd ι)
      events c) : Whole events c.directory := by
  have plain : Plain (fun _ => True) ∅ := nofun
  have start : Filing ([] : List (Event ι)) ∅ := nofun
  obtain ⟨held, _, files, _⟩ := run.keeps plain
    (fun _ _ begins => ⟨begins.1, begins.2.follows⟩)
    (I := fun events c held => Filing events c.directory ∧ ∀ i, Backed events (held i))
    ⟨start, fun _ => trivial⟩ fun _ _ _ _ _ _ _ h moves => moves.files h
  intro name node ends found
  rcases files name node found with ⟨s, rfl⟩ | record
  · rw [s.not_ending_temporary] at ends
    cases ends
  · exact record

def twoWriters (s s' : FileStore) (r r' : Record) : List (Event Bool) :=
  [⟨false, .now, (0 : UInt64)⟩, ⟨true, .now, (0 : UInt64)⟩,
    ⟨false, .write s.temporary r.encode, .ok ()⟩, ⟨true, .write s'.temporary r'.encode, .ok ()⟩,
    ⟨false, .rename s.temporary (fileName r.key), .ok ()⟩]

theorem run_twoWriters (allowed : Crowd Bool → Task → Prop) (s s' : FileStore)
    {content : ByteArray} (first : allowed (idle ∅) ⟨s, s.set "a" "x" (.ofSeconds 1)⟩)
    (second : allowed ((idle ∅).put ∅ false (some ⟨s, s.set "a" "x" (.ofSeconds 1)⟩))
      ⟨s', s'.set "b" "y" (.ofSeconds 1)⟩)
    (here : Table.get? (Table.insert (Table.insert (∅ : Directory) s.temporary
      (.file (Record.encode ⟨"a", "x", 1000⟩))) s'.temporary
        (.file (Record.encode ⟨"b", "y", 1000⟩))) s.temporary = some (.file content)) :
    ∃ c, Run allowed (fun _ => True) (idle ∅)
        (twoWriters s s' ⟨"a", "x", 1000⟩ ⟨"b", "y", 1000⟩) c ∧
      Table.get? c.directory (fileName "a") = some (.file content) := by
  have file (name : String) (number : Nat) : Table.get? (Table.insert (∅ : Directory) s.temporary
      (.file (Record.encode ⟨"a", "x", 1000⟩))) name ≠ some (.folder number) := by
    rw [Table.get?_insert]
    split <;> exact nofun
  have file' (number : Nat) : Table.get? (Table.insert (Table.insert (∅ : Directory) s.temporary
      (.file (Record.encode ⟨"a", "x", 1000⟩))) s'.temporary
        (.file (Record.encode ⟨"b", "y", 1000⟩))) (fileName "a") ≠ some (.folder number) := by
    rw [Table.get?_insert, if_neg (s'.temporary_ne_fileName _)]
    exact file _ number
  have fits : Directory.nameFits (fileName "a") = true :=
    FileStore.nameFits_fileName.2 (by decide)
  have begun : Run allowed (fun _ => True) (idle ∅) [] _ :=
    (Run.start.start_task false _ rfl first).start_task true _ rfl second
  have asked := (begun.ask false 0 rfl trivial rfl).ask true 0 rfl trivial rfl
  have drafted := asked.ask false 0 rfl trivial
    (Directory.write_free s.nameFits_temporary nofun)
  have both := drafted.ask true 0 rfl trivial
    (Directory.write_free s'.nameFits_temporary (file _))
  have placed := both.ask false 0 rfl trivial
    (Directory.rename_present s.nameFits_temporary fits here file')
  exact ⟨_, placed, (Table.get?_insert ..).trans (if_pos rfl)⟩

theorem whole_files_twoWriters :
    let s : FileStore := ⟨"leases", 7, 0⟩
    let events := twoWriters s s.afterTemporary ⟨"a", "x", 1000⟩ ⟨"b", "y", 1000⟩
    ∃ c, Run (fun c task => c.Apart task ∧ Writes task) (fun _ => True) (idle ∅) events c ∧
      Whole events c.directory ∧
      Table.get? c.directory (fileName "a") = some (.file (Record.encode ⟨"a", "x", 1000⟩)) := by
  intro s events
  have other : s.temporary ≠ s.afterTemporary.temporary := fun same =>
    absurd (FileStore.temporary_eq_iff.1 same).2 (by decide)
  obtain ⟨c, run, found⟩ := run_twoWriters
    (fun c task => c.Apart task ∧ Writes task) s s.afterTemporary
    ⟨nofun, .sets⟩
    (by
      refine ⟨fun i task under => ?_, .sets⟩
      cases i with
      | false =>
        cases under
        exact other
      | true => cases under)
    (by
      rw [Table.get?_insert, if_neg other.symm, Table.get?_insert, if_pos rfl])
  exact ⟨c, run, whole_files run, found⟩

/-- Two writers on different hosts that have the same process number and so the same temporary name:
one of them puts the record of the other into the file of its own key. -/
theorem mixed_files_twoWriters :
    let s : FileStore := ⟨"leases", 7, 0⟩
    let events := twoWriters s s ⟨"a", "x", 1000⟩ ⟨"b", "y", 1000⟩
    ∃ c, Run (fun _ task => Writes task) (fun _ => True) (idle ∅) events c ∧
      ¬ Whole events c.directory := by
  intro s events
  obtain ⟨c, run, found⟩ := run_twoWriters (fun _ task => Writes task) s s .sets .sets
    (by rw [Table.get?_insert, if_pos rfl])
  refine ⟨c, run, fun whole => ?_⟩
  obtain ⟨r, same, named, _⟩ := whole _ _ (FileStore.ending_fileName _) found
  cases Record.encode_injective (Node.file.inj same)
  exact absurd (FileStore.fileName_injective named) (by decide)

end Crowd

end SlotLease
