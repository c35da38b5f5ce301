import SlotLease.Proofs.Store.Files

namespace SlotLease

open Interaction
open FileStore (fileName)

namespace Directory

def Stray (strays : Directory) : Prop :=
  ∀ name node, Table.get? strays name = some node →
    FileStore.ending.toList.isSuffixOf name.toList = true ∧ nameFits name = true ∧
      ∃ content, node = .file content ∧ Record.decode? content = none

structure Strewn (strays d d' : Directory) : Prop where
  free : ∀ name node, Table.get? strays name = some node → Table.get? d name = none
  get? : ∀ name, Table.get? d' name = (Table.get? d name).or (Table.get? strays name)

variable {strays d d' : Directory} {name key : String}

theorem Stray.temporary (stray : strays.Stray) (s : FileStore) :
    Table.get? strays s.temporary = none := by
  cases found : Table.get? strays s.temporary with
  | none => rfl
  | some node =>
    have ends := (stray _ _ found).1
    rw [s.not_ending_temporary] at ends
    cases ends

theorem Strewn.same (h : Strewn strays d d') (none : Table.get? strays name = none) :
    Table.get? d' name = Table.get? d name := by
  rw [h.get?, none, Option.or_none]

theorem Strewn.insert (h : Strewn strays d d') (none : Table.get? strays name = none)
    (node : Node) : Strewn strays (Table.insert d name node) (Table.insert d' name node) where
  free name' node' found := by
    have other : name ≠ name' := by
      rintro rfl
      cases none.symm.trans found
    rw [Table.get?_insert, if_neg other, h.free name' node' found]
  get? name' := by
    rw [Table.get?_insert, Table.get?_insert, h.get?]
    split <;> rfl

theorem Strewn.erase (h : Strewn strays d d') (none : Table.get? strays name = none) :
    Strewn strays (Table.erase d name) (Table.erase d' name) where
  free name' node' found := by
    rw [Table.get?_erase, h.free name' node' found, ite_self]
  get? name' := by
    rw [Table.get?_erase, Table.get?_erase, h.get?]
    split
    · rename_i same
      rw [← same, none]
      rfl
    · rfl

theorem stray_insert {content : ByteArray} (short : key.utf8ByteSize ≤ 124)
    (undecodable : Record.decode? content = none) :
    Stray (Table.insert ∅ (fileName key) (.file content)) := by
  intro name' node found
  rw [Table.get?_insert] at found
  split at found
  · cases found
    subst_vars
    exact ⟨FileStore.ending_fileName key, FileStore.nameFits_fileName.2 short, content, rfl,
      undecodable⟩
  · cases found

theorem strewn_insert (free : Table.get? d name = none) (node : Node) :
    Strewn (Table.insert ∅ name node) d (Table.insert d name node) where
  free name' node' found := by
    rw [Table.get?_insert] at found
    split at found
    · subst_vars
      exact free
    · cases found
  get? name' := by
    rw [Table.get?_insert, Table.get?_insert]
    split
    · subst_vars
      rw [free]
      rfl
    · exact Option.or_none.symm

end Directory

structure Desk where
  directory : Directory
  readings : Nat

namespace Desk

def answer (clock : Nat → UInt64) (listing : Directory → List String) :
    (r : Files.Request) → StateM Desk (Files.Reply r)
  | .names => fun desk => (.ok (listing desk.directory), desk)
  | .now => fun desk => (clock desk.readings, { desk with readings := desk.readings + 1 })
  | r => fun desk =>
    let (reply, directory) := desk.directory.answer (clock desk.readings) r
    (reply, { desk with directory })

def Lists (strays : Directory) (listing : Directory → List String) : Prop :=
  ∀ d d', Directory.Strewn strays d d' →
    listing d = (listing d').filter fun name => (Table.get? strays name).isNone

structure Beside (strays : Directory) (w w' : Desk) : Prop where
  strewn : Directory.Strewn strays w.directory w'.directory
  readings : w'.readings = w.readings

def Spares (strays : Directory) : Files.Request → Prop
  | .read name => Table.get? strays name = none
  | .write name _ => Table.get? strays name = none
  | .rename source target => Table.get? strays source = none ∧ Table.get? strays target = none
  | .link source target => Table.get? strays source = none ∧ Table.get? strays target = none
  | .remove name => Table.get? strays name = none
  | .names => False
  | .now => True

variable {clock : Nat → UInt64} {listing : Directory → List String} {strays : Directory}
  {w w' : Desk} {α : Type}

theorem answer_beside (clock : Nat → UInt64) (listing : Directory → List String)
    {r : Files.Request} (spares : Spares strays r) (h : Beside strays w w') :
    ((answer clock listing r).run w').1 = ((answer clock listing r).run w).1 ∧
      Beside strays ((answer clock listing r).run w).2 ((answer clock listing r).run w').2 := by
  obtain ⟨d, n⟩ := w
  obtain ⟨d', n'⟩ := w'
  obtain ⟨strewn, same⟩ := h
  cases same
  cases r with
  | names => exact absurd spares id
  | now => exact ⟨rfl, strewn, rfl⟩
  | read name =>
    have same : d'.read name = d.read name := by
      simp only [Directory.read, strewn.same spares]
    exact ⟨same, strewn, rfl⟩
  | write name content =>
    show (d'.write name content).1 = (d.write name content).1 ∧
      Beside strays ⟨(d.write name content).2, n⟩ ⟨(d'.write name content).2, n⟩
    simp only [Directory.write, strewn.same spares]
    split
    · exact ⟨rfl, strewn, rfl⟩
    · split
      · exact ⟨rfl, strewn, rfl⟩
      · exact ⟨rfl, strewn.insert spares _, rfl⟩
  | rename source target =>
    show (d'.rename source target).1 = (d.rename source target).1 ∧
      Beside strays ⟨(d.rename source target).2, n⟩ ⟨(d'.rename source target).2, n⟩
    simp only [Directory.rename, strewn.same spares.1, strewn.same spares.2]
    split
    · exact ⟨rfl, strewn, rfl⟩
    · split
      case h_5 => exact ⟨rfl, (strewn.erase spares.1).insert spares.2 _, rfl⟩
      all_goals exact ⟨rfl, strewn, rfl⟩
  | link source target =>
    show (d'.link source target).1 = (d.link source target).1 ∧
      Beside strays ⟨(d.link source target).2, n⟩ ⟨(d'.link source target).2, n⟩
    simp only [Directory.link, strewn.same spares.1, strewn.same spares.2]
    split
    · exact ⟨rfl, strewn, rfl⟩
    · split
      case h_4 => exact ⟨rfl, strewn.insert spares.2 _, rfl⟩
      all_goals exact ⟨rfl, strewn, rfl⟩
  | remove name =>
    show (d'.remove name).1 = (d.remove name).1 ∧
      Beside strays ⟨(d.remove name).2, n⟩ ⟨(d'.remove name).2, n⟩
    simp only [Directory.remove, strewn.same spares]
    split
    · exact ⟨rfl, strewn, rfl⟩
    · split
      case h_3 => exact ⟨rfl, strewn.erase spares, rfl⟩
      all_goals exact ⟨rfl, strewn, rfl⟩

theorem both_of_spares {p : Files.Program α} (spares : Always (Spares strays) (fun _ => True) p)
    (h : Beside strays w w') : Both (answer clock listing) p w p w' fun a v a' v' =>
      a' = a ∧ Beside strays v v' := by
  induction p generalizing w w' with
  | done a => exact ⟨rfl, h⟩
  | ask r next ih =>
    obtain ⟨same, beside⟩ := answer_beside clock listing spares.1 h
    rw [both_ask, same]
    exact ih _ (spares.2 _) beside

theorem lists_keys (strays : Directory) : Lists strays Table.keys := by
  intro d d' strewn
  refine (Table.keys_ascending d).eq_of_mem_iff ((Table.keys_ascending d').filter _) fun name => ?_
  rw [List.mem_filter, Table.mem_keys, Table.mem_keys, strewn.get?]
  cases here : Table.get? strays name with
  | none => simp
  | some node => simp [strewn.free name node here]

end Desk

namespace FileStore

open Directory (Stray)
open Desk (Spares Beside Lists)

variable {strays : Directory} {key name : String}

theorem read_spares (s : FileStore) (other : Table.get? strays name = none) :
    Always (Spares strays) (fun _ => True) (s.read name) := by
  rw [FileStore.read, always_bind]
  refine ⟨other, fun reply => ?_⟩
  rcases reply with cause | content
  · cases cause <;> trivial
  · simp only [Always]
    cases Record.decode? content <;> trivial

theorem removeIfPresent_spares (other : Table.get? strays name = none) :
    Always (Spares strays) (fun _ => True) (removeIfPresent name) := by
  rw [removeIfPresent, always_bind]
  refine ⟨other, fun reply => ?_⟩
  rcases reply with cause | _
  · cases cause <;> trivial
  · trivial

theorem isLiveAside_spares (s : FileStore) (other : Table.get? strays name = none) :
    Always (Spares strays) (fun _ => True) (s.isLiveAside name) := by
  rw [isLiveAside, always_bind]
  refine (s.read_spares other).mono fun result _ => ?_
  rcases result with e | _ | r
  · trivial
  · trivial
  · exact ⟨trivial, fun _ => trivial⟩

theorem evict_spares (s : FileStore) (stray : strays.Stray)
    (other : Table.get? strays name = none) :
    Always (Spares strays) (fun _ => True) (s.evict name) := by
  have temporary := stray.temporary s
  have removed : Always (Spares strays) (fun _ => True) (do
      return (← removeIfPresent s.temporary, s.afterTemporary)) :=
    (always_bind ..).2 ((removeIfPresent_spares temporary).mono fun _ _ => trivial)
  rw [evict, always_bind]
  refine ⟨⟨other, temporary⟩, fun reply => ?_⟩
  rcases reply with cause | _
  · cases cause <;> trivial
  · have judged := s.afterTemporary.isLiveAside_spares temporary
    refine (always_bind ..).2 (judged.mono fun live _ => ?_)
    cases live with
    | false => exact removed
    | true =>
      refine (always_bind ..).2 ⟨⟨temporary, other⟩, fun reply => ?_⟩
      rcases reply with cause | _
      · cases cause with
        | alreadyExists => exact removed
        | _ => exact ⟨⟨temporary, other⟩, fun _ => trivial⟩
      · exact removed

theorem readLive_spares (s : FileStore) (stray : strays.Stray)
    (other : Table.get? strays (fileName key) = none) :
    Always (Spares strays) (fun _ => True) (s.readLive key) := by
  rw [readLive, always_bind]
  refine (s.read_spares other).mono fun result _ => ?_
  rcases result with e | _ | r
  · trivial
  · trivial
  · refine ⟨trivial, fun now => ?_⟩
    simp only [bind_done]
    cases r.isLive now with
    | true => trivial
    | false =>
      refine (always_bind ..).2 ((s.evict_spares stray other).mono fun result _ => ?_)
      rcases result with ⟨_ | _, _⟩ <;> trivial

theorem has_spares (s : FileStore) (stray : strays.Stray)
    (other : Table.get? strays (fileName key) = none) :
    Always (Spares strays) (fun _ => True) (s.has key) :=
  (always_bind ..).2 ((s.readLive_spares stray other).mono fun _ _ => trivial)

theorem deadline_spares (ttl : Duration) :
    Always (Spares strays) (fun _ => True) (deadline ttl) := by
  rw [deadline]
  split
  · trivial
  · refine ⟨trivial, fun now => ?_⟩
    show Always _ _ (if _ then _ else _)
    split <;> trivial

theorem write_spares (s : FileStore) (stray : strays.Stray) {r : Record}
    (other : Table.get? strays (fileName r.key) = none) :
    Always (Spares strays) (fun _ => True) (s.write r) := by
  have temporary := stray.temporary s
  refine ⟨temporary, fun reply => ?_⟩
  cases reply with
  | error cause => trivial
  | ok _ =>
    refine ⟨⟨temporary, other⟩, fun reply => ?_⟩
    cases reply with
    | error cause => exact ⟨temporary, fun _ => trivial⟩
    | ok _ => trivial

variable {clock : Nat → UInt64} {listing : Directory → List String} {w w' : Desk} {node : Node}

theorem run_read_stray (s : FileStore) (stray : strays.Stray) (h : Beside strays w w')
    (found : Table.get? strays name = some node) :
    ((s.read name).run (Desk.answer clock listing)).run w' =
      (.error (.corrupt (s.pathOf name)), w') := by
  obtain ⟨_, fits, content, rfl, undecodable⟩ := stray name node found
  have here : Table.get? w'.directory name = some (.file content) := by
    rw [h.strewn.get?, h.strewn.free _ _ found, found]
    rfl
  have reads : ((Files.read name).run (Desk.answer clock listing)).run w' = (.ok content, w') :=
    Prod.ext (Directory.read_present fits here) rfl
  rw [FileStore.read, run_bind, reads]
  simp only [undecodable]
  rfl

theorem listFiles_both (s : FileStore) (stray : strays.Stray) (root : String) (now : UInt64)
    (names found : List String) (h : Beside strays w w') :
    Both (Desk.answer clock listing)
      (s.listFiles root now (names.filter fun name => (Table.get? strays name).isNone) found) w
      (s.listFiles root now names found) w' fun a v a' v' => a' = a ∧ Beside strays v v' := by
  induction names generalizing s found w w' with
  | nil => exact ⟨rfl, h⟩
  | cons name rest ih =>
    cases here : Table.get? strays name with
    | none =>
      rw [List.filter_cons_of_pos (by rw [here]; rfl), listFiles, listFiles]
      cases isLeaseName name with
      | false => exact ih s found h
      | true =>
        refine (both_bind ..).2 ((Desk.both_of_spares (s.read_spares here) h).mono ?_)
        rintro _ v result v' ⟨rfl, h⟩
        rcases result with e | _ | r
        · cases e with
          | corrupt _ => exact ih s found h
          | _ => exact ⟨rfl, h⟩
        · exact ih s found h
        · simp only
          cases r.isLive now with
          | true => exact ih s _ h
          | false =>
            refine (both_bind ..).2 ((Desk.both_of_spares (s.evict_spares stray here) h).mono ?_)
            rintro _ v ⟨evicted, s⟩ v' ⟨rfl, h⟩
            cases evicted with
            | error e => exact ⟨rfl, h⟩
            | ok _ => exact ih s found h
    | some node =>
      rw [List.filter_cons_of_neg (by simp [here]), listFiles]
      cases isLeaseName name with
      | false => exact ih s found h
      | true =>
        simp only [Bool.not_true, Bool.false_eq_true, if_false, Both, run_bind,
          s.run_read_stray stray h here]
        exact ih s found h

theorem list_both (s : FileStore) (stray : strays.Stray) (lists : Lists strays listing)
    (root : String) (h : Beside strays w w') :
    Both (Desk.answer clock listing) (s.list root) w (s.list root) w' fun a v a' v' =>
      a' = a ∧ Beside strays v v' := by
  have clocked : Both (Desk.answer clock listing) Files.now w Files.now w' fun a v a' v' =>
      a' = a ∧ Beside strays v v' := Desk.both_of_spares ⟨trivial, fun _ => trivial⟩ h
  refine (both_bind ..).2 (clocked.mono ?_)
  rintro _ v now v' ⟨rfl, h⟩
  have names : Both (Desk.answer clock listing) Files.names v Files.names v' fun a u a' u' =>
      ∃ all, a' = .ok all ∧ a = .ok (all.filter fun name => (Table.get? strays name).isNone) ∧
        Beside strays u u' :=
    ⟨_, rfl, congrArg Except.ok (lists _ _ h.strewn), h⟩
  refine (both_bind ..).2 (names.mono ?_)
  rintro _ v _ v' ⟨all, rfl, rfl, h⟩
  refine (both_bind ..).2 ((s.listFiles_both stray root now all [] h).mono ?_)
  rintro _ v ⟨found, s⟩ v' ⟨rfl, h⟩
  cases found <;> exact ⟨rfl, h⟩

theorem has_both (s : FileStore) (stray : strays.Stray)
    (other : Table.get? strays (fileName key) = none) (h : Beside strays w w') :
    Both (Desk.answer clock listing) (s.has key) w (s.has key) w' fun a v a' v' =>
      a' = a ∧ Beside strays v v' :=
  Desk.both_of_spares (s.has_spares stray other) h

theorem run_has_free (s : FileStore) (clock : Nat → UInt64)
    (listing : Directory → List String) (stray : strays.Stray) (h : Beside strays w w')
    (found : Table.get? strays (fileName key) = some node) :
    ((s.has key).run (Desk.answer clock listing)).run w = ((.ok false, s), w) := by
  obtain ⟨_, fits, _⟩ := stray _ _ found
  have absent : ((Files.read (fileName key)).run (Desk.answer clock listing)).run w =
      (.error .notFound, w) := by
    have free := h.strewn.free _ _ found
    refine Prod.ext ?_ rfl
    show w.directory.read (fileName key) = _
    simp [Directory.read, fits, free]
  simp only [has, readLive, FileStore.read, run_bind, absent]
  rfl

theorem run_has_stray (s : FileStore) (clock : Nat → UInt64)
    (listing : Directory → List String) (stray : strays.Stray) (h : Beside strays w w')
    (found : Table.get? strays (fileName key) = some node) :
    ((s.has key).run (Desk.answer clock listing)).run w' =
      ((.error (.corrupt (s.pathOf (fileName key))), s), w') := by
  simp only [has, readLive, run_bind, s.run_read_stray stray h found]
  rfl

theorem write_both (s : FileStore) (stray : strays.Stray) (r : Record) (h : Beside strays w w') :
    Both (Desk.answer clock listing) (s.write r) w (s.write r) w' fun a v a' v' =>
      a' = a ∧ ∀ e, a.1 = .error e → Beside strays v v' := by
  have temporary := stray.temporary s
  cases found : Table.get? strays (fileName r.key) with
  | none =>
    refine (Desk.both_of_spares (s.write_spares stray found) h).mono ?_
    exact fun _ _ _ _ ⟨same, h⟩ => ⟨same, fun _ _ => h⟩
  | some node =>
    obtain ⟨_, fits, content, rfl, _⟩ := stray _ _ found
    have written : Both (Desk.answer clock listing) (Files.write s.temporary r.encode) w
        (Files.write s.temporary r.encode) w' fun a v a' v' => a' = a ∧ Beside strays v v' ∧
          (a = .ok () → Table.get? v.directory s.temporary = some (.file r.encode)) := by
      obtain ⟨same, h⟩ :=
        Desk.answer_beside clock listing (r := .write s.temporary r.encode) temporary h
      refine ⟨same, h, fun ok => ?_⟩
      have whole := (Prod.mk.eta (p := w.directory.write s.temporary r.encode)).symm
      obtain ⟨⟨_, failed⟩, _⟩ | ⟨_, wrote⟩ := Directory.write_cases whole
      · cases ok.symm.trans failed
      · show Table.get? (w.directory.write s.temporary r.encode).2 _ = _
        rw [wrote, Table.get?_insert, if_pos rfl]
    refine (both_bind ..).2 (written.mono ?_)
    rintro _ v reply v' ⟨rfl, h, here⟩
    cases reply with
    | error cause => exact ⟨rfl, fun _ _ => h⟩
    | ok _ =>
      have here := here rfl
      have here' := (h.strewn.same temporary).trans here
      have free := h.strewn.free _ _ found
      have there : Table.get? v'.directory (fileName r.key) = some (.file content) := by
        rw [h.strewn.get?, free, found]
        rfl
      have placed : Both (Desk.answer clock listing) (Files.rename s.temporary (fileName r.key)) v
          (Files.rename s.temporary (fileName r.key)) v' fun a _ a' _ =>
            a = .ok () ∧ a' = .ok () := by
        constructor
        · refine congrArg Prod.fst (Directory.rename_present s.nameFits_temporary fits here ?_)
          exact fun number folder => nomatch free.symm.trans folder
        · refine congrArg Prod.fst (Directory.rename_present s.nameFits_temporary fits here' ?_)
          exact fun number folder => nomatch there.symm.trans folder
      refine (both_bind ..).2 (placed.mono ?_)
      rintro _ _ _ _ ⟨rfl, rfl⟩
      exact ⟨rfl, nofun⟩

theorem set_both (s : FileStore) (stray : strays.Stray) (key value : String) (ttl : Duration)
    (h : Beside strays w w') :
    Both (Desk.answer clock listing) (s.set key value ttl) w (s.set key value ttl) w'
      fun a v a' v' => a' = a ∧ ∀ e, a.1 = .error e → Beside strays v v' := by
  refine (both_bind ..).2 ((Desk.both_of_spares (deadline_spares ttl) h).mono ?_)
  rintro _ v result v' ⟨rfl, h⟩
  cases result with
  | error e => exact ⟨rfl, fun _ _ => h⟩
  | ok expiresAt => exact s.write_both stray _ h

end FileStore

end SlotLease
