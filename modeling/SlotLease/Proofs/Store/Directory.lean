import SlotLease.Proofs.Interaction
import SlotLease.Proofs.Store.Expiring
import SlotLease.Proofs.Store.Record
import SlotLease.Proofs.Store.Shelf
import SlotLease.Proofs.Store.Table
import SlotLease.Proofs.Text.Hex
import SlotLease.Store.Files

namespace SlotLease

namespace FileStore

theorem fileName_injective (h : fileName key = fileName key') : key = key' := by
  have := congrArg String.toList h
  simp only [fileName, String.toList_append, String.toList_ofList,
    List.append_cancel_right_eq] at this
  have := Hex.ofBytes_injective this
  rw [Utf8.toUTF8_toList, Utf8.toUTF8_toList] at this
  exact Utf8.ofChars_injective this

theorem temporary_ne_fileName (s : FileStore) (key : String) : s.temporary ≠ fileName key := by
  intro same
  have last := congrArg (fun name => name.toList.getLast?) same
  have left : s.temporary.toList.getLast? = some 'p' := by
    rw [temporary, String.toList_append, List.getLast?_append]
    rfl
  have right : (fileName key).toList.getLast? = some 'e' := by
    rw [fileName, String.toList_append, List.getLast?_append]
    rfl
  simp only [left, right] at last
  exact absurd last (by decide)

theorem not_ending_temporary (s : FileStore) :
    ending.toList.isSuffixOf s.temporary.toList = false := by
  refine Bool.eq_false_iff.2 fun ends => ?_
  rw [List.isSuffixOf_iff_suffix] at ends
  have last : s.temporary.toList.getLast? = some 'p' := by
    rw [temporary, String.toList_append, List.getLast?_append]
    rfl
  obtain ⟨front, same⟩ := ends
  rw [← same, List.getLast?_append, show ending.toList.getLast? = some 'e' from rfl] at last
  cases last

theorem temporary_eq_iff {s s' : FileStore} :
    s.temporary = s'.temporary ↔ s.owner = s'.owner ∧ s.counter = s'.counter := by
  constructor
  · intro same
    have digit : ∀ n, ∀ c ∈ Decimal.digits n, decide (c ≠ '.') = true := by
      intro n c mem
      have := Decimal.isDigit_of_mem_digits mem
      simp only [decide_eq_true_eq]
      intro dot
      rw [dot, show ('.' : Char).toNat = 46 by rfl] at this
      omega
    have numbers (s : FileStore) : s.temporary.toList =
        '.' :: (Decimal.digits s.owner.toNat ++ '.' :: (Decimal.digits s.counter.toNat ++
          ['.', 't', 'm', 'p'])) := by
      simp [temporary, Decimal.text]
    have same := congrArg String.toList same
    rw [numbers, numbers, List.cons.injEq] at same
    have owner := congrArg (List.takeWhile (· ≠ '.')) same.2
    simp only [List.takeWhile_append_of_pos (digit _), List.takeWhile_cons] at owner
    have owner := Decimal.digits_injective (by simpa using owner)
    rw [owner] at same
    have counter := List.append_cancel_right (List.cons.inj (List.append_cancel_left same.2)).2
    exact ⟨UInt32.toNat_inj.1 owner, UInt64.toNat_inj.1 (Decimal.digits_injective counter)⟩
  · rintro ⟨owner, counter⟩
    rw [temporary, temporary, owner, counter]

theorem ending_fileName (key : String) :
    ending.toList.isSuffixOf (fileName key).toList = true := by
  rw [List.isSuffixOf_iff_suffix, fileName, String.toList_append]
  exact List.suffix_append _ _

theorem isLeaseName_fileName {key : String} (filled : key ≠ "") :
    isLeaseName (fileName key) = true := by
  have other : fileName key ≠ ending := fun same => filled (fileName_injective same)
  simp [isLeaseName, ending_fileName, other]

theorem isLeaseName_fileName_iff {key : String} : isLeaseName (fileName key) = true ↔ key ≠ "" := by
  refine ⟨?_, isLeaseName_fileName⟩
  rintro named rfl
  exact absurd named (by decide)

theorem utf8ByteSize_fileName (key : String) :
    (fileName key).utf8ByteSize = 2 * key.utf8ByteSize + 6 := by
  have digits := Utf8.utf8ByteSize_of_ascii fun c (mem : c ∈ Hex.ofBytes key.toUTF8.data.toList) =>
    Hex.ascii_of_mem_ofBytes mem
  rw [fileName, String.utf8ByteSize_append, digits, Hex.length_ofBytes, Utf8.toUTF8_toList,
    Utf8.length_ofChars]
  rfl

theorem nameFits_fileName {key : String} :
    Directory.nameFits (fileName key) = true ↔ key.utf8ByteSize ≤ 124 := by
  simp only [Directory.nameFits, Directory.maxNameLength, utf8ByteSize_fileName, decide_eq_true_eq]
  omega

theorem nameFits_temporary (s : FileStore) : Directory.nameFits s.temporary = true := by
  have owner : (Decimal.text s.owner.toNat).utf8ByteSize ≤ 10 := by
    apply Decimal.utf8ByteSize_text_le
    have := s.owner.toNat_lt
    omega
  have counter : (Decimal.text s.counter.toNat).utf8ByteSize ≤ 20 := by
    apply Decimal.utf8ByteSize_text_le
    have := s.counter.toNat_lt
    omega
  have marks : ".".utf8ByteSize = 1 ∧ ".tmp".utf8ByteSize = 4 := by decide
  simp only [Directory.nameFits, Directory.maxNameLength, temporary, String.utf8ByteSize_append,
    decide_eq_true_eq]
  omega

end FileStore

namespace Directory

variable {d : Directory} {name : String} {r : Record}

def record? (d : Directory) (name : String) : Option Record :=
  match d.get? name with
  | some (.file content) => Record.decode? content
  | _ => none

def Sound (d : Directory) : Prop :=
  ∀ name node, d.get? name = some node →
    ∃ r : Record, node = .file r.encode ∧ name = FileStore.fileName r.key

theorem sound_empty : Sound ∅ := fun _ _ found => nomatch found

theorem Sound.get? (h : d.Sound) (name : String) :
    Table.get? d name = (d.record? name).map fun r => .file r.encode := by
  rw [record?]
  cases found : Table.get? d name with
  | none => rfl
  | some node =>
    obtain ⟨r, rfl, _⟩ := h name node found
    simp

theorem Sound.name_eq (h : d.Sound) (found : d.record? name = some r) :
    name = FileStore.fileName r.key := by
  have here := h.get? name
  rw [found] at here
  obtain ⟨r', same, named⟩ := h name _ here
  have same : r.encode = r'.encode := Node.file.inj same
  have := congrArg Record.decode? same
  rw [Record.decode?_encode, Record.decode?_encode] at this
  rw [named, Option.some.inj this]

theorem Sound.record?_temporary (h : d.Sound) (s : FileStore) : d.record? s.temporary = none := by
  cases found : d.record? s.temporary with
  | none => rfl
  | some r => exact absurd (h.name_eq found) (s.temporary_ne_fileName r.key)

theorem record?_erase (d : Directory) (name name' : String) :
    record? (Table.erase d name) name' = if name = name' then none else d.record? name' := by
  unfold record?
  rw [Table.get?_erase]
  by_cases same : name = name'
  · rw [if_pos same, if_pos same]
  · rw [if_neg same, if_neg same]

theorem record?_insert (d : Directory) (name name' : String) (r : Record) :
    record? (Table.insert d name (.file r.encode)) name' =
      if name = name' then some r else d.record? name' := by
  unfold record?
  rw [Table.get?_insert]
  by_cases same : name = name'
  · rw [if_pos same, if_pos same]
    exact Record.decode?_encode r
  · rw [if_neg same, if_neg same]

theorem Sound.erase (h : d.Sound) (name : String) : Sound (Table.erase d name) := by
  intro name' node found
  rw [Table.get?_erase] at found
  split at found
  · cases found
  · exact h name' node found

theorem Sound.insert (h : d.Sound) (r : Record) :
    Sound (Table.insert d (FileStore.fileName r.key) (.file r.encode)) := by
  intro name' node found
  rw [Table.get?_insert] at found
  split at found
  · rename_i same
    cases found
    exact ⟨r, rfl, same.symm⟩
  · exact h name' node found

end Directory

namespace Files

open FileStore (fileName)

structure World where
  directory : Directory
  clock : UInt64

def Answers (r : Request) (w : World) (reply : Reply r) (w' : World) : Prop :=
  w.clock ≤ w'.clock ∧ w.directory.answer w'.clock r = (reply, w'.directory)

/-- A directory answers as before, or with the names of its entries in any order. -/
inductive Serves : (r : Request) → World → Reply r → World → Prop
  | answers : Answers r w reply w' → Serves r w reply w'
  | names : w.clock ≤ clock → listed.Perm w.directory.keys →
      Serves .names w (.ok listed) { w with clock }

namespace World

variable {w : World} {d : Directory} {clock clock' : UInt64} {key : String} {r : Record}
  {kept : String → Prop}

def stored (w : World) (key : String) : Option Shelf.Entry :=
  (w.directory.record? (fileName key)).map fun r => ⟨r.value, r.expiresAt.toNat⟩

def shelf (w : World) : Shelf := ⟨w.stored, w.clock.toNat⟩

theorem stored_eq_some {e : Shelf.Entry} :
    w.stored key = some e ↔
      ∃ r, w.directory.record? (fileName key) = some r ∧ ⟨r.value, r.expiresAt.toNat⟩ = e :=
  Option.map_eq_some_iff

theorem isLive_iff : r.isLive clock = true ↔ (clock.toNat : Int) < r.expiresAt.toNat := by
  simp [Record.isLive, UInt64.lt_iff_toNat_lt]

theorem isLive_of_le (h : clock ≤ clock') (live : r.isLive clock' = true) :
    r.isLive clock = true := by
  have := UInt64.le_iff_toNat_le.1 h
  rw [isLive_iff] at live ⊢
  omega

theorem ended_of_le (h : clock ≤ clock') (ended : r.isLive clock = false) :
    r.isLive clock' = false := by
  cases live : r.isLive clock' with
  | false => rfl
  | true => exact absurd (isLive_of_le h live) (by simp [ended])

theorem live_shelf : w.shelf.Live key ↔
    ∃ r, w.directory.record? (fileName key) = some r ∧ r.isLive w.clock = true := by
  constructor
  · rintro ⟨e, found, before⟩
    obtain ⟨r, here, rfl⟩ := stored_eq_some.1 found
    exact ⟨r, here, isLive_iff.2 before⟩
  · rintro ⟨r, here, live⟩
    exact ⟨_, stored_eq_some.2 ⟨r, here, rfl⟩, isLive_iff.1 live⟩

theorem visible_shelf {now : UInt64} : (∃ e, w.shelf.visible? now.toNat key = some e) ↔
    ∃ r, w.directory.record? (fileName key) = some r ∧ r.isLive now = true := by
  constructor
  · rintro ⟨e, shown⟩
    obtain ⟨found, before⟩ := Shelf.visible?_eq_some.1 shown
    obtain ⟨r, here, rfl⟩ := stored_eq_some.1 found
    exact ⟨r, here, isLive_iff.2 before⟩
  · rintro ⟨r, here, live⟩
    exact ⟨_, Shelf.visible?_eq_some.2 ⟨stored_eq_some.2 ⟨r, here, rfl⟩, isLive_iff.1 live⟩⟩

theorem deadline_lt {e : Shelf.Entry} (found : w.stored key = some e) :
    e.deadline < UInt64.size := by
  obtain ⟨r, _, rfl⟩ := stored_eq_some.1 found
  exact Int.ofNat_lt.2 r.expiresAt.toNat_lt

theorem ages_of_record? {w' : World} (later : w.clock ≤ w'.clock)
    (h : ∀ key, kept key →
      w'.directory.record? (fileName key) = w.directory.record? (fileName key) ∨
        w'.directory.record? (fileName key) = none ∧
          ∀ r, w.directory.record? (fileName key) = some r → r.isLive w'.clock = false) :
    w.shelf.Ages kept w'.shelf := by
  refine ⟨Int.ofNat_le.2 (UInt64.le_iff_toNat_le.1 later), fun key other => ?_⟩
  rcases h key other with same | ⟨gone, ended⟩
  · exact .inl (congrArg (Option.map _) same)
  · refine .inr ⟨congrArg (Option.map _) gone, fun e found => ?_⟩
    obtain ⟨r, here, rfl⟩ := stored_eq_some.1 found
    exact Int.not_lt.1 fun before => Bool.noConfusion ((ended r here).symm.trans
      (isLive_iff.2 before))

theorem ages_same (later : clock ≤ clock') :
    (World.mk d clock).shelf.Ages kept (World.mk d clock').shelf :=
  ages_of_record? later fun _ _ => .inl rfl

theorem ages_erase_of_ended (later : clock ≤ clock')
    (ended : ∀ r, d.record? (fileName key) = some r → r.isLive clock' = false) :
    (World.mk d clock).shelf.Ages Shelf.all (World.mk (d.erase (fileName key)) clock').shelf := by
  apply ages_of_record? later
  intro key' _
  rw [Directory.record?_erase]
  by_cases same : key = key'
  · subst same
    exact .inr ⟨if_pos rfl, ended⟩
  · exact .inl (if_neg fun eq => same (FileStore.fileName_injective eq))

theorem ages_erase (later : clock ≤ clock') :
    (World.mk d clock).shelf.Ages (Shelf.others key)
      (World.mk (d.erase (fileName key)) clock').shelf := by
  apply ages_of_record? later
  intro key' other
  rw [Directory.record?_erase]
  exact .inl (if_neg fun eq => other (FileStore.fileName_injective eq))

theorem ages_insert (later : clock ≤ clock') :
    (World.mk d clock).shelf.Ages (Shelf.others r.key)
      (World.mk (d.insert (fileName r.key) (.file r.encode)) clock').shelf := by
  apply ages_of_record? later
  intro key' other
  rw [Directory.record?_insert]
  exact .inl (if_neg fun eq => other (FileStore.fileName_injective eq))

theorem stored_insert :
    (World.mk (d.insert (fileName r.key) (.file r.encode)) clock).stored r.key =
      some ⟨r.value, r.expiresAt.toNat⟩ := by
  rw [stored, Directory.record?_insert, if_pos rfl]
  rfl

end World

end Files

end SlotLease
