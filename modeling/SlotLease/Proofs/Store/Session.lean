import SlotLease.Proofs.Store.Files

namespace SlotLease

open Interaction

open FileStore (ending fileName)

namespace Files

structure Session where
  directory : Directory
  shown : List UInt64
  refused : List Request

inductive Refusal : (r : Request) → Reply r → Prop
  | read : Refusal (.read name) (.error cause)
  | write : Refusal (.write name content) (.error cause)
  | rename : Refusal (.rename source target) (.error cause)
  | link : Refusal (.link source target) (.error cause)
  | remove : Refusal (.remove name) (.error cause)
  | names : Refusal .names (.error cause)

/-- A directory answers a request or refuses it, and a refusal has no effect. Names come in any
order, and the clock may go either way. -/
inductive Responds : (r : Request) → Session → Reply r → Session → Prop
  | answers : r ≠ .now → d.answer 0 r = (reply, d') →
      Responds r ⟨d, shown, refused⟩ reply ⟨d', shown, refused⟩
  | names : listed.Perm d.keys →
      Responds .names ⟨d, shown, refused⟩ (.ok listed) ⟨d, shown, refused⟩
  | shows : Responds .now ⟨d, shown, refused⟩ clock ⟨d, shown ++ [clock], refused⟩
  | refuses : Refusal r reply → Responds r ⟨d, shown, refused⟩ reply ⟨d, shown, refused ++ [r]⟩

/-- A temporary file that cannot be cleared away: the directory refused to remove it, or it refused
to give its record the former name back, by a link and by renaming. -/
def Stuck (refused : List Request) (temporary : String) : Prop :=
  .remove temporary ∈ refused ∨
    ∃ name, .link temporary name ∈ refused ∧ .rename temporary name ∈ refused

def Unstuck (refused : List Request) : Prop := ∀ s : FileStore, ¬ Stuck refused s.temporary

def Lenient (refused : List Request) : Prop :=
  ∀ name, .remove name ∉ refused ∧ ∀ source, .link source name ∉ refused

def Lasting (name : String) : Prop := ∀ s : FileStore, name ≠ s.temporary

variable {refused refused' : List Request} {name : String}

theorem Stuck.mono (h : Stuck refused name) (more : refused ⊆ refused') : Stuck refused' name :=
  h.imp (fun mem => more mem) fun ⟨name, link, rename⟩ => ⟨name, more link, more rename⟩

theorem Lenient.unstuck (h : Lenient refused) : Unstuck refused := by
  rintro s (removal | ⟨name, link, _⟩)
  · exact (h _).1 removal
  · exact (h name).2 _ link

theorem lenient_nil : Lenient [] := fun _ => ⟨nofun, nofun⟩

theorem lasting_of_ending (named : ending.toList.isSuffixOf name.toList = true) :
    Lasting name := by
  intro s same
  rw [same, s.not_ending_temporary] at named
  cases named

theorem lasting_fileName (key : String) : Lasting (fileName key) :=
  fun s => (s.temporary_ne_fileName key).symm

namespace Session

variable {w w' w'' : Session} {source target : String} {content : ByteArray}

def refuse (w : Session) (r : Request) : Session := { w with refused := w.refused ++ [r] }

def see (w : Session) (clock : UInt64) : Session := { w with shown := w.shown ++ [clock] }

structure Onward (w w' : Session) : Prop where
  shown : w.shown ⊆ w'.shown
  refused : w.refused ⊆ w'.refused

theorem Onward.refl (w : Session) : Onward w w := ⟨List.Subset.refl _, List.Subset.refl _⟩

theorem Onward.trans (h : Onward w w') (h' : Onward w' w'') : Onward w w'' :=
  ⟨List.Subset.trans h.shown h'.shown, List.Subset.trans h.refused h'.refused⟩

theorem onward_refuse (w : Session) (r : Request) : Onward w (w.refuse r) :=
  ⟨List.Subset.refl _, List.subset_append_left _ _⟩

theorem onward_see (w : Session) (clock : UInt64) : Onward w (w.see clock) :=
  ⟨List.subset_append_left _ _, List.Subset.refl _⟩

theorem mem_refuse (w : Session) (r : Request) : r ∈ (w.refuse r).refused := by simp [refuse]

theorem ensures_of_answer {request : Request} {Q : Files.Reply request → Session → Prop}
    (timeless : request ≠ .now) (ordered : request ≠ .names)
    (refused : ∀ reply, Refusal request reply → Q reply (w.refuse request))
    (answered : Q (w.directory.answer 0 request).1
      { w with directory := (w.directory.answer 0 request).2 }) :
    Ensures Responds (.ask request .done) Q w := by
  intro reply w' responds
  cases responds with
  | answers _ same =>
    rw [same] at answered
    exact answered
  | names => exact absurd rfl ordered
  | shows => exact absurd rfl timeless
  | refuses h => exact refused reply h

theorem ensures_read {Q : Except FileError ByteArray → Session → Prop}
    (refused : ∀ cause, Q (.error cause) (w.refuse (.read name)))
    (answered : Q (w.directory.read name) w) : Ensures Responds (read name) Q w :=
  ensures_of_answer nofun nofun (by rintro _ ⟨⟩; exact refused _) answered

theorem ensures_write {Q : Except FileError Unit → Session → Prop}
    (refused : ∀ cause, Q (.error cause) (w.refuse (.write name content)))
    (answered : Q (w.directory.write name content).1
      { w with directory := (w.directory.write name content).2 }) :
    Ensures Responds (write name content) Q w :=
  ensures_of_answer nofun nofun (by rintro _ ⟨⟩; exact refused _) answered

theorem ensures_rename {Q : Except FileError Unit → Session → Prop}
    (refused : ∀ cause, Q (.error cause) (w.refuse (.rename source target)))
    (answered : Q (w.directory.rename source target).1
      { w with directory := (w.directory.rename source target).2 }) :
    Ensures Responds (rename source target) Q w :=
  ensures_of_answer nofun nofun (by rintro _ ⟨⟩; exact refused _) answered

theorem ensures_link {Q : Except FileError Unit → Session → Prop}
    (refused : ∀ cause, Q (.error cause) (w.refuse (.link source target)))
    (answered : Q (w.directory.link source target).1
      { w with directory := (w.directory.link source target).2 }) :
    Ensures Responds (link source target) Q w :=
  ensures_of_answer nofun nofun (by rintro _ ⟨⟩; exact refused _) answered

theorem ensures_remove {Q : Except FileError Unit → Session → Prop}
    (refused : ∀ cause, Q (.error cause) (w.refuse (.remove name)))
    (answered : Q (w.directory.remove name).1
      { w with directory := (w.directory.remove name).2 }) :
    Ensures Responds (remove name) Q w :=
  ensures_of_answer nofun nofun (by rintro _ ⟨⟩; exact refused _) answered

theorem ensures_now {Q : UInt64 → Session → Prop} (h : ∀ clock, Q clock (w.see clock)) :
    Ensures Responds now Q w := by
  intro clock w' responds
  cases responds with
  | answers timeless => exact absurd rfl timeless
  | shows => exact h clock
  | refuses refusal => cases refusal

theorem ensures_names {Q : Except FileError (List String) → Session → Prop}
    (refused : ∀ cause, Q (.error cause) (w.refuse .names))
    (answered : ∀ listed, Q (.ok listed) w) : Ensures Responds names Q w := by
  intro reply w' responds
  cases responds with
  | answers _ same =>
    obtain ⟨rfl, rfl⟩ := Prod.mk.inj same
    exact answered _
  | names => exact answered _
  | refuses h =>
    cases h
    exact refused _

end Session

end Files

namespace Directory

open Files (Lasting)

def Clean (d : Directory) : Prop := ∀ s : FileStore, Table.get? d s.temporary = none

def Kept (d d' : Directory) : Prop :=
  ∀ name, Lasting name → Table.get? d' name = Table.get? d name

def Dropped (shown : List UInt64) (d d' : Directory) (name : String) : Prop :=
  Table.get? d' name = none ∧ ending.toList.isSuffixOf name.toList = true ∧
    ∃ r, d.record? name = some r ∧ ∃ clock ∈ shown, r.isLive clock = false

def Drops (shown : List UInt64) (d d' : Directory) : Prop :=
  ∀ name, Lasting name → Table.get? d' name = Table.get? d name ∨ Dropped shown d d' name

inductive Edited (d d' : Directory) (name : String) : Prop
  | stays : Table.get? d' name = Table.get? d name → Edited d d' name
  | goes : Table.get? d' name = none → Edited d d' name
  | put (r : Record) : name = fileName r.key → nameFits name = true →
      Table.get? d' name = some (.file r.encode) → Edited d d' name

def Edits (d d' : Directory) : Prop := ∀ name, Lasting name → Edited d d' name

variable {d d' d'' : Directory} {name source target : String} {content : ByteArray}
  {shown shown' : List UInt64} {r : Record}

theorem nameFits_of_rename (renamed : (d.rename source target).1 = .ok ()) :
    nameFits source = true ∧ nameFits target = true := by
  by_contra long
  rw [rename_long long] at renamed
  cases renamed

theorem remove_cases {reply : Except FileError Unit} (h : d.remove name = (reply, d')) :
    (∃ cause, reply = .error cause) ∧ d' = d ∨ reply = .ok () ∧ d' = Table.erase d name := by
  unfold remove at h
  split at h
  · cases h
    exact .inl ⟨⟨_, rfl⟩, rfl⟩
  · split at h <;> cases h
    · exact .inl ⟨⟨_, rfl⟩, rfl⟩
    · exact .inl ⟨⟨_, rfl⟩, rfl⟩
    · exact .inr ⟨rfl, rfl⟩

theorem get?_of_record? (found : d.record? name = some r) :
    ∃ content, Table.get? d name = some (.file content) := by
  unfold record? at found
  split at found
  · rename_i content here
    exact ⟨content, here⟩
  · cases found

theorem record?_of_read (whole : d.read name = .ok content) :
    d.record? name = Record.decode? content := by
  unfold read at whole
  split at whole
  · cases whole
  · rw [record?]
    split at whole
    · rename_i here
      cases whole
      rw [here]
    · cases whole
    · cases whole

theorem Kept.edits (h : Kept d d') : Edits d d' := fun name lasting => .stays (h name lasting)

theorem Kept.drops (h : Kept d d') : Drops shown d d' := fun name lasting => .inl (h name lasting)

theorem Drops.mono (h : Drops shown d d') (more : shown ⊆ shown') : Drops shown' d d' := by
  intro name lasting
  refine (h name lasting).imp_right ?_
  rintro ⟨gone, named, r, found, clock, mem, ended⟩
  exact ⟨gone, named, r, found, clock, more mem, ended⟩

theorem Drops.trans (h : Drops shown d d') (h' : Drops shown d' d'') : Drops shown d d'' := by
  intro name lasting
  rcases h name lasting with same | ⟨gone, named, since⟩
  · have found : d'.record? name = d.record? name := by rw [record?, same, record?]
    refine (h' name lasting).imp (·.trans same) ?_
    rintro ⟨gone, named, since⟩
    exact ⟨gone, named, found ▸ since⟩
  · rcases h' name lasting with same | ⟨gone', _⟩
    · exact .inr ⟨same.trans gone, named, since⟩
    · exact .inr ⟨gone', named, since⟩

theorem Drops.edits (h : Drops shown d d') : Edits d d' := by
  intro name lasting
  rcases h name lasting with same | ⟨gone, _⟩
  · exact .stays same
  · exact .goes gone

theorem Drops.foreign (h : Drops shown d d') (lasting : Lasting name)
    (other : d.record? name = none ∨ ending.toList.isSuffixOf name.toList = false) :
    Table.get? d' name = Table.get? d name := by
  rcases h name lasting with kept | ⟨_, named, r, found, _⟩
  · exact kept
  · rw [found, named] at other
    exact other.elim nofun nofun

end Directory

namespace FileStore

open Files

variable {w w' w'' : Session} {name key : String} {r : Record} {s : FileStore}

structure Tidy (w w' : Session) : Prop where
  onward : w.Onward w'
  temporary : ∀ s : FileStore, Table.get? w'.directory s.temporary = none ∨
    Table.get? w'.directory s.temporary = Table.get? w.directory s.temporary ∨
      Stuck w'.refused s.temporary

structure Idle (w w' : Session) : Prop where
  onward : w.Onward w'
  same : w'.directory = w.directory

structure Confined (s : FileStore) (name : String) (w w' : Session) : Prop where
  onward : w.Onward w'
  elsewhere : ∀ other, other ≠ name → other ≠ s.temporary →
    Table.get? w'.directory other = Table.get? w.directory other
  temporary : Table.get? w'.directory s.temporary = none ∨
    Table.get? w'.directory s.temporary = Table.get? w.directory s.temporary ∨
      Stuck w'.refused s.temporary

structure Aside (s : FileStore) (name : String) (content : ByteArray) (w w' : Session) :
    Prop where
  onward : w.Onward w'
  elsewhere : ∀ other, other ≠ name → other ≠ s.temporary →
    Table.get? w'.directory other = Table.get? w.directory other
  file : Table.get? w'.directory s.temporary = some (.file content)
  before : Table.get? w.directory name = some (.file content)
  here : Table.get? w'.directory name = none ∨
    Table.get? w'.directory name = some (.file content)

theorem Tidy.trans (h : Tidy w w') (h' : Tidy w' w'') : Tidy w w'' := by
  refine ⟨h.onward.trans h'.onward, fun s => ?_⟩
  rcases h'.temporary s with gone | same | stuck
  · exact .inl gone
  · rw [same]
    exact (h.temporary s).imp_right (·.imp_right (·.mono h'.onward.refused))
  · exact .inr (.inr stuck)

theorem Tidy.clean (h : Tidy w w') (clean : w.directory.Clean) (free : Unstuck w'.refused) :
    w'.directory.Clean := by
  intro s
  rcases h.temporary s with gone | same | stuck
  · exact gone
  · exact same.trans (clean s)
  · exact absurd stuck (free s)

theorem Idle.refl (w : Session) : Idle w w := ⟨.refl w, rfl⟩

theorem Idle.trans (h : Idle w w') (h' : Idle w' w'') : Idle w w'' :=
  ⟨h.onward.trans h'.onward, h'.same.trans h.same⟩

theorem idle_see (w : Session) (clock : UInt64) : Idle w (w.see clock) := ⟨w.onward_see clock, rfl⟩

theorem idle_refuse (w : Session) (r : Request) : Idle w (w.refuse r) := ⟨w.onward_refuse r, rfl⟩

theorem Idle.tidy (h : Idle w w') : Tidy w w' := ⟨h.onward, fun _ => .inr (.inl (by rw [h.same]))⟩

theorem Idle.kept (h : Idle w w') : w.directory.Kept w'.directory := fun _ _ => by rw [h.same]

theorem Idle.confined (h : Idle w w') : Confined s name w w' :=
  ⟨h.onward, fun _ _ _ => by rw [h.same], .inr (.inl (by rw [h.same]))⟩

theorem Confined.tidy (h : Confined s name w w') (lasting : Lasting name) : Tidy w w' := by
  refine ⟨h.onward, fun s' => ?_⟩
  by_cases same : s'.temporary = s.temporary
  · rw [same]
    exact h.temporary
  · exact .inr (.inl (h.elsewhere _ (lasting s').symm same))

theorem Confined.forall_lasting {P : String → Prop} (h : Confined s name w w') (here : P name)
    (same : ∀ other, Table.get? w'.directory other = Table.get? w.directory other → P other) :
    ∀ other, Lasting other → P other := by
  intro other lasting
  by_cases this : other = name
  · exact this ▸ here
  · exact same other (h.elsewhere other this (lasting s))

theorem Confined.kept (h : Confined s name w w')
    (here : Table.get? w'.directory name = Table.get? w.directory name) :
    w.directory.Kept w'.directory := h.forall_lasting here fun _ same => same

theorem Confined.drops {shown : List UInt64} (h : Confined s name w w')
    (here : Directory.Dropped shown w.directory w'.directory name) :
    w.directory.Drops shown w'.directory := h.forall_lasting (.inr here) fun _ same => .inl same

theorem Confined.edits (h : Confined s name w w')
    (here : w.directory.Edited w'.directory name) : w.directory.Edits w'.directory :=
  h.forall_lasting here fun _ same => .stays same

end FileStore

end SlotLease
