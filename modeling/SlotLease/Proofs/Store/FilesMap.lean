import SlotLease.Proofs.Store.Files

namespace SlotLease

structure Served where
  began : Int
  call : Store.Call
  reply : call.Reply
  ended : Int

inductive ExpiringMap.Run (scale : Scale) : List Served → ExpiringMap → Prop
  | start : Run scale [] ∅
  | serves : Run scale history m → m.Gives scale began ended call reply m' →
      Run scale (history ++ [⟨began, call, reply, ended⟩]) m'

namespace ExpiringMap

variable {scale : Scale} {history : List Served} {m : ExpiringMap}

theorem listed_ascending (m : ExpiringMap) (now : Int) (root : String) :
    (m.listed now root).Pairwise (· < ·) := (Table.keys_ascending _).filter _

theorem Run.ascending (run : Run scale history m) {began ended : Int} {root : String}
    {keys : List String} (mem : ⟨began, .list root, .ok keys, ended⟩ ∈ history) :
    keys.Pairwise (· < ·) := by
  induction run with
  | start => cases mem
  | serves _ gives ih =>
    rcases List.mem_append.1 mem with old | new
    · exact ih old
    · cases List.mem_singleton.1 new
      obtain ⟨_, looked, _, _, answered⟩ := gives
      cases answered
      exact listed_ascending ..

end ExpiringMap

namespace Files

open FileStore (Fits fileName isLeaseName scale)

inductive Run : List Served → World → Prop
  | start : Run [] ⟨∅, clock⟩
  | passes : Run history w → w.clock ≤ clock → Run history { w with clock }
  | serves : Run history w →
      Interaction.Runs Serves (FileStore.answer handle call) w (reply, handle') w' →
        Run (history ++ [⟨w.clock.toNat, call, reply, w'.clock.toNat⟩]) w'

def Fitting (history : List Served) : Prop :=
  ∀ served ∈ history, ∀ key, served.call.key? = some key → Fits key

structure Keeps (history : List Served) (w : World) (m : ExpiringMap) : Prop where
  run : ExpiringMap.Run scale history m
  sound : w.directory.Sound
  within : w.shelf.Within Fits
  mirrors : w.shelf.Mirrors m

variable {history : List Served} {w w' : World} {m : ExpiringMap} {call : Store.Call}
  {handle handle' : FileStore} {reply : call.Reply}

theorem keeps_start (clock : UInt64) : Keeps [] ⟨∅, clock⟩ ∅ where
  run := .start
  sound := Directory.sound_empty
  within _ _ found := nomatch found
  mirrors _ := rfl

theorem Keeps.passes (h : Keeps history w m) {clock : UInt64} (later : w.clock ≤ clock) :
    Keeps history { w with clock } m where
  run := h.run
  sound := h.sound
  within := h.within
  mirrors := h.mirrors.ages (World.ages_same later)

theorem Keeps.serves (h : Keeps history w m) (fits : ∀ key, call.key? = some key → Fits key)
    (run : Interaction.Runs Serves (handle.answer call) w (reply, handle') w') :
    ∃ m', m.Gives scale w.clock.toNat w'.clock.toNat call reply m' ∧
      Keeps (history ++ [⟨w.clock.toNat, call, reply, w'.clock.toNat⟩]) w' m' := by
  have answered := run.ensured (FileStore.answer_ensures handle h.sound call)
  obtain ⟨m', gives, mirrors⟩ :=
    h.mirrors.gives answered.conforms (answered.precise fits h.within).1
  exact ⟨m', gives, h.run.serves gives, answered.sound, answered.conforms.within h.within fits,
    mirrors⟩

theorem Run.keeps (run : Run history w) (fits : Fitting history) : ∃ m, Keeps history w m := by
  induction run with
  | start => exact ⟨∅, keeps_start _⟩
  | passes _ later ih =>
    obtain ⟨m, kept⟩ := ih fits
    exact ⟨m, kept.passes later⟩
  | serves _ served ih =>
    obtain ⟨m, kept⟩ := ih fun served mem => fits served (List.mem_append_left _ mem)
    obtain ⟨m', _, kept⟩ := kept.serves (fits _ (List.mem_append_right _ List.mem_cons_self)) served
    exact ⟨m', kept⟩

theorem exists_serves (w : World) (p : Program α) :
    ∃ a w', Interaction.Runs Serves p w a w' ∧ w'.clock = w.clock := by
  refine Interaction.exists_runs (fun r w₁ same => ?_) p rfl
  exact ⟨_, ⟨(w₁.directory.answer w₁.clock r).2, w₁.clock⟩, .answers ⟨UInt64.le_refl _, rfl⟩, same⟩

theorem Keeps.goes_on (h : Keeps history w m) (run : Run history w) (clock : UInt64)
    (later : w.clock ≤ clock) (call : Store.Call) (fits : ∀ key, call.key? = some key → Fits key) :
    ∃ w', w'.clock = clock ∧
      Run (history ++ [⟨clock.toNat, call, (m.answer scale clock.toNat clock.toNat call).1,
        clock.toNat⟩]) w' ∧
      Keeps (history ++ [⟨clock.toNat, call, (m.answer scale clock.toNat clock.toNat call).1,
        clock.toNat⟩]) w' (m.answer scale clock.toNat clock.toNat call).2 := by
  obtain ⟨⟨reply, handle'⟩, w', served, same⟩ :=
    exists_serves { w with clock } (FileStore.answer ⟨"", 0, 0⟩ call)
  obtain ⟨m', ⟨counted, looked, count, look, gives⟩, kept⟩ := (h.passes later).serves fits served
  have run := (run.passes later).serves served
  rw [same] at count look kept run
  obtain rfl : (clock.toNat : Int) = counted := Int.le_antisymm count.1 count.2
  obtain rfl : (clock.toNat : Int) = looked := Int.le_antisymm look.1 look.2
  rw [gives]
  exact ⟨w', same, run, kept⟩

structure AsMap (history : List Served) (w : World) : Prop where
  replies : ∃ m, ExpiringMap.Run scale history m
  listed : ∀ began root keys ended, ⟨began, .list root, .ok keys, ended⟩ ∈ history →
    keys.Pairwise fun a b => a.toUTF8.data.toList < b.toUTF8.data.toList
  files : ∀ name node, Table.get? w.directory name = some node → ∃ content r,
    node = .file content ∧ Record.decode? content = some r ∧ name = fileName r.key ∧
      isLeaseName name = true ∧ ∀ handle : FileStore, name ≠ handle.temporary
  next : ∀ (handle : FileStore) (call : Store.Call), (∀ key, call.key? = some key → Fits key) →
    (∃ reply handle' w', Interaction.Runs Serves (handle.answer call) w (reply, handle') w') ∧
      ∀ cause handle' w',
        Interaction.Runs Serves (handle.answer call) w (.error cause, handle') w' →
          w'.directory = w.directory

theorem Keeps.files (h : Keeps history w m) {name : String} {node : Node}
    (found : Table.get? w.directory name = some node) : ∃ content r,
      node = .file content ∧ Record.decode? content = some r ∧ name = fileName r.key ∧
        isLeaseName name = true ∧ ∀ handle : FileStore, name ≠ handle.temporary := by
  obtain ⟨r, rfl, rfl⟩ := h.sound name node found
  obtain ⟨key, fits, same⟩ := FileStore.exists_fits h.sound h.within (Table.mem_keys.2 ⟨_, found⟩)
  cases FileStore.fileName_injective same
  exact ⟨r.encode, r, rfl, Record.decode?_encode r, rfl, FileStore.isLeaseName_fileName fits.1,
    fun handle => (handle.temporary_ne_fileName r.key).symm⟩

/-- Whatever is called through any handles while time goes on, the store replies as a map of what
was set, and keeps nothing but the files of records. -/
theorem run_as_map (run : Run history w) (fits : Fitting history) : AsMap history w := by
  obtain ⟨m, kept⟩ := run.keeps fits
  refine ⟨⟨m, kept.run⟩, ?_, fun name node => kept.files, fun handle call fits => ⟨?_, ?_⟩⟩
  · intro began root keys ended mem
    exact (kept.run.ascending mem).imp Utf8.toUTF8_lt
  · obtain ⟨⟨reply, handle'⟩, w', run, _⟩ := exists_serves w (handle.answer call)
    exact ⟨reply, handle', w', run⟩
  · intro cause handle' w' run
    have answered := run.ensured (FileStore.answer_ensures handle kept.sound call)
    exact (answered.precise fits kept.within).2 cause rfl

theorem run_as_map_second : ∃ w, w.clock = 1000 ∧
    AsMap [⟨0, .set "a:1" "x" (.ofSeconds 1), .ok (), 0⟩, ⟨999, .list "a:", .ok ["a:1"], 999⟩,
      ⟨1000, .get "a:1", .ok none, 1000⟩] w := by
  have fits : Fits "a:1" := ⟨by decide, by decide⟩
  obtain ⟨w₁, clock₁, run₁, kept₁⟩ := (keeps_start 0).goes_on .start 0 (by decide)
    (.set "a:1" "x" (.ofSeconds 1)) (by rintro _ ⟨⟩; exact fits)
  obtain ⟨w₂, clock₂, run₂, kept₂⟩ := kept₁.goes_on run₁ 999 (by rw [clock₁]; decide)
    (.list "a:") nofun
  obtain ⟨w₃, clock₃, run₃, _⟩ := kept₂.goes_on run₂ 1000 (by rw [clock₂]; decide)
    (.get "a:1") (by rintro _ ⟨⟩; exact fits)
  refine ⟨w₃, clock₃, run_as_map run₃ ?_⟩
  simp only [Fitting, List.mem_cons, List.not_mem_nil, or_false]
  rintro _ (rfl | rfl | rfl) key ⟨⟩
  · exact fits
  · exact fits

end Files

end SlotLease
