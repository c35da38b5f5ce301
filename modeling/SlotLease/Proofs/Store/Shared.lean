import SlotLease.Proofs.Store.Files
import SlotLease.Proofs.Store.Memory

namespace SlotLease

inductive SharedStore where
  | memory (store : MemoryStore) (now : Instant)
  | files (world : Files.World)

namespace SharedStore

variable {σ σ' : SharedStore}

def shelf : SharedStore → Shelf
  | .memory store now => store.shelf now
  | .files world => world.shelf

def span : SharedStore → Duration → Int
  | .memory _ _ => MemoryStore.span
  | .files _ => FileStore.span

def Sound : SharedStore → Prop
  | .memory _ _ => True
  | .files world => world.directory.Sound

inductive Empty : SharedStore → Prop
  | memory : Empty (.memory .empty now)
  | files : Empty (.files ⟨∅, clock⟩)

/-- A call is answered while time goes on; in a directory, through some handle. -/
inductive Answers : (call : Store.Call) → SharedStore → call.Reply → SharedStore → Prop
  | memory : now.nanos ≤ later.nanos →
      Answers call (.memory store now) (MemoryStore.answer store later call).1
        (.memory (MemoryStore.answer store later call).2 later)
  | files : Interaction.Runs Files.Serves (FileStore.answer handle call) world (reply, handle')
      world' → Answers call (.files world) reply (.files world')

inductive Passes : SharedStore → SharedStore → Prop
  | memory : now.nanos ≤ later.nanos → Passes (.memory store now) (.memory store later)
  | files : world.clock ≤ clock → Passes (.files world) (.files { world with clock })

theorem Empty.sound (h : σ.Empty) : σ.Sound := by
  cases h with
  | memory => trivial
  | files => exact Directory.sound_empty

theorem memory_ages (store : MemoryStore) (h : now.nanos ≤ later.nanos) :
    (store.shelf now).Ages kept (store.shelf later) := ⟨h, fun _ _ => .inl rfl⟩

theorem Passes.ages (h : Passes σ σ') :
    σ'.span = σ.span ∧ (σ.Sound → σ'.Sound) ∧ σ.shelf.Ages Shelf.all σ'.shelf := by
  cases h with
  | memory later => exact ⟨rfl, id, memory_ages _ later⟩
  | files later => exact ⟨rfl, id, Files.World.ages_same later⟩

theorem Answers.conforms {reply : Store.Call.Reply call} (h : Answers call σ reply σ')
    (sound : σ.Sound) :
    σ'.span = σ.span ∧ σ'.Sound ∧ σ.shelf.Conforms σ.span call reply σ'.shelf := by
  cases h with
  | memory later =>
    exact ⟨rfl, trivial, (MemoryStore.answer_conforms _ _ call).after (memory_ages _ later)⟩
  | files run =>
    have answered := run.ensured (FileStore.answer_ensures _ sound call)
    exact ⟨rfl, answered.sound, answered.conforms⟩

end SharedStore

end SlotLease
