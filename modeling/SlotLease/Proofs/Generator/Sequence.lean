import SlotLease.Proofs.Generator.History

namespace SlotLease.Generator

variable {epoch now t : UInt64} {last id : Id} {slot : Slot} {history : List Attempt}

def idsAt (history : List Attempt) (t : UInt64) : List Id := (ids history).filter (·.timestamp = t)

/-- The number of the first id of a millisecond. In that of the epoch, 0 is never given out. -/
def leastSequence (t : UInt64) : Nat := if t = 0 then 1 else 0

structure Gapless (epoch : UInt64) (history : List Attempt) : Prop where
  numbered : ∀ t, (idsAt history t).map (·.sequence.toNat) =
    List.range' (leastSequence t) (idsAt history t).length
  pending : ∀ before a after wait, history = before ++ a :: after →
    (a.outcome = .value (.pending wait) ↔ wait = 1 ∧ ∃ now id, a.consumed = [some now] ∧
      epoch ≤ now ∧ (ids before).getLast? = some id ∧ id.timestamp = now - epoch ∧
        id.sequence = Id.maxSequence)
  full : ∀ before id, before <+: history → (ids before).getLast? = some id →
    (id.sequence = Id.maxSequence ↔
      (idsAt before id.timestamp).length = if id.timestamp = 0 then 4095 else 4096)

structure Counts (epoch : UInt64) (history : List Attempt) (last : Id) : Prop where
  gapless : Gapless epoch history
  latest : ∀ id ∈ ids history, id.timestamp ≤ last.timestamp
  position : last.sequence.toNat + 1 =
    leastSequence last.timestamp + (idsAt history last.timestamp).length
  origin : (ids history).getLast? = some last ∨ ids history = [] ∧ last.sequence = 0

theorem idsAt_ready (history : List Attempt) (consumed : Clock.Script) (id : Id) (t : UInt64) :
    idsAt (history ++ [⟨consumed, .value (.ready id)⟩]) t =
      idsAt history t ++ if id.timestamp = t then [id] else [] := by
  by_cases same : id.timestamp = t <;> simp [idsAt, Outcome.ready?, same]

theorem Gapless.concat (h : Gapless epoch history) {a : Attempt}
    (numbered : ∀ t, (idsAt (history ++ [a]) t).map (·.sequence.toNat) =
      List.range' (leastSequence t) (idsAt (history ++ [a]) t).length)
    (pending : ∀ wait, a.outcome = .value (.pending wait) ↔ wait = 1 ∧ ∃ now id,
      a.consumed = [some now] ∧ epoch ≤ now ∧ (ids history).getLast? = some id ∧
        id.timestamp = now - epoch ∧ id.sequence = Id.maxSequence)
    (full : ∀ id, (ids (history ++ [a])).getLast? = some id →
      (id.sequence = Id.maxSequence ↔ (idsAt (history ++ [a]) id.timestamp).length =
        if id.timestamp = 0 then 4095 else 4096)) : Gapless epoch (history ++ [a]) where
  numbered := numbered
  pending before b after wait split := by
    rcases split_concat split with ⟨rfl, rfl⟩ | ⟨rest, split⟩
    · exact pending wait
    · exact h.pending before b rest wait split
  full before id start := by
    rcases List.prefix_concat_iff.1 start with rfl | start
    · exact full id
    · exact h.full before id start

theorem full_iff {count : Nat}
    (position : id.sequence.toNat + 1 = leastSequence id.timestamp + count) :
    id.sequence = Id.maxSequence ↔ count = if id.timestamp = 0 then 4095 else 4096 := by
  rw [leastSequence] at position
  rw [← UInt64.toNat_inj]
  show id.sequence.toNat = 4095 ↔ _
  by_cases zero : id.timestamp = 0
  · rw [if_pos zero] at position ⊢
    omega
  · rw [if_neg zero] at position ⊢
    omega

theorem counts_first (slot : Slot) : Counts epoch [] (first slot) where
  gapless := {
    numbered := fun _ => rfl
    pending := by simp
    full := by
      rintro _ _ start made
      obtain rfl := List.prefix_nil.1 start
      cases made }
  latest := nofun
  position := by
    rw [show (first slot).timestamp = 0 from Id.timestamp_pack UInt64.zero_le,
      show (first slot).sequence = 0 from Id.sequence_pack UInt64.zero_le]
    rfl
  origin := .inr ⟨rfl, Id.sequence_pack UInt64.zero_le⟩

theorem Counts.spent_iff (h : Counts epoch history last) :
    (∃ id, (ids history).getLast? = some id ∧ id.timestamp = t ∧ id.sequence = Id.maxSequence) ↔
      last.timestamp = t ∧ last.sequence = Id.maxSequence := by
  rcases h.origin with made | ⟨none, fresh⟩
  · simp [made]
  · have other : (0 : UInt64) ≠ Id.maxSequence := by decide
    simp [none, fresh, other]

theorem Counts.pending_iff (h : Counts epoch history last) {wait : Nat} :
    (follow epoch last now).1 = .value (.pending wait) ↔ wait = 1 ∧ ∃ now' id,
      [some now] = [some now'] ∧ epoch ≤ now' ∧ (ids history).getLast? = some id ∧
        id.timestamp = now' - epoch ∧ id.sequence = Id.maxSequence := by
  rw [follow_pending_iff, advance_eq_none_iff]
  refine and_congr_right fun _ => ?_
  constructor
  · rintro ⟨since, same, full⟩
    obtain ⟨id, made, spent⟩ := h.spent_iff.2 ⟨same.symm, full⟩
    exact ⟨now, id, rfl, since, made, spent⟩
  · rintro ⟨_, id, ⟨⟩, since, made, spent⟩
    obtain ⟨same, full⟩ := h.spent_iff.1 ⟨id, made, spent⟩
    exact ⟨since, same.symm, full⟩

theorem Counts.number (h : Counts epoch history last)
    (advanced : advance epoch last now = .ok (some id)) :
    id.sequence.toNat = leastSequence id.timestamp + (idsAt history id.timestamp).length := by
  rcases sequence_of_advance advanced with ⟨same, next⟩ | ⟨later, zero⟩
  · rw [same, next, h.position]
  · -- no id of a later millisecond is given out yet
    have none : idsAt history id.timestamp = [] := by
      refine List.filter_eq_nil_iff.2 fun id' mem same => ?_
      have le := h.latest id' mem
      rw [of_decide_eq_true same] at le
      exact UInt64.lt_irrefl _ (UInt64.lt_of_lt_of_le later le)
    have after : id.timestamp ≠ 0 := by
      intro epoch
      rw [epoch] at later
      exact UInt64.not_lt_zero later
    rw [zero, none, leastSequence, if_neg after]
    rfl

theorem Counts.ready (h : Counts epoch history last)
    (advanced : advance epoch last now = .ok (some id)) :
    Counts epoch (history ++ [⟨[some now], .value (.ready id)⟩]) id := by
  have number := h.number advanced
  have made : (ids (history ++ [⟨[some now], .value (.ready id)⟩])).getLast? = some id := by
    simp [Outcome.ready?]
  have position : id.sequence.toNat + 1 = leastSequence id.timestamp +
      (idsAt (history ++ [⟨[some now], .value (.ready id)⟩]) id.timestamp).length := by
    rw [idsAt_ready, if_pos rfl, List.length_append, List.length_singleton, number]
    omega
  refine ⟨h.gapless.concat (fun t => ?_) (fun wait => ?_) (fun id' found => ?_), ?_, position,
    .inl made⟩
  · rw [idsAt_ready]
    split
    · rename_i same
      subst same
      rw [List.map_append, h.gapless.numbered, List.map_singleton, number, List.length_append,
        List.length_singleton, List.range'_1_concat]
    · rw [List.append_nil]
      exact h.gapless.numbered t
  · rw [← h.pending_iff, follow, advanced]
  · rw [made] at found
    cases found
    exact full_iff position
  · intro id' mem
    rcases mem_ids_concat.1 mem with old | new
    · refine UInt64.le_trans (h.latest id' old) ?_
      rcases sequence_of_advance advanced with ⟨same, _⟩ | ⟨later, _⟩
      · exact UInt64.le_of_eq same.symm
      · exact UInt64.le_of_lt later
    · cases new
      exact UInt64.le_refl _

theorem Counts.other (h : Counts epoch history last)
    (followed : (follow epoch last now).1.ready? = none) :
    Counts epoch (history ++ [⟨[some now], (follow epoch last now).1⟩]) last := by
  have same : ids (history ++ [⟨[some now], (follow epoch last now).1⟩]) = ids history := by
    simp [followed]
  have sameAt : ∀ t, idsAt (history ++ [⟨[some now], (follow epoch last now).1⟩]) t =
      idsAt history t := fun t => congrArg (List.filter _) same
  refine ⟨h.gapless.concat (fun t => ?_) (fun wait => h.pending_iff) (fun id made => ?_), ?_, ?_,
    ?_⟩
  · rw [sameAt]
    exact h.gapless.numbered t
  · rw [same] at made
    rw [sameAt]
    exact h.gapless.full history id (List.prefix_refl history) made
  · rw [same]
    exact h.latest
  · rw [sameAt]
    exact h.position
  · rw [same]
    exact h.origin

theorem Counts.follow (h : Counts epoch history last) (now : UInt64) :
    Counts epoch (history ++ [⟨[some now], (follow epoch last now).1⟩])
      (follow epoch last now).2 := by
  cases ready : (Generator.follow epoch last now).1.ready? with
  | none =>
    rw [follow_of_not_ready ready]
    exact h.other ready
  | some id =>
    obtain ⟨advanced, followed⟩ := follow_of_ready ready
    rw [followed]
    exact h.ready advanced

theorem Counts.trail (h : Counts epoch history last) (readings : List UInt64) :
    Gapless epoch (history ++ trail epoch last readings) := by
  induction readings generalizing history last with
  | nil => simpa [Generator.trail] using h.gapless
  | cons now rest ih => simpa [Generator.trail] using ih (h.follow now)

/-- Either kind of generator answers every poll after a single look at the clock. The ids of one
millisecond have all numbers up to the last one of them, and a poll is put off, for a millisecond,
exactly when there is no number left. -/
theorem sequences_gapless (inRange : slot.InRange) (epoch : Duration) (readings : List UInt64) :
    (∃ g, Locked.create slot epoch = .ok g ∧ g.epoch = epochWord epoch ∧
      (g.history readings).map (·.consumed) = readings.map ([some ·]) ∧
        Gapless g.epoch (g.history readings)) ∧
      ∃ g, Shared.create slot epoch = .ok g ∧ g.epoch = epochWord epoch ∧
        (g.history readings).map (·.consumed) = readings.map ([some ·]) ∧
          Gapless g.epoch (g.history readings) := by
  constructor
  · refine ⟨_, Locked.create_of_inRange inRange epoch, rfl, ?_⟩
    rw [Locked.history_eq_trail _ rfl]
    exact ⟨trail_consumed .., (counts_first slot).trail readings⟩
  · refine ⟨_, Shared.create_of_inRange inRange epoch, rfl, ?_⟩
    rw [Shared.history_eq_trail]
    exact ⟨trail_consumed .., (counts_first slot).trail readings⟩

theorem sequences_gapless_interrupted :
    let readings : List UInt64 := [1288834974657, 1288834974657, 0, 1288834974658, 1288834974657,
      1288834974658, 2199023255552000, 1288834974658]
    let numbers : List (UInt64 × UInt64) := [(0, 1), (0, 2), (1, 0), (1, 1), (1, 2)]
    (∃ g, Locked.create ⟨3, 7⟩ Epoch.standard = .ok g ∧
      (ids (g.history readings)).map (fun id => (id.timestamp, id.sequence)) = numbers ∧
        Gapless g.epoch (g.history readings)) ∧
      ∃ g, Shared.create ⟨3, 7⟩ Epoch.standard = .ok g ∧
        (ids (g.history readings)).map (fun id => (id.timestamp, id.sequence)) = numbers ∧
          Gapless g.epoch (g.history readings) := by
  intro readings numbers
  have inRange : Slot.InRange ⟨3, 7⟩ := by decide
  obtain ⟨⟨g, created, _, _, gapless⟩, ⟨g', created', _, _, gapless'⟩⟩ :=
    sequences_gapless inRange Epoch.standard readings
  refine ⟨⟨g, created, ?_, gapless⟩, ⟨g', created', ?_, gapless'⟩⟩
  · rw [Locked.create_of_inRange inRange] at created
    cases created
    rw [Locked.history_eq_trail _ rfl]
    decide
  · rw [Shared.create_of_inRange inRange] at created'
    cases created'
    rw [Shared.history_eq_trail]
    decide

end SlotLease.Generator
