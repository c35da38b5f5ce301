import SlotLease.Proofs.Schedule.Last
import SlotLease.Schedule.Pause

namespace SlotLease.Schedule

def FiresBetween (s : Schedule) (limit : Duration) (t : Instant) : Prop :=
  ∃ fire, s.FiresAt fire ∧ t.nanos < fire.nanos ∧ fire.nanos < t.nanos + limit.nanos

/-- A search for fire times finds such ones as lie before the instant it is asked for; it need not
find any, nor the last one. -/
def LooksBack (s : Schedule) (last : Instant → Option Instant) (since : Instant) : Prop :=
  ∀ t fire, since.nanos ≤ t.nanos → last t = some fire → s.FiresAt fire ∧ fire.nanos < t.nanos

inductive Walks (s : Schedule) (last : Instant → Option Instant) (limit : Duration)
    (stop : Instant) : Instant → Nat → Option Pause → Prop
  | ends : stop.nanos ≤ start.nanos → Walks s last limit stop start 0 none
  | pauses : start.nanos < stop.nanos →
      (∀ fire, (laterBy? start limit).bind last = some fire → fire.nanos ≤ start.nanos) →
      Walks s last limit stop start 0 (some ⟨start, s.nextAfter start⟩)
  | jumps : start.nanos < stop.nanos → (laterBy? start limit).bind last = some fire →
      start.nanos < fire.nanos → Walks s last limit stop fire n result →
      Walks s last limit stop start (n + 1) result

variable {s : Schedule} {last : Instant → Option Instant} {limit : Duration} {stop start : Instant}
  {n m : Nat} {result result' : Option Pause}

theorem laterBy?_eq_some {t later : Instant} {d : Duration} (h : laterBy? t d = some later) :
    later = t.add d ∧ later.nanos ≤ Instant.last.nanos := by
  rw [laterBy?] at h
  split at h
  · cases h
    exact ⟨rfl, ‹_›⟩
  · cases h

theorem LooksBack.jump {fire : Instant} (looks : s.LooksBack last (start.add limit))
    (found : (laterBy? start limit).bind last = some fire) :
    s.FiresAt fire ∧ fire.nanos < start.nanos + limit.nanos := by
  obtain ⟨window, eq, found⟩ := Option.bind_eq_some_iff.1 found
  obtain ⟨rfl, _⟩ := laterBy?_eq_some eq
  exact looks _ fire (Int.le_refl _) found

theorem LooksBack.onward {start' : Instant} (looks : s.LooksBack last (start.add limit))
    (later : start.nanos < start'.nanos) : s.LooksBack last (start'.add limit) :=
  fun t fire le => looks t fire
    (Int.le_trans (Int.add_le_add_right (Int.le_of_lt later) limit.nanos) le)

namespace Walks

theorem unique (walk : Walks s last limit stop start n result)
    (walk' : Walks s last limit stop start m result') : n = m ∧ result = result' := by
  induction walk generalizing m result' with
  | ends past =>
    cases walk' with
    | ends => exact ⟨rfl, rfl⟩
    | pauses inside _ => exact absurd inside (Int.not_lt.2 past)
    | jumps inside _ _ _ => exact absurd inside (Int.not_lt.2 past)
  | pauses inside early =>
    cases walk' with
    | ends past => exact absurd inside (Int.not_lt.2 past)
    | pauses _ _ => exact ⟨rfl, rfl⟩
    | jumps _ found later _ => exact absurd later (Int.not_lt.2 (early _ found))
  | jumps inside found later _ ih =>
    cases walk' with
    | ends past => exact absurd inside (Int.not_lt.2 past)
    | pauses _ early => exact absurd later (Int.not_lt.2 (early _ found))
    | jumps _ found' _ walk' =>
      cases found.symm.trans found'
      obtain ⟨rfl, rfl⟩ := ih walk'
      exact ⟨rfl, rfl⟩

theorem exists_steps (looks : s.LooksBack last (start.add limit)) (stop : Instant) :
    ∃ n result, Walks s last limit stop start n result ∧
      n ≤ (stop.seconds + 1 - start.seconds).toNat := by
  generalize left : (stop.nanos - start.nanos).toNat = remaining
  induction remaining using Nat.strongRecOn generalizing start with
  | ind remaining ih =>
    rcases Int.lt_or_le start.nanos stop.nanos with inside | past
    · by_cases jump : ∃ fire, (laterBy? start limit).bind last = some fire ∧
          start.nanos < fire.nanos
      · obtain ⟨fire, found, later⟩ := jump
        obtain ⟨⟨second, rfl, _⟩, _⟩ := looks.jump found
        obtain ⟨n, result, walk, few⟩ := ih _ (by omega) (looks.onward later) rfl
        refine ⟨n + 1, result, .jumps inside found later walk, ?_⟩
        simp only [Instant.ofSeconds, Instant.seconds] at *
        omega
      · refine ⟨0, _, .pauses inside fun fire found => ?_, Nat.zero_le _⟩
        exact Int.not_lt.1 fun later => jump ⟨fire, found, later⟩
    · exact ⟨0, none, .ends past, Nat.zero_le _⟩

/-- On the way of a walk there is a fire time less than the limit after every instant: a jump
crosses a stretch shorter than the limit that ends in a fire time. -/
theorem covers (walk : Walks s last limit stop start n result)
    (looks : s.LooksBack last (start.add limit)) {t : Instant} (from' : start.nanos ≤ t.nanos)
    (before : t.nanos < (result.elim stop Pause.start).nanos) : s.FiresBetween limit t := by
  induction walk with
  | ends past => exact absurd (Int.lt_of_lt_of_le before past) (Int.not_lt.2 from')
  | pauses => exact absurd before (Int.not_lt.2 from')
  | @jumps _ fire _ _ inside found later _ ih =>
    obtain ⟨fires, soon⟩ := looks.jump found
    rcases Int.lt_or_le t.nanos fire.nanos with early | late
    · exact ⟨fire, fires, early, Int.lt_of_lt_of_le soon (Int.add_le_add_right from' _)⟩
    · exact ih (looks.onward later) late before

theorem finds {p : Pause} (walk : Walks s last limit stop start n (some p))
    (looks : s.LooksBack last (start.add limit)) :
    (p.start = start ∨ s.FiresAt p.start ∧ start.nanos < p.start.nanos) ∧
      p.start.nanos < stop.nanos ∧ p.resumes = s.nextAfter p.start ∧
        ∀ fire, (laterBy? p.start limit).bind last = some fire → fire.nanos ≤ p.start.nanos := by
  generalize outcome : some p = result at walk
  induction walk with
  | ends => cases outcome
  | pauses inside early =>
    cases outcome
    exact ⟨.inl rfl, inside, rfl, early⟩
  | @jumps start fire _ _ inside found later _ ih =>
    obtain ⟨begins, rest⟩ := ih (looks.onward later) outcome
    refine ⟨.inr ?_, rest⟩
    rcases begins with same | ⟨fires, later'⟩
    · exact same ▸ ⟨(looks.jump found).1, later⟩
    · exact ⟨fires, Int.lt_trans later later'⟩

end Walks

theorem walks_pauseFrom (s : Schedule) (limit : Duration) (stop start : Instant) :
    ∃ n, Walks s s.lastBefore limit stop start n (s.pauseFrom limit stop start) := by
  fun_induction s.pauseFrom limit stop start with
  | case1 start inside fire found later ih =>
    obtain ⟨n, walk⟩ := ih
    exact ⟨n + 1, .jumps inside found later walk⟩
  | case2 start inside fire found early =>
    exact ⟨0, .pauses inside fun fire' found' =>
      Option.some.inj (found.symm.trans found') ▸ Int.not_lt.1 early⟩
  | case3 start inside found =>
    exact ⟨0, .pauses inside fun fire found' => nomatch found.symm.trans found'⟩
  | case4 start outside => exact ⟨0, .ends (Int.not_lt.1 outside)⟩

end SlotLease.Schedule
