import SlotLease.Proofs.Schedule.Walk

/-!
The pauses that are found. The walk with the schedule's own search finds no pause only if there is
none. What it finds it takes for a pause of the limit or longer because the search before the end of
the limit found nothing new, and that search has its blind spots: what it passes over, and
everything behind the last instant.
-/

namespace SlotLease

instance : LE Instant where
  le t later := t.nanos ≤ later.nanos

namespace Schedule

variable {s : Schedule} {limit horizon : Duration} {stop start now : Instant} {p : Pause}

def FiresWithin (s : Schedule) (limit : Duration) (t : Instant) : Prop :=
  ∃ n, s.firstFrom (t.seconds + 1) = some n ∧ s.fires n = true ∧
    t.nanos < n * 1000000000 ∧ n * 1000000000 < t.nanos + limit.nanos

theorem WellFormed.firesWithin (h : s.WellFormed) {t : Instant} (since : 0 ≤ t.nanos)
    (fires : s.FiresBetween limit t) : s.FiresWithin limit t := by
  obtain ⟨_, ⟨n, rfl, fires⟩, later, soon⟩ := fires
  have first := h.nextAfter since
  cases found : s.firstFrom (t.seconds + 1) with
  | none =>
    rw [found] at first
    exact absurd ⟨later, fires⟩ (first n)
  | some m =>
    rw [found] at first
    have least := first.2 n ⟨later, fires⟩
    refine ⟨m, found, first.1.2, first.1.1, Int.lt_of_le_of_lt ?_ soon⟩
    exact Int.mul_le_mul_of_nonneg_right least (by decide)

theorem WellFormed.looksBack (h : s.WellFormed) {t : Instant} (since : 0 ≤ t.nanos)
    (d : Duration) : s.LooksBack s.lastBefore (t.add d) := by
  intro t' fire le found
  refine h.lastBefore (Int.le_trans ?_ le) found
  exact Int.add_nonneg since (Int.natCast_nonneg d.nanos)

theorem pauseFrom_jump {fire : Instant} (inside : start.nanos < stop.nanos)
    (found : (laterBy? start limit).bind s.lastBefore = some fire)
    (later : start.nanos < fire.nanos) :
    s.pauseFrom limit stop start = s.pauseFrom limit stop fire := by
  rw [pauseFrom, dif_pos inside, found]
  exact dif_pos later

theorem pauseFrom_end (past : stop.nanos ≤ start.nanos) : s.pauseFrom limit stop start = none := by
  rw [pauseFrom, dif_neg (Int.not_lt.2 past)]

theorem pauseFrom_pause (inside : start.nanos < stop.nanos)
    (quiet : ∀ fire, (laterBy? start limit).bind s.lastBefore = some fire →
      fire.nanos ≤ start.nanos) :
    s.pauseFrom limit stop start = some ⟨start, s.nextAfter start⟩ := by
  obtain ⟨n, walk⟩ := s.walks_pauseFrom limit stop start
  exact (walk.unique (.pauses inside quiet)).2

theorem WellFormed.no_pause (h : s.WellFormed)
    (since : 0 ≤ start.nanos) (none : s.pauseFrom limit stop start = none) {t : Instant}
    (from' : start.nanos ≤ t.nanos) (before : t.nanos < stop.nanos) : s.FiresWithin limit t := by
  obtain ⟨n, walk⟩ := s.walks_pauseFrom limit stop start
  rw [none] at walk
  have looks := h.looksBack since limit
  exact h.firesWithin (Int.le_trans since from') (walk.covers looks from' before)

/-! ### The walk of a whole check -/

/-- Where the walk stops: at the end of the horizon, or at the last instant if that comes first. -/
def horizonEnd (now : Instant) (horizon : Duration) : Instant :=
  if longestLimit.nanos < horizon.nanos then Instant.last
  else (laterBy? now horizon).getD Instant.last

theorem findPause_eq (short : limit.nanos ≤ longestLimit.nanos) :
    s.findPause now limit horizon = s.pauseFrom limit (horizonEnd now horizon) now := by
  rw [findPause, if_neg (Nat.not_lt.2 short)]
  rfl

theorem lt_horizonEnd {t : Instant} (before : t.nanos < (now.add horizon).nanos)
    (representable : t.nanos < Instant.last.nanos) : t.nanos < (horizonEnd now horizon).nanos := by
  rw [horizonEnd]
  split
  · exact representable
  · rw [laterBy?]
    split
    · exact before
    · exact representable

theorem horizonEnd_le (since : 0 ≤ now.nanos) :
    (horizonEnd now horizon).nanos ≤ (now.add horizon).nanos := by
  rw [horizonEnd]
  split
  · rename_i long
    rw [show longestLimit.nanos = 9223372036854775807000000 from rfl] at long
    show (8210266876799999999999 : Int) ≤ now.nanos + horizon.nanos
    omega
  · rw [laterBy?]
    split
    · exact Int.le_refl _
    · rename_i beyond
      exact Int.le_of_lt (Int.not_le.1 beyond)

/-- Over any search that looks back, the walk comes to one end after no more jumps than there are
seconds, and if it finds no pause, the schedule fires less than the limit after every instant within
the horizon. Over the schedule's own search, it is the walk that looks for a pause. -/
theorem walk_complete (s : Schedule) (last : Instant → Option Instant) (now : Instant)
    (limit horizon : Duration) (short : limit.nanos ≤ longestLimit.nanos)
    (looks : s.LooksBack last (now.add limit)) :
    ∃ n result, Walks s last limit (horizonEnd now horizon) now n result ∧
      n ≤ ((horizonEnd now horizon).seconds + 1 - now.seconds).toNat ∧
      (∀ m result', Walks s last limit (horizonEnd now horizon) now m result' →
        n = m ∧ result = result') ∧
      (last = s.lastBefore → s.findPause now limit horizon = result) ∧
      (result = none → ∀ t : Instant, now.nanos ≤ t.nanos → t.nanos < (now.add horizon).nanos →
        t.nanos < Instant.last.nanos → s.FiresBetween limit t) := by
  obtain ⟨n, result, walk, few⟩ := Walks.exists_steps looks (horizonEnd now horizon)
  refine ⟨n, result, walk, few, fun m result' walk' => walk.unique walk', ?_, ?_⟩
  · rintro rfl
    obtain ⟨m, walk'⟩ := s.walks_pauseFrom limit (horizonEnd now horizon) now
    rw [findPause_eq short]
    exact (walk.unique walk').2.symm
  · rintro rfl t from' before representable
    exact walk.covers looks from' (lt_horizonEnd before representable)

theorem walk_complete_daily : ∃ s, ofString? "@daily" = some s ∧
    s.LooksBack s.lastBefore ((Instant.ofMillis 1750000000500).add (.ofSeconds 8640000)) ∧
    ∃ n, Walks s s.lastBefore (.ofSeconds 8640000)
        (horizonEnd (.ofMillis 1750000000500) (.ofSeconds 17280000))
        (.ofMillis 1750000000500) n none ∧
      s.FiresBetween (.ofSeconds 8640000) (.ofMillis 1760000000250) := by
  obtain ⟨s, read⟩ : ∃ s, ofString? "@daily" = some s :=
    Option.isSome_iff_exists.1 (by decide +kernel)
  have looks : s.LooksBack s.lastBefore
      ((Instant.ofMillis 1750000000500).add (.ofSeconds 8640000)) :=
    (wellFormed_of_ofString? read).looksBack (by decide) _
  have jump {start fire : Instant} (h : (ofString? "@daily").bind (fun s =>
      (laterBy? start (.ofSeconds 8640000)).bind s.lastBefore) = some fire) :
      (laterBy? start (.ofSeconds 8640000)).bind s.lastBefore = some fire := by
    rwa [read] at h
  have first : (laterBy? (.ofMillis 1750000000500) (.ofSeconds 8640000)).bind s.lastBefore =
      some (.ofSeconds 1758585600) := jump (by decide +kernel)
  have second : (laterBy? (.ofSeconds 1758585600) (.ofSeconds 8640000)).bind s.lastBefore =
      some (.ofSeconds 1767139200) := jump (by decide +kernel)
  have third : (laterBy? (.ofSeconds 1767139200) (.ofSeconds 8640000)).bind s.lastBefore =
      some (.ofSeconds 1775692800) := jump (by decide +kernel)
  have quiet : s.findPause (.ofMillis 1750000000500) (.ofSeconds 8640000) (.ofSeconds 17280000) =
      none := by
    have stop : horizonEnd (.ofMillis 1750000000500) (.ofSeconds 17280000) =
        .ofMillis 1767280000500 := by decide +kernel
    rw [findPause_eq (by decide), stop, pauseFrom_jump (by decide) first (by decide),
      pauseFrom_jump (by decide) second (by decide), pauseFrom_jump (by decide) third (by decide)]
    exact pauseFrom_end (by decide)
  obtain ⟨n, result, walk, _, _, same, covered⟩ :=
    walk_complete s s.lastBefore _ _ (.ofSeconds 17280000) (by decide) looks
  cases quiet.symm.trans (same rfl)
  exact ⟨s, read, looks, n, walk, covered rfl _ (by decide) (by decide) (by decide)⟩

/-! ### What is found -/

structure Lasts (s : Schedule) (limit : Duration) (p : Pause) : Prop where
  silent : ¬ s.FiresBetween limit p.start
  length : ∀ length, p.length = some length → limit.nanos ≤ length.nanos

/-- The blind spots of the search before an instant: the fire times that it passes over, or all of
them if there is no such instant. -/
def Misses (s : Schedule) (t : Instant) (n : Int) : Prop :=
  s.fires n = true ∧ n * 1000000000 < t.nanos ∧
    (t.nanos ≤ Instant.last.nanos → s.Overlooks (secondBefore t) n)

structure Reported (s : Schedule) (now : Instant) (limit horizon : Duration) (p : Pause) :
    Prop where
  begins : p.start = now ∨ s.FiresAt p.start ∧ now.nanos < p.start.nanos
  inside : p.start.nanos < (now.add horizon).nanos
  resumes : First (fun fire => s.FiresAt fire ∧ p.start.nanos < fire.nanos) p.resumes
  first : ∀ t : Instant, now.nanos ≤ t.nanos → t.nanos < p.start.nanos → s.FiresBetween limit t
  lasts : s.Lasts limit p ↔
    ∀ n, p.start.nanos < n * 1000000000 → ¬ s.Misses (p.start.add limit) n

theorem WellFormed.nextAfter_first (h : s.WellFormed) {t : Instant} (since : 0 ≤ t.nanos) :
    First (fun fire => s.FiresAt fire ∧ t.nanos < fire.nanos) (s.nextAfter t) := by
  have first := h.nextAfter since
  rw [Schedule.nextAfter]
  cases found : s.firstFrom (t.seconds + 1) with
  | none =>
    rw [found] at first
    rintro _ ⟨⟨n, rfl, fires⟩, later⟩
    exact first n ⟨later, fires⟩
  | some n =>
    rw [found] at first
    refine ⟨⟨⟨n, rfl, first.1.2⟩, first.1.1⟩, ?_⟩
    rintro _ ⟨⟨m, rfl, fires⟩, later⟩
    exact Int.mul_le_mul_of_nonneg_right (first.2 m ⟨later, fires⟩) (by decide)

theorem lasts_of_silent
    (resumes : First (fun fire => s.FiresAt fire ∧ p.start.nanos < fire.nanos) p.resumes)
    (silent : ¬ s.FiresBetween limit p.start) : s.Lasts limit p := by
  refine ⟨silent, fun length eq => ?_⟩
  obtain ⟨fire, found, rfl⟩ := Option.map_eq_some_iff.1 eq
  rw [found] at resumes
  obtain ⟨fires, later⟩ := resumes.1
  have late := Int.not_lt.1 fun soon => silent ⟨fire, fires, later, soon⟩
  show limit.nanos ≤ (fire.nanos - p.start.nanos).toNat
  omega

theorem WellFormed.misses (h : s.WellFormed) (since : 0 ≤ start.nanos)
    (quiet : ∀ fire, (laterBy? start limit).bind s.lastBefore = some fire →
      fire.nanos ≤ start.nanos) {n : Int} (fires : s.fires n = true)
    (later : start.nanos < n * 1000000000) (soon : n * 1000000000 < (start.add limit).nanos) :
    s.Misses (start.add limit) n := by
  refine ⟨fires, soon, fun representable => Classical.byContradiction fun seen => ?_⟩
  have last := h.lastBefore_last (t := start.add limit)
    (Int.add_nonneg since (Int.natCast_nonneg limit.nanos))
  rw [laterBy?, if_pos representable] at quiet
  cases found : s.lastFrom (secondBefore (start.add limit)) with
  | none =>
    rw [found] at last
    exact last n ⟨fires, soon, seen⟩
  | some m =>
    rw [found] at last
    have latest := last.2 n ⟨fires, soon, seen⟩
    have early : m * 1000000000 ≤ start.nanos :=
      quiet (.ofSeconds m) (congrArg (Option.map Instant.ofSeconds) found)
    omega

theorem WellFormed.findPause_reported (h : s.WellFormed) (since : 0 ≤ now.nanos)
    (short : limit.nanos ≤ longestLimit.nanos) (found : s.findPause now limit horizon = some p) :
    s.Reported now limit horizon p := by
  obtain ⟨n, walk⟩ := s.walks_pauseFrom limit (horizonEnd now horizon) now
  rw [← findPause_eq short, found] at walk
  have looks := h.looksBack since limit
  obtain ⟨begins, inside, resumes, quiet⟩ := walk.finds looks
  have since' : 0 ≤ p.start.nanos := by
    rcases begins with same | ⟨_, later⟩
    · exact same ▸ since
    · omega
  have first := resumes ▸ h.nextAfter_first since'
  refine ⟨begins, Int.lt_of_lt_of_le inside (horizonEnd_le since), first,
    fun t from' before => walk.covers looks from' before, ?_⟩
  constructor
  · rintro lasts n later ⟨fires, soon, _⟩
    exact lasts.silent ⟨.ofSeconds n, ⟨n, rfl, fires⟩, later, soon⟩
  · refine fun seen => lasts_of_silent first ?_
    rintro ⟨_, ⟨n, rfl, fires⟩, later, soon⟩
    exact seen n later (h.misses since' quiet fires later soon)

end Schedule

end SlotLease
