import SlotLease.Proofs.Calendar
import SlotLease.Schedule.Basic

namespace SlotLease

def First {α : Type} [LE α] (p : α → Prop) : Option α → Prop
  | some a => p a ∧ ∀ b, p b → a ≤ b
  | none => ∀ b, ¬ p b

namespace First

variable {p q : Nat → Prop} {values : List Nat} {found : Option Nat}

theorem congr {α : Type} [LE α] {p q : α → Prop} {found : Option α} (h : First p found)
    (same : ∀ a, q a ↔ p a) : First q found := by
  cases found with
  | none => exact fun a holds => h a ((same a).1 holds)
  | some a => exact ⟨(same a).2 h.1, fun b holds => h.2 b ((same b).1 holds)⟩

theorem add (h : First p found) (n : Nat) :
    First (fun a => ∃ b, p b ∧ a = n + b) (found.map (n + ·)) := by
  cases found with
  | none => exact fun a ⟨b, holds, _⟩ => h b holds
  | some a =>
    refine ⟨⟨a, h.1, rfl⟩, ?_⟩
    rintro _ ⟨b, holds, rfl⟩
    exact Nat.add_le_add_left (h.2 b holds) n

theorem find? {α : Type} [LE α] [LT α] [Std.IsPreorder α] [Std.LawfulOrderLT α] {values : List α}
    {p : α → Bool} (ascending : values.Pairwise (· < ·)) :
    First (fun a => a ∈ values ∧ p a = true) (values.find? p) := by
  induction values with
  | nil => simp [First]
  | cons v rest ih =>
    rw [List.pairwise_cons] at ascending
    rw [List.find?_cons]
    cases holds : p v with
    | true =>
      refine ⟨⟨List.mem_cons_self, holds⟩, fun a ⟨mem, _⟩ => ?_⟩
      rcases List.mem_cons.1 mem with rfl | mem
      · exact Std.le_refl _
      · exact Std.le_of_lt (ascending.1 a mem)
    | false =>
      refine (ih ascending.2).congr fun a => ?_
      simp only [List.mem_cons, or_and_right, or_iff_right_iff_imp]
      rintro ⟨rfl, other⟩
      rw [holds] at other
      cases other

theorem findSome? {p : Nat → Nat → Prop} {f : Nat → Option Nat}
    (ascending : values.Pairwise (· < ·)) (each : ∀ v ∈ values, First (p v) (f v))
    (order : ∀ v w a b, v < w → p v a → p w b → a ≤ b) :
    First (fun a => ∃ v ∈ values, p v a) (values.findSome? f) := by
  induction values with
  | nil => simp [First]
  | cons v rest ih =>
    rw [List.pairwise_cons] at ascending
    have here := each v List.mem_cons_self
    rw [List.findSome?_cons]
    cases found : f v with
    | some a =>
      rw [found] at here
      refine ⟨⟨v, List.mem_cons_self, here.1⟩, ?_⟩
      rintro b ⟨w, mem, holds⟩
      rcases List.mem_cons.1 mem with rfl | mem
      · exact here.2 b holds
      · exact order v w a b (ascending.1 w mem) here.1 holds
    | none =>
      rw [found] at here
      refine (ih ascending.2 fun w mem => each w (List.mem_cons_of_mem v mem)).congr fun a => ?_
      simp only [List.mem_cons, exists_eq_or_imp, or_iff_right_iff_imp]
      exact fun holds => absurd holds (here a)

end First

namespace Schedule

structure Field.Lists (f : Field) (values : List Nat) : Prop where
  ascending : values.Pairwise (· < ·)
  inRange : ∀ v ∈ values, f.least ≤ v ∧ v ≤ f.greatest

theorem Field.mem_range {f : Field} {v : Nat} : v ∈ f.range ↔ f.least ≤ v ∧ v ≤ f.greatest := by
  rw [range, List.mem_range'_1]
  omega

structure WellFormed (s : Schedule) : Prop where
  seconds : Field.second.Lists s.seconds
  minutes : Field.minute.Lists s.minutes
  hours : Field.hour.Lists s.hours
  days : Field.day.Lists s.days
  months : Field.month.Lists s.months
  weekdays : Field.weekday.Lists s.weekdays
  years : Field.year.Lists s.years

theorem Field.lists_of_values? {f : Field} {items : List Item} {values : List Nat}
    (h : f.values? items = some values) : f.Lists values := by
  rw [values?] at h
  cases parts : items.mapM (Item.values? f) with
  | none =>
    rw [parts] at h
    cases h
  | some parts' =>
    rw [parts] at h
    cases h
    refine ⟨List.Pairwise.filter _ List.pairwise_lt_range', fun v mem => ?_⟩
    obtain ⟨low, high⟩ := List.mem_range'_1.1 (List.mem_filter.1 mem).1
    have wide : f.least ≤ f.greatest := by cases f <;> decide
    omega

theorem wellFormed_of_ofString? {expression : String} (h : ofString? expression = some s) :
    s.WellFormed := by
  simp only [ofString?, Option.bind_eq_bind, Option.bind_eq_some_iff, Option.pure_def,
    Option.some.injEq] at h
  obtain ⟨_, _, _, seconds, _, minutes, _, hours, _, days, _, months, _, weekdays, _, years,
    rfl⟩ := h
  exact ⟨Field.lists_of_values? seconds, Field.lists_of_values? minutes,
    Field.lists_of_values? hours, Field.lists_of_values? days, Field.lists_of_values? months,
    Field.lists_of_values? weekdays, Field.lists_of_values? years⟩

variable {s : Schedule}

theorem atTime_iff {time : Nat} : s.atTime time = true ↔ time / 3600 ∈ s.hours ∧
    time / 60 % 60 ∈ s.minutes ∧ time % 60 ∈ s.seconds := by
  simp [atTime, and_assoc]

def firstSecond (s : Schedule) (time hour minute : Nat) : Option Nat :=
  (s.seconds.find? fun second =>
    ¬ ((hour = time / 3600 ∧ minute = time / 60 % 60) ∧ second < time % 60)).map fun second =>
      hour * 3600 + minute * 60 + second

def firstMinute (s : Schedule) (time hour : Nat) : Option Nat :=
  s.minutes.findSome? fun minute =>
    if hour = time / 3600 ∧ minute < time / 60 % 60 then none else s.firstSecond time hour minute

theorem firstTime_eq (s : Schedule) (time : Nat) : s.firstTime time =
    s.hours.findSome? fun hour => if hour < time / 3600 then none else s.firstMinute time hour :=
  rfl

def InMinute (s : Schedule) (time hour minute t : Nat) : Prop :=
  ∃ second ∈ s.seconds,
    ¬ ((hour = time / 3600 ∧ minute = time / 60 % 60) ∧ second < time % 60) ∧
      t = hour * 3600 + minute * 60 + second

def InHour (s : Schedule) (time hour t : Nat) : Prop :=
  ∃ minute ∈ s.minutes, ¬ (hour = time / 3600 ∧ minute < time / 60 % 60) ∧
    s.InMinute time hour minute t

theorem WellFormed.firstSecond (h : s.WellFormed) (time hour minute : Nat) :
    First (s.InMinute time hour minute) (s.firstSecond time hour minute) := by
  refine ((First.find? h.seconds.ascending).add (hour * 3600 + minute * 60)).congr fun t => ?_
  simp only [InMinute, decide_eq_true_eq, and_assoc]

theorem First.unless {p : Nat → Prop} {found : Option Nat} {early : Prop} [Decidable early]
    (h : First p found) : First (fun t => ¬ early ∧ p t) (if early then none else found) := by
  split
  · rename_i early
    exact fun t ⟨late, _⟩ => late early
  · rename_i late
    exact h.congr fun t => and_iff_right late

theorem WellFormed.firstMinute (h : s.WellFormed) (time hour : Nat) :
    First (s.InHour time hour) (s.firstMinute time hour) := by
  refine First.findSome? h.minutes.ascending
    (fun minute _ => First.unless (h.firstSecond time hour minute)) ?_
  rintro minute minute' t t' less ⟨_, second, mem, _, rfl⟩ ⟨_, second', _, _, rfl⟩
  have := (h.seconds.inRange second mem).2
  simp only [Field.greatest] at this
  omega

theorem WellFormed.firstTime (h : s.WellFormed) (time : Nat) :
    First (fun t => time ≤ t ∧ t < 86400 ∧ s.atTime t = true) (s.firstTime time) := by
  have bounds : ∀ minute ∈ s.minutes, ∀ second ∈ s.seconds, minute ≤ 59 ∧ second ≤ 59 :=
    fun minute mem second mem' =>
      ⟨(h.minutes.inRange minute mem).2, (h.seconds.inRange second mem').2⟩
  rw [firstTime_eq]
  refine (First.findSome? h.hours.ascending
    (fun hour _ => First.unless (h.firstMinute time hour)) ?_).congr fun t => ?_
  · rintro hour hour' t t' less ⟨_, minute, mem, _, second, mem', _, rfl⟩
      ⟨_, minute', _, _, second', _, _, rfl⟩
    have := bounds minute mem second mem'
    omega
  · rw [atTime_iff]
    constructor
    · rintro ⟨later, fits, hour, minute, second⟩
      refine ⟨t / 3600, hour, by omega, t / 60 % 60, minute, by omega, t % 60, second, by omega,
        by omega⟩
    · rintro ⟨hour, mem, late, minute, mem', late', second, mem'', late'', rfl⟩
      have := bounds minute mem' second mem''
      have : hour ≤ 23 := (h.hours.inRange hour mem).2
      have same : (hour * 3600 + minute * 60 + second) / 3600 = hour ∧
          (hour * 3600 + minute * 60 + second) / 60 % 60 = minute ∧
            (hour * 3600 + minute * 60 + second) % 60 = second := by omega
      rw [same.1, same.2.1, same.2.2]
      exact ⟨by omega, by omega, mem, mem', mem''⟩

theorem firstDay_first (s : Schedule) (count : Nat) (day : Int) :
    First (fun d => day ≤ d ∧ d < day + count ∧ s.onDay d = true) (s.firstDay count day) := by
  induction count generalizing day with
  | zero => exact fun d ⟨low, high, _⟩ => by omega
  | succ count ih =>
    rw [firstDay]
    split
    · rename_i fires
      exact ⟨⟨Int.le_refl _, by omega, fires⟩, fun d ⟨low, _, _⟩ => low⟩
    · rename_i silent
      refine (ih (day + 1)).congr fun d => ?_
      constructor
      · rintro ⟨low, high, fires⟩
        have : d ≠ day := by
          rintro rfl
          exact silent fires
        exact ⟨by omega, by omega, fires⟩
      · rintro ⟨low, high, fires⟩
        exact ⟨by omega, by omega, fires⟩

theorem fires_iff {second : Int} : s.fires second = true ↔
    s.onDay (second / 86400) = true ∧ s.atTime (second % 86400).toNat = true := by
  rw [fires, Bool.and_eq_true]

theorem WellFormed.onDay_le (h : s.WellFormed) {day : Int} (fires : s.onDay day = true) :
    day ≤ lastDay := by
  simp only [onDay, Bool.and_eq_true, List.any_eq_true, decide_eq_true_eq] at fires
  obtain ⟨⟨⟨⟨year, mem, same⟩, _⟩, _⟩, _⟩ := fires
  have bound : year ≤ 2100 := (h.years.inRange year mem).2
  have within : (Date.ofDays day).year ≤ 2100 := by omega
  have before := Date.days_of_year within
  rw [show lastDay = Date.newYear (2100 + 1) - 1 from rfl]
  omega

theorem day_and_time (day : Int) {time : Nat} (fits : time < 86400) :
    (day * 86400 + time) / 86400 = day ∧ ((day * 86400 + time) % 86400).toNat = time := by
  omega

theorem fires_at (day : Int) {time : Nat} (fits : time < 86400) :
    s.fires (day * 86400 + time) = true ↔ s.onDay day = true ∧ s.atTime time = true := by
  have split := day_and_time day fits
  rw [fires_iff, split.1, split.2]

theorem split_second (second : Int) : ∃ (day : Int) (time : Nat), time < 86400 ∧
    second = day * 86400 + time :=
  ⟨second / 86400, (second % 86400).toNat, by omega, by omega⟩

theorem WellFormed.firstLater (h : s.WellFormed) (day : Int) :
    First (fun n => (day + 1) * 86400 ≤ n ∧ s.fires n = true)
      (do
        let later ← s.firstDay (lastDay - day).toNat (day + 1)
        return later * 86400 + (← s.firstTime 0)) := by
  have days := s.firstDay_first (lastDay - day).toNat (day + 1)
  have times := h.firstTime 0
  -- a later fire time is a time of day on one of the days that are looked at
  have candidate : ∀ n, (day + 1) * 86400 ≤ n → s.fires n = true → ∃ (day' : Int) (time' : Nat),
      n = day' * 86400 + time' ∧
        (day + 1 ≤ day' ∧ day' < day + 1 + (lastDay - day).toNat ∧ s.onDay day' = true) ∧
          0 ≤ time' ∧ time' < 86400 ∧ s.atTime time' = true := by
    intro n since fires
    obtain ⟨day', time', fits, rfl⟩ := split_second n
    rw [fires_at day' fits] at fires
    have last := h.onDay_le fires.1
    exact ⟨day', time', rfl, ⟨by omega, by omega, fires.1⟩, Nat.zero_le _, fits, fires.2⟩
  cases found : s.firstDay (lastDay - day).toNat (day + 1) with
  | none =>
    rw [found] at days
    rintro n ⟨since, fires⟩
    obtain ⟨day', _, _, onDay, _⟩ := candidate n since fires
    exact days day' onDay
  | some later =>
    rw [found] at days
    cases found' : s.firstTime 0 with
    | none =>
      rw [found'] at times
      rintro n ⟨since, fires⟩
      obtain ⟨_, time', _, _, atTime⟩ := candidate n since fires
      exact times time' atTime
    | some t =>
      rw [found'] at times
      obtain ⟨⟨low, high, onDay⟩, leastDay⟩ := days
      obtain ⟨⟨_, fits, atTime⟩, leastTime⟩ := times
      refine ⟨⟨by omega, (fires_at later fits).2 ⟨onDay, atTime⟩⟩, fun n ⟨since, fires⟩ => ?_⟩
      obtain ⟨day', time', rfl, onDay', atTime'⟩ := candidate n since fires
      have := leastDay day' onDay'
      have := leastTime time' atTime'
      omega

theorem WellFormed.firstFrom (h : s.WellFormed) {second : Int} (since : 0 ≤ second) :
    First (fun n => second ≤ n ∧ s.fires n = true) (s.firstFrom second) := by
  obtain ⟨day, time, fits, rfl⟩ := split_second second
  have split := day_and_time day fits
  have year := Date.year_of_days (show 0 ≤ day by omega)
  have today : First (fun t => time ≤ t ∧ t < 86400 ∧ s.onDay day = true ∧ s.atTime t = true)
      (if s.onDay day then s.firstTime time else none) := by
    split
    · rename_i fires
      exact (h.firstTime time).congr fun t => by simp [fires]
    · rename_i silent
      exact fun t ⟨_, _, fires, _⟩ => silent fires
  rw [Schedule.firstFrom, split.1, if_neg (by omega), Int.max_eq_left since]
  simp only [split.1, split.2]
  cases found : (if s.onDay day then s.firstTime time else none) with
  | some t =>
    rw [found] at today
    obtain ⟨⟨later, fits', fires⟩, least⟩ := today
    refine ⟨⟨by omega, (fires_at day fits').2 fires⟩, fun n ⟨since, fires⟩ => ?_⟩
    obtain ⟨day', time', fits'', rfl⟩ := split_second n
    rw [fires_at day' fits''] at fires
    rcases Int.lt_or_eq_of_le (show day ≤ day' by omega) with after | rfl
    · omega
    · have := least time' ⟨by omega, fits'', fires⟩
      omega
  | none =>
    rw [found] at today
    refine (h.firstLater day).congr fun n => ?_
    constructor
    · rintro ⟨since, fires⟩
      refine ⟨?_, fires⟩
      obtain ⟨day', time', fits', rfl⟩ := split_second n
      rw [fires_at day' fits'] at fires
      rcases Int.lt_or_eq_of_le (show day ≤ day' by omega) with after | rfl
      · omega
      · exact absurd ⟨by omega, fits', fires⟩ (today time')
    · rintro ⟨since, fires⟩
      exact ⟨by omega, fires⟩

theorem WellFormed.nextAfter (h : s.WellFormed) {t : Instant} (since : 0 ≤ t.nanos) :
    First (fun n => t.nanos < n * 1000000000 ∧ s.fires n = true)
      (s.firstFrom (t.seconds + 1)) := by
  have seconds : t.seconds = t.nanos / 1000000000 := rfl
  refine (h.firstFrom (by omega)).congr fun n => and_congr_left fun _ => ?_
  omega

end Schedule

end SlotLease
