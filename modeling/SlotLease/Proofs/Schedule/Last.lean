import SlotLease.Proofs.Schedule.Next

/-!
A fire time before an instant. The search goes down from the fields of the instant; as long as the
values taken are those of the instant it goes on below them, and once one is less the others may be
anything. So what it finds is the latest fire time before the instant, unless the schedule has
nothing for the year of the instant: then the fields are held against those of an earlier year, and
the fire times of that year behind them are overlooked.
-/

namespace SlotLease

def Last {α : Type} [LE α] (p : α → Prop) : Option α → Prop
  | some a => p a ∧ ∀ b, p b → b ≤ a
  | none => ∀ b, ¬ p b

namespace Last

variable {α β : Type} [LE α] [LE β] {p q : α → Prop} {values : List Nat} {found : Option α}
  {top : Nat}

theorem congr (h : Last p found) (same : ∀ a, q a ↔ p a) : Last q found := by
  cases found with
  | none => exact fun a holds => h a ((same a).1 holds)
  | some a => exact ⟨(same a).2 h.1, fun b holds => h.2 b ((same b).1 holds)⟩

theorem map {f : α → β} (h : Last p found) (mono : ∀ a b, a ≤ b → f a ≤ f b) :
    Last (fun b => ∃ a, p a ∧ b = f a) (found.map f) := by
  cases found with
  | none => exact fun b ⟨a, holds, _⟩ => h a holds
  | some a =>
    refine ⟨⟨a, h.1, rfl⟩, ?_⟩
    rintro _ ⟨b, holds, rfl⟩
    exact mono b a (h.2 b holds)

theorem findSome? {p : Nat → α → Prop} {f : Nat → Option α} (descending : values.Pairwise (· > ·))
    (each : ∀ v ∈ values, Last (p v) (f v)) (order : ∀ v w a b, v < w → p v a → p w b → a ≤ b) :
    Last (fun a => ∃ v ∈ values, p v a) (values.findSome? f) := by
  induction values with
  | nil => simp [Last]
  | cons v rest ih =>
    rw [List.pairwise_cons] at descending
    have here := each v List.mem_cons_self
    rw [List.findSome?_cons]
    cases found : f v with
    | some a =>
      rw [found] at here
      refine ⟨⟨v, List.mem_cons_self, here.1⟩, ?_⟩
      rintro b ⟨w, mem, holds⟩
      rcases List.mem_cons.1 mem with rfl | mem
      · exact here.2 b holds
      · exact order w v b a (descending.1 w mem) holds here.1
    | none =>
      rw [found] at here
      refine (ih descending.2 fun w mem => each w (List.mem_cons_of_mem v mem)).congr fun a => ?_
      simp only [List.mem_cons, exists_eq_or_imp, or_iff_right_iff_imp]
      exact fun holds => absurd holds (here a)

end Last

namespace Schedule

variable {s : Schedule} {start : Fields} {values : List Nat} {top : Nat}

theorem mem_downFrom {v : Nat} : v ∈ downFrom values top ↔ v ∈ values ∧ v ≤ top := by
  simp [downFrom]

theorem downFrom_descending (ascending : values.Pairwise (· < ·)) (top : Nat) :
    (downFrom values top).Pairwise (· > ·) :=
  List.pairwise_reverse.2 (ascending.filter _)

theorem head?_downFrom (ascending : values.Pairwise (· < ·)) :
    Last (fun v => v ∈ values ∧ v ≤ top) (downFrom values top).head? := by
  have descending := downFrom_descending ascending top
  cases list : downFrom values top with
  | nil =>
    intro v mem
    have listed := mem_downFrom.2 mem
    rw [list] at listed
    cases listed
  | cons first rest =>
    rw [list, List.pairwise_cons] at descending
    refine ⟨mem_downFrom.1 (list ▸ List.mem_cons_self), fun v mem => ?_⟩
    have listed := mem_downFrom.2 mem
    rw [list] at listed
    rcases List.mem_cons.1 listed with rfl | later
    · exact Nat.le_refl v
    · exact Nat.le_of_lt (descending.1 v later)

section SearchDown

variable {α : Type} [LE α] (search : Bool → Nat → Option α) (q r : Nat → α → Prop)

theorem searchDown_last (ascending : values.Pairwise (· < ·)) (flag : Bool) (top : Nat)
    (each : ∀ v ∈ values, v ≤ top → ∀ bound,
      Last (fun a => q v a ∧ (bound = true → r v a)) (search bound v))
    (order : ∀ v w a b, v < w → q v a → q w b → a ≤ b) :
    Last (fun a => ∃ v ∈ values, v ≤ top ∧ q v a ∧
        (flag = true → (∀ w ∈ values, w ≤ top → w ≤ v) → r v a))
      (searchDown search flag (downFrom values top)) := by
  have descending := downFrom_descending ascending top
  have mem : ∀ v, v ∈ downFrom values top ↔ v ∈ values ∧ v ≤ top := fun v => mem_downFrom
  cases list : downFrom values top with
  | nil =>
    rintro a ⟨v, here, le, _⟩
    have := (mem v).2 ⟨here, le⟩
    rw [list] at this
    cases this
  | cons first rest =>
    rw [list] at descending mem
    rw [List.pairwise_cons] at descending
    obtain ⟨here, le⟩ := (mem first).1 List.mem_cons_self
    have greatest : ∀ w ∈ values, w ≤ top → w ≤ first := by
      intro w mem' le'
      rcases List.mem_cons.1 ((mem w).2 ⟨mem', le'⟩) with rfl | later
      · exact Nat.le_refl w
      · exact Nat.le_of_lt (descending.1 w later)
    -- the bound is laid on the first value only, so the values after it are searched without one
    have atFirst := each first here le flag
    rw [searchDown]
    cases found : search flag first with
    | some a =>
      rw [found] at atFirst
      refine ⟨⟨first, here, le, atFirst.1.1, fun bound _ => atFirst.1.2 bound⟩, ?_⟩
      rintro b ⟨v, mem', le', holds, bound⟩
      rcases Nat.lt_or_eq_of_le (greatest v mem' le') with less | rfl
      · exact order v first b a less holds atFirst.1.1
      · exact atFirst.2 b ⟨holds, fun flag => bound flag greatest⟩
    | none =>
      rw [found] at atFirst
      have later : Last (fun a => ∃ v ∈ rest, q v a) (rest.findSome? (search false)) := by
        refine Last.findSome? descending.2 (fun v mem' => ?_) order
        obtain ⟨here', le'⟩ := (mem v).1 (List.mem_cons_of_mem first mem')
        exact (each v here' le' false).congr fun a => by simp
      refine later.congr fun a => ?_
      constructor
      · rintro ⟨v, mem', le', holds, bound⟩
        rcases List.mem_cons.1 ((mem v).2 ⟨mem', le'⟩) with rfl | mem''
        · exact absurd ⟨holds, fun flag => bound flag greatest⟩ (atFirst a)
        · exact ⟨v, mem'', holds⟩
      · rintro ⟨v, mem', holds⟩
        obtain ⟨here', le'⟩ := (mem v).1 (List.mem_cons_of_mem first mem')
        have less := descending.1 v mem'
        exact ⟨v, here', le', holds, fun _ most => absurd (most first here le) (Nat.not_le.2 less)⟩

theorem Field.Lists.searchDown_last {f : Field} (h : f.Lists values) (bound : Bool) (here : Nat)
    (each : ∀ v ∈ values, ∀ bound,
      Last (fun a => q v a ∧ (bound = true → r v a)) (search bound v))
    (order : ∀ v w a b, v < w → q v a → q w b → a ≤ b) :
    let top := if bound then here else f.greatest
    Last (fun a => ∃ v ∈ values, q v a ∧ (bound = true → v < here ∨ v = here ∧ r v a))
      (searchDown search (bound && values.contains top) (downFrom values top)) := by
  intro top
  refine (Schedule.searchDown_last search q r h.ascending _ top (fun v mem _ => each v mem)
    order).congr fun a => ?_
  cases bound with
  | false =>
    constructor
    · rintro ⟨v, mem, holds, _⟩
      exact ⟨v, mem, (h.inRange v mem).2, holds, nofun⟩
    · rintro ⟨v, mem, _, holds, _⟩
      exact ⟨v, mem, holds, nofun⟩
  | true =>
    constructor
    · rintro ⟨v, mem, holds, order⟩
      rcases order rfl with less | ⟨rfl, reached⟩
      · refine ⟨v, mem, Nat.le_of_lt less, holds, fun flag most => ?_⟩
        have contained : here ∈ values := by simpa [top] using flag
        exact absurd (most here contained (Nat.le_refl here)) (Nat.not_le.2 less)
      · exact ⟨v, mem, Nat.le_refl v, holds, fun _ _ => reached⟩
    · rintro ⟨v, mem, le, holds, reached⟩
      refine ⟨v, mem, holds, fun _ => ?_⟩
      rcases Nat.lt_or_eq_of_le le with less | same
      · exact .inl less
      · refine .inr ⟨same, reached ?_ fun w _ le' => Nat.le_trans le' (Nat.le_of_eq same.symm)⟩
        simpa [← same] using mem

end SearchDown

/-! ### The time of day -/

def Fields.time (start : Fields) : Nat := start.hour * 3600 + start.minute * 60 + start.second

structure Fields.Fit (start : Fields) : Prop where
  minute : start.minute < 60
  second : start.second < 60

theorem Fields.fit_ofSecond (second : Int) : (Fields.ofSecond second).Fit :=
  ⟨Nat.mod_lt _ (by decide), Nat.mod_lt _ (by decide)⟩

theorem WellFormed.lastSecond (h : s.WellFormed) (start : Fields) (bound : Bool) :
    Last (fun second => second ∈ s.seconds ∧ (bound = true → second ≤ start.second))
      (s.lastSecond start bound) := by
  refine (head?_downFrom h.seconds.ascending).congr fun second => and_congr_right fun mem => ?_
  cases bound with
  | true => simp
  | false => simpa using (h.seconds.inRange second mem).2

theorem WellFormed.lastMinute (h : s.WellFormed) (fit : start.Fit) (bound : Bool) :
    Last (fun t => (∃ minute ∈ s.minutes, ∃ second ∈ s.seconds, t = minute * 60 + second) ∧
        (bound = true → t ≤ start.minute * 60 + start.second))
      (s.lastMinute start bound) := by
  have short : ∀ second ∈ s.seconds, second ≤ 59 := fun second mem =>
    (h.seconds.inRange second mem).2
  have within := fit.second
  have search := h.minutes.searchDown_last
    (fun bound minute => (s.lastSecond start bound).map (minute * 60 + ·))
    (fun minute t => ∃ second ∈ s.seconds, t = minute * 60 + second)
    (fun minute t => t ≤ minute * 60 + start.second) bound start.minute
    (fun minute _ bound => by
      refine ((h.lastSecond start bound).map fun a b le =>
        Nat.add_le_add_left le _).congr fun t => ?_
      constructor
      · rintro ⟨⟨second, mem, rfl⟩, le⟩
        exact ⟨second, ⟨mem, fun bound => Nat.le_of_add_le_add_left (le bound)⟩, rfl⟩
      · rintro ⟨second, ⟨mem, le⟩, rfl⟩
        exact ⟨⟨second, mem, rfl⟩, fun bound => Nat.add_le_add_left (le bound) _⟩)
    (by
      rintro minute minute' _ _ less ⟨second, mem, rfl⟩ ⟨second', _, rfl⟩
      have := short second mem
      omega)
  refine search.congr fun t => ?_
  constructor
  · rintro ⟨⟨minute, mem, second, mem', rfl⟩, le⟩
    have := short second mem'
    exact ⟨minute, mem, ⟨second, mem', rfl⟩, fun bound => by
      have := le bound
      omega⟩
  · rintro ⟨minute, mem, ⟨second, mem', rfl⟩, le⟩
    have := short second mem'
    exact ⟨⟨minute, mem, second, mem', rfl⟩, fun bound => by
      have := le bound
      omega⟩

theorem WellFormed.lastTime (h : s.WellFormed) (fit : start.Fit) (bound : Bool) :
    Last (fun t => (t < 86400 ∧ s.atTime t = true) ∧ (bound = true → t ≤ start.time))
      (s.lastTime start bound) := by
  have short : ∀ minute ∈ s.minutes, ∀ second ∈ s.seconds, minute ≤ 59 ∧ second ≤ 59 :=
    fun minute mem second mem' =>
      ⟨(h.minutes.inRange minute mem).2, (h.seconds.inRange second mem').2⟩
  obtain ⟨within, within'⟩ := fit
  have search := h.hours.searchDown_last
    (fun bound hour => (s.lastMinute start bound).map (hour * 3600 + ·))
    (fun hour t => ∃ minute ∈ s.minutes, ∃ second ∈ s.seconds,
      t = hour * 3600 + (minute * 60 + second))
    (fun hour t => t ≤ hour * 3600 + (start.minute * 60 + start.second)) bound start.hour
    (fun hour _ bound => by
      refine ((h.lastMinute ⟨within, within'⟩ bound).map fun a b le =>
        Nat.add_le_add_left le _).congr fun t => ?_
      constructor
      · rintro ⟨⟨minute, mem, second, mem', rfl⟩, le⟩
        exact ⟨_, ⟨⟨minute, mem, second, mem', rfl⟩, fun bound =>
          Nat.le_of_add_le_add_left (le bound)⟩, rfl⟩
      · rintro ⟨_, ⟨⟨minute, mem, second, mem', rfl⟩, le⟩, rfl⟩
        exact ⟨⟨minute, mem, second, mem', rfl⟩, fun bound => Nat.add_le_add_left (le bound) _⟩)
    (by
      rintro hour hour' _ _ less ⟨minute, mem, second, mem', rfl⟩ ⟨minute', _, second', _, rfl⟩
      have := short minute mem second mem'
      omega)
  refine search.congr fun t => ?_
  rw [atTime_iff, Fields.time]
  constructor
  · rintro ⟨⟨fits, hour, minute, second⟩, le⟩
    refine ⟨t / 3600, hour, ⟨t / 60 % 60, minute, t % 60, second, by omega⟩, fun bound => ?_⟩
    have := le bound
    omega
  · rintro ⟨hour, mem, ⟨minute, mem', second, mem'', rfl⟩, le⟩
    have := short minute mem' second mem''
    have : hour ≤ 23 := (h.hours.inRange hour mem).2
    have split : (hour * 3600 + (minute * 60 + second)) / 3600 = hour ∧
        (hour * 3600 + (minute * 60 + second)) / 60 % 60 = minute ∧
          (hour * 3600 + (minute * 60 + second)) % 60 = second := by omega
    rw [split.1, split.2.1, split.2.2]
    refine ⟨⟨by omega, mem, mem', mem''⟩, fun bound => ?_⟩
    have := le bound
    omega

/-! ### The day -/

structure Found (s : Schedule) (date : Date) (time : Nat) : Prop where
  valid : date.Valid
  onDay : s.onDay date.toDays = true
  fits : time < 86400
  atTime : s.atTime time = true

theorem onDay_toDays {date : Date} (valid : date.Valid) : s.onDay date.toDays = true ↔
    (∃ year ∈ s.years, (year : Int) = date.year) ∧ date.month ∈ s.months ∧ date.day ∈ s.days ∧
      Date.weekday date.toDays ∈ s.weekdays := by
  simp [onDay, Date.ofDays_toDays valid, and_assoc]

def secondAt (date : Date) (time : Nat) : Int := date.toDays * 86400 + time

/-- The day of the month is no later than that of the start, and on the day the time is no later if
it has to be: on the last such day of the month that the schedule has, as long as it has the day of
the start. -/
def Fields.WithinMonth (start : Fields) (s : Schedule) (date : Date) (time : Nat) : Prop :=
  date.day ≤ start.date.day ∧ (start.date.day ∈ s.days →
    (∀ day ∈ s.days, day ≤ start.date.day → day ≤ Date.daysInMonth date.year date.month →
      day ≤ date.day) → time ≤ start.time)

def Fields.WithinYear (start : Fields) (s : Schedule) (date : Date) (time : Nat) : Prop :=
  date.month < start.date.month ∨ date.month = start.date.month ∧ start.WithinMonth s date time

theorem secondAt_lt {a b : Date} {time time' : Nat} (before : a.Before b) (valid : a.Valid)
    (valid' : b.Valid) (fits : time < 86400) : secondAt a time < secondAt b time' := by
  have := before.toDays_lt valid valid'
  rw [secondAt, secondAt]
  omega

theorem secondAt_le {date : Date} {time time' : Nat} :
    secondAt date time ≤ secondAt date time' ↔ time ≤ time' := by
  rw [secondAt, secondAt]
  omega

theorem WellFormed.lastOnDay (h : s.WellFormed) (fit : start.Fit) {date : Date} (valid : date.Valid)
    (year : ∃ year ∈ s.years, (year : Int) = date.year) (month : date.month ∈ s.months)
    (day : date.day ∈ s.days) (bound : Bool) :
    Last (fun n => (∃ time, s.Found date time ∧ n = secondAt date time) ∧
        (bound = true → n ≤ secondAt date start.time))
      (if s.weekdays.contains (Date.weekday date.toDays) then
        (s.lastTime start bound).map (date.toDays * 86400 + ·)
      else none) := by
  split
  · rename_i weekday
    have onDay : s.onDay date.toDays = true :=
      (onDay_toDays valid).2 ⟨year, month, day, List.contains_iff_mem.1 weekday⟩
    have mono : ∀ a b, a ≤ b → secondAt date a ≤ secondAt date b := fun a b => secondAt_le.2
    have same : (s.lastTime start bound).map (date.toDays * 86400 + ·) =
        (s.lastTime start bound).map (secondAt date) := by
      cases s.lastTime start bound <;> rfl
    rw [same]
    refine ((h.lastTime fit bound).map mono).congr fun n => ?_
    constructor
    · rintro ⟨⟨time, found, rfl⟩, le⟩
      exact ⟨time, ⟨⟨found.fits, found.atTime⟩, fun bound => secondAt_le.1 (le bound)⟩, rfl⟩
    · rintro ⟨time, ⟨⟨fits, atTime⟩, le⟩, rfl⟩
      exact ⟨⟨time, ⟨valid, onDay, fits, atTime⟩, rfl⟩, fun bound => secondAt_le.2 (le bound)⟩
  · rename_i other
    rintro n ⟨⟨time, found, _⟩, _⟩
    exact other (List.contains_iff_mem.2 ((onDay_toDays valid).1 found.onDay).2.2.2)

theorem WellFormed.lastInMonth (h : s.WellFormed) (fit : start.Fit) {year month : Nat}
    (mem : year ∈ s.years) (mem' : month ∈ s.months) (bound : Bool) :
    Last (fun n => ∃ day time, s.Found ⟨year, month, day⟩ time ∧
        n = secondAt ⟨year, month, day⟩ time ∧
        (bound = true → start.WithinMonth s ⟨year, month, day⟩ time))
      (s.lastInMonth start year month bound) := by
  have months := h.months.inRange month mem'
  have search := searchDown_last
    (fun bound day =>
      if s.weekdays.contains (Date.weekday (Date.toDays ⟨year, month, day⟩)) then
        (s.lastTime start bound).map (Date.toDays ⟨year, month, day⟩ * 86400 + ·)
      else none)
    (fun day n => ∃ time, s.Found ⟨year, month, day⟩ time ∧ n = secondAt ⟨year, month, day⟩ time)
    (fun day n => n ≤ secondAt ⟨year, month, day⟩ start.time) h.days.ascending
    (bound && s.days.contains (if bound then start.date.day else 31))
    (min (if bound then start.date.day else 31) (Date.daysInMonth year month))
    (fun day mem'' le => h.lastOnDay fit
      ⟨months, (h.days.inRange day mem'').1, Nat.le_trans le (Nat.min_le_right _ _)⟩
      ⟨year, mem, rfl⟩ mem' mem'')
    (by
      rintro day day' _ _ less ⟨time, found, rfl⟩ ⟨time', found', rfl⟩
      exact Int.le_of_lt (secondAt_lt (.inr ⟨rfl, .inr ⟨rfl, less⟩⟩) found.valid found'.valid
        found.fits))
  refine search.congr fun n => ?_
  constructor
  · rintro ⟨day, time, found, rfl, within⟩
    have day_mem := ((onDay_toDays found.valid).1 found.onDay).2.2.1
    refine ⟨day, day_mem, Nat.le_min.2 ⟨?_, found.valid.day.2⟩, ⟨time, found, rfl⟩, ?_⟩
    · cases bound with
      | true => exact (within rfl).1
      | false => exact (h.days.inRange day day_mem).2
    · intro flag greatest
      rw [Bool.and_eq_true] at flag
      obtain ⟨rfl, here⟩ := flag
      refine secondAt_le.2 ((within rfl).2 (List.contains_iff_mem.1 here) ?_)
      exact fun day' mem le le' => greatest day' mem (Nat.le_min.2 ⟨le, le'⟩)
  · rintro ⟨day, _, le, ⟨time, found, rfl⟩, reached⟩
    refine ⟨day, time, found, rfl, ?_⟩
    rintro rfl
    refine ⟨(Nat.le_min.1 le).1, fun here greatest => secondAt_le.1 (reached ?_ ?_)⟩
    · exact List.contains_iff_mem.2 here
    · exact fun day' mem le => greatest day' mem (Nat.le_min.1 le).1 (Nat.le_min.1 le).2

theorem WellFormed.lastInYear (h : s.WellFormed) (fit : start.Fit) {year : Nat}
    (mem : year ∈ s.years) (bound : Bool) :
    Last (fun n => ∃ (date : Date) (time : Nat), date.year = year ∧ s.Found date time ∧
        n = secondAt date time ∧ (bound = true → start.WithinYear s date time))
      (s.lastInYear start year bound) := by
  have search := h.months.searchDown_last
    (fun bound month => s.lastInMonth start year month bound)
    (fun month n => ∃ day time, s.Found ⟨year, month, day⟩ time ∧
      n = secondAt ⟨year, month, day⟩ time)
    (fun month n => ∃ day time, s.Found ⟨year, month, day⟩ time ∧
      n = secondAt ⟨year, month, day⟩ time ∧ start.WithinMonth s ⟨year, month, day⟩ time)
    bound start.date.month
    (fun month mem' bound => by
      refine (h.lastInMonth fit mem mem' bound).congr fun n => ?_
      cases bound with
      | true => exact ⟨fun ⟨_, reached⟩ => by simpa using reached rfl,
          fun ⟨day, time, found, eq, within⟩ =>
            ⟨⟨day, time, found, eq⟩, fun _ => ⟨day, time, found, eq, within rfl⟩⟩⟩
      | false => simp)
    (by
      rintro month month' _ _ less ⟨day, time, found, rfl⟩ ⟨day', time', found', rfl⟩
      exact Int.le_of_lt (secondAt_lt (.inr ⟨rfl, .inl less⟩) found.valid found'.valid found.fits))
  refine search.congr fun n => ?_
  constructor
  · rintro ⟨⟨_, month, day⟩, time, rfl, found, rfl, within⟩
    have month_mem := ((onDay_toDays found.valid).1 found.onDay).2.1
    refine ⟨month, month_mem, ⟨day, time, found, rfl⟩, fun bound => ?_⟩
    exact (within bound).imp_right fun ⟨same, within⟩ => ⟨same, day, time, found, rfl, within⟩
  · rintro ⟨month, _, ⟨day, time, found, rfl⟩, reached⟩
    cases bound with
    | false => exact ⟨_, time, rfl, found, rfl, nofun⟩
    | true =>
      rcases reached rfl with less | ⟨same, day, time, found, eq, within⟩
      · exact ⟨_, time, rfl, found, rfl, fun _ => .inl less⟩
      · exact ⟨_, time, rfl, found, eq, fun _ => .inr ⟨same, within⟩⟩

/-! ### The year -/

theorem Fields.ofSecond_secondAt {date : Date} {time : Nat} (valid : date.Valid)
    (fits : time < 86400) : (Fields.ofSecond (secondAt date time)).date = date ∧
      (Fields.ofSecond (secondAt date time)).time = time := by
  obtain ⟨day, rest⟩ := day_and_time date.toDays fits
  refine ⟨?_, ?_⟩
  · rw [secondAt, ofSecond, day, Date.ofDays_toDays valid]
  · simp only [secondAt, ofSecond, Fields.time, rest]
    omega

theorem Fields.secondAt_ofSecond (n : Int) :
    secondAt (Fields.ofSecond n).date (Fields.ofSecond n).time = n := by
  simp only [secondAt, ofSecond, Date.toDays_ofDays, Fields.time]
  omega

theorem Fields.valid_ofSecond (n : Int) : (Fields.ofSecond n).date.Valid := Date.ofDays_valid _

theorem Fields.time_ofSecond (n : Int) : (Fields.ofSecond n).time < 86400 := by
  simp only [ofSecond, Fields.time]
  omega

theorem Fields.year_mono {n m : Int} (le : n ≤ m) :
    (Fields.ofSecond n).date.year ≤ (Fields.ofSecond m).date.year := by
  refine Int.not_lt.1 fun earlier => ?_
  have before : secondAt (Fields.ofSecond m).date (Fields.ofSecond m).time <
      secondAt (Fields.ofSecond n).date (Fields.ofSecond n).time :=
    secondAt_lt (.inl earlier) (valid_ofSecond m) (valid_ofSecond n) (time_ofSecond m)
  rw [secondAt_ofSecond, secondAt_ofSecond] at before
  omega

theorem found_iff {n : Int} : s.fires n = true ↔
    s.Found (Fields.ofSecond n).date (Fields.ofSecond n).time := by
  have fits := Fields.time_ofSecond n
  have fires := s.fires_at (Fields.ofSecond n).date.toDays fits
  rw [show (Fields.ofSecond n).date.toDays * 86400 + ((Fields.ofSecond n).time : Int) = n from
    Fields.secondAt_ofSecond n] at fires
  rw [fires]
  exact ⟨fun ⟨onDay, atTime⟩ => ⟨Fields.valid_ofSecond n, onDay, fits, atTime⟩,
    fun found => ⟨found.onDay, found.atTime⟩⟩

theorem Found.withinYear_iff {date : Date} {time : Nat} (found : s.Found date time)
    (valid : start.date.Valid) (fits : start.time < 86400) (same : date.year = start.date.year) :
    start.WithinYear s date time ↔ secondAt date time ≤ secondAt start.date start.time := by
  have day_mem := ((onDay_toDays found.valid).1 found.onDay).2.2.1
  rcases Date.before_trichotomy date start.date with before | equal | after
  · refine iff_of_true ?_ (Int.le_of_lt (secondAt_lt before found.valid valid found.fits))
    rcases before with less | ⟨_, less | ⟨same', less⟩⟩
    · omega
    · exact .inl less
    · refine .inr ⟨same', Nat.le_of_lt less, fun here greatest => ?_⟩
      have latest := greatest start.date.day here (Nat.le_refl _) (by
        rw [same, same']
        exact valid.day.2)
      omega
  · rw [Fields.WithinYear, Fields.WithinMonth, ← equal, secondAt_le]
    constructor
    · rintro (less | ⟨_, _, bound⟩)
      · omega
      · exact bound day_mem fun day _ le _ => le
    · exact fun le => .inr ⟨rfl, Nat.le_refl _, fun _ _ => le⟩
  · refine iff_of_false ?_ (Int.not_le.2 (secondAt_lt after valid found.valid fits))
    rintro (less | ⟨same', le, _⟩) <;> rcases after with less' | ⟨_, less' | ⟨_, less'⟩⟩ <;> omega

/-- A fire time that a search back from a second passes over: none of the schedule's years is that
of the second, and in the last of its years before it, month and day of the fire time are later. -/
structure Overlooks (s : Schedule) (second n : Int) : Prop where
  fires : s.fires n = true
  before : n ≤ second
  unscheduled : ∀ year ∈ s.years, (year : Int) ≠ (Fields.ofSecond second).date.year
  nearest : ∀ year ∈ s.years, (year : Int) ≤ (Fields.ofSecond second).date.year →
    (year : Int) ≤ (Fields.ofSecond n).date.year
  later : ¬ (Fields.ofSecond second).WithinYear s (Fields.ofSecond n).date (Fields.ofSecond n).time

theorem WellFormed.lastFrom (h : s.WellFormed) {second : Int}
    (since : 0 ≤ (Fields.ofSecond second).date.year) :
    Last (fun n => s.fires n = true ∧ n ≤ second ∧ ¬ s.Overlooks second n) (s.lastFrom second) := by
  have within : ∀ n, s.fires n = true →
      (Fields.ofSecond n).date.year = (Fields.ofSecond second).date.year →
        ((Fields.ofSecond second).WithinYear s (Fields.ofSecond n).date (Fields.ofSecond n).time ↔
          n ≤ second) := by
    intro n fires same
    rw [(found_iff.1 fires).withinYear_iff (Fields.valid_ofSecond second)
      (Fields.time_ofSecond second) same, Fields.secondAt_ofSecond, Fields.secondAt_ofSecond]
  have years : s.lastFrom second =
      searchDown (fun bound year => s.lastInYear (Fields.ofSecond second) year bound) true
        (downFrom s.years (Fields.ofSecond second).date.year.toNat) := by
    rw [Schedule.lastFrom, if_neg (Int.not_lt.2 since)]
  rw [years]
  refine (searchDown_last (fun bound year => s.lastInYear (Fields.ofSecond second) year bound)
    (fun year n => s.fires n = true ∧ (Fields.ofSecond n).date.year = year)
    (fun _ n => (Fields.ofSecond second).WithinYear s (Fields.ofSecond n).date
      (Fields.ofSecond n).time) h.years.ascending true _ ?_ ?_).congr fun n => ?_
  · intro year mem _ bound
    refine (h.lastInYear (Fields.fit_ofSecond second) mem bound).congr fun n => ?_
    constructor
    · rintro ⟨⟨fires, same⟩, within⟩
      exact ⟨_, _, same, found_iff.1 fires, (Fields.secondAt_ofSecond n).symm, within⟩
    · rintro ⟨date, time, same, found, rfl, within⟩
      obtain ⟨date_eq, time_eq⟩ := Fields.ofSecond_secondAt found.valid found.fits
      have fires : s.fires (secondAt date time) = true := found_iff.2 (by rwa [date_eq, time_eq])
      rw [date_eq, time_eq]
      exact ⟨⟨fires, same⟩, within⟩
  · rintro year year' n m less ⟨_, same⟩ ⟨_, same'⟩
    refine Int.not_lt.1 fun after => ?_
    have := Fields.year_mono (Int.le_of_lt after)
    omega
  · constructor
    · rintro ⟨fires, before, seen⟩
      obtain ⟨year, mem, same⟩ := ((onDay_toDays (Fields.valid_ofSecond n)).1
        (found_iff.1 fires).onDay).1
      have earlier := Fields.year_mono before
      refine ⟨year, mem, by omega, ⟨fires, same.symm⟩, fun _ greatest => ?_⟩
      -- where the schedule has not the year of the start, the bound falls on an earlier year
      by_cases scheduled : ∃ year ∈ s.years, (year : Int) = (Fields.ofSecond second).date.year
      · obtain ⟨top, mem', same'⟩ := scheduled
        have := greatest top mem' (by omega)
        exact (within n fires (by omega)).2 before
      · refine Classical.byContradiction fun later => seen ⟨fires, before, ?_, ?_, later⟩
        · exact fun year mem same => scheduled ⟨year, mem, same⟩
        · intro year' mem' le
          have := greatest year' mem' (by omega)
          omega
    · rintro ⟨year, mem, le, ⟨fires, same⟩, reached⟩
      have nearest : (∀ w ∈ s.years, (w : Int) ≤ (Fields.ofSecond second).date.year →
          (w : Int) ≤ (Fields.ofSecond n).date.year) → (Fields.ofSecond second).WithinYear s
            (Fields.ofSecond n).date (Fields.ofSecond n).time := fun nearest =>
        reached rfl fun w mem' le' => by
          have := nearest w mem' (by omega)
          omega
      refine ⟨fires, ?_, fun overlooked => overlooked.later (nearest overlooked.nearest)⟩
      rcases Int.lt_or_eq_of_le (show (Fields.ofSecond n).date.year ≤
          (Fields.ofSecond second).date.year by omega) with less | same'
      · refine Int.not_lt.1 fun after => ?_
        have := Fields.year_mono (Int.le_of_lt after)
        omega
      · exact (within n fires same').1 (nearest fun w _ le' => by omega)

/-! ### Before an instant -/

def FiresAt (s : Schedule) (t : Instant) : Prop := ∃ n, t = .ofSeconds n ∧ s.fires n = true

def secondBefore (t : Instant) : Int := (t.nanos - 1) / 1000000000

theorem WellFormed.lastBefore_last (h : s.WellFormed) {t : Instant} (since : 0 ≤ t.nanos) :
    Last (fun n => s.fires n = true ∧ n * 1000000000 < t.nanos ∧
      ¬ s.Overlooks (secondBefore t) n) (s.lastFrom (secondBefore t)) := by
  have year : 0 ≤ (Date.ofDays (secondBefore t / 86400)).year := by
    refine Int.not_lt.1 fun early => ?_
    have days := Date.days_of_year (Int.le_sub_one_of_lt early)
    rw [show Date.newYear (0 - 1 + 1) = -719528 from rfl, secondBefore] at days
    omega
  refine (h.lastFrom year).congr fun n => and_congr_right fun _ => and_congr_left fun _ => ?_
  rw [secondBefore]
  omega

theorem WellFormed.lastBefore (h : s.WellFormed) {t fire : Instant} (since : 0 ≤ t.nanos)
    (found : s.lastBefore t = some fire) : s.FiresAt fire ∧ fire.nanos < t.nanos := by
  obtain ⟨n, found', rfl⟩ := Option.map_eq_some_iff.1 found
  have last := h.lastBefore_last since
  rw [show s.lastFrom (secondBefore t) = some n from found'] at last
  exact ⟨⟨n, rfl, last.1.1⟩, last.1.2.1⟩

end Schedule

end SlotLease
