import Mathlib.Logic.Function.Basic
import SlotLease.Proofs.Generator.History

namespace SlotLease

namespace Interaction

variable {Request : Type} {Reply : Request → Type} {α : Type}

def value? : Interaction Request Reply α → Option α
  | .done a => some a
  | .ask _ _ => none

def rest? : Interaction Request Reply α → Option (Interaction Request Reply α)
  | .done _ => none
  | .ask r next => some (.ask r next)

end Interaction

namespace Shared

open Generator (advance)

def committing (seen id : Id) : Program (Outcome Poll) :=
  .ask (.exchange seen id) fun ok => .done (.value (if ok then .ready id else .pending 0))

def judging (g : Shared) (seen : Id) : Option UInt64 → Program (Outcome Poll)
  | none => .done .aborted
  | some now =>
    match advance g.epoch seen now with
    | .error e => .done (.error e)
    | .ok none => .done (.value (.pending 1))
    | .ok (some id) => committing seen id

theorem poll_eq (g : Shared) : g.poll = .ask .load fun seen => .ask .clock (g.judging seen) := by
  rw [poll_eq_advance]
  refine congrArg (Interaction.ask Request.load) (funext fun seen => ?_)
  refine congrArg (Interaction.ask Request.clock) (funext fun reading => ?_)
  cases reading with
  | none => rfl
  | some now =>
    simp only [judging, Interaction.bind_done]
    cases advance g.epoch seen now with
    | error e => rfl
    | ok id =>
      cases id with
      | none => rfl
      | some id =>
        refine congrArg (Interaction.ask (Request.exchange seen id)) (funext fun ok => ?_)
        cases ok <;> rfl

inductive Act where
  | loaded (seen : Id)
  | read (reading : Option UInt64)
  | exchanged (seen new : Id) (ok : Bool)
deriving DecidableEq

structure Event (ι : Type) where
  caller : ι
  act : Act
  answer : Option (Outcome Poll)

inductive Answers (word : Id) : (r : Request) → Reply r → Act → Id → Prop
  | load : Answers word .load word (.loaded word) word
  | clock (reading : Option UInt64) : Answers word .clock reading (.read reading) word
  | swapped {new : Id} : Answers word (.exchange word new) true (.exchanged word new true) new
  | kept {seen new : Id} : word ≠ seen →
      Answers word (.exchange seen new) false (.exchanged seen new false) word

structure Contest (ι : Type) where
  word : Id
  pending : ι → Option (Program (Outcome Poll))

namespace Contest

def quiet (ι : Type) (g : Shared) : Contest ι := ⟨g.initial, fun _ => none⟩

inductive Step {ι : Type} [DecidableEq ι] (g : Shared) (c : Contest ι) :
    List (Event ι) → Contest ι → Prop
  | began : c.pending i = none →
      Step g c [] { c with pending := Function.update c.pending i (some g.poll) }
  | asked {request : Request} {reply : Reply request}
      {next : Reply request → Program (Outcome Poll)} {word' : Id} :
      c.pending i = some (.ask request next) → Answers c.word request reply act word' →
      Step g c [⟨i, act, (next reply).value?⟩]
        ⟨word', Function.update c.pending i (next reply).rest?⟩

inductive Run {ι : Type} [DecidableEq ι] (g : Shared) : List (Event ι) → Contest ι → Prop
  | start : Run g [] (quiet ι g)
  | step : Run g events c → Step g c new c' → Run g (events ++ new) c'

end Contest

variable {ι : Type} {g : Shared} {events : List (Event ι)} {e : Event ι} {i : ι} {word word' : Id}

def Event.committed? (e : Event ι) : Option Id :=
  match e.act with
  | .exchanged _ new true => some new
  | _ => none

def Event.ready? (e : Event ι) : Option Id := e.answer.bind Outcome.ready?

def Event.reading? (e : Event ι) : Option UInt64 :=
  match e.act with
  | .read reading => reading
  | _ => none

def committed (events : List (Event ι)) : List Id := events.filterMap (·.committed?)

def readings (events : List (Event ι)) : List UInt64 := events.filterMap (·.reading?)

/-- A caller has loaded `seen`, and has read the clock since, if anything; meanwhile the word has
stayed as it was or somebody else has raised it. -/
def Since (events : List (Event ι)) (word : Id) (i : ι) (seen : Id) : Prop :=
  ∃ before since, events = before ++ ⟨i, .loaded seen, none⟩ :: since ∧
    (∀ e ∈ since, e.caller = i → ∃ reading, e.act = .read reading) ∧
    (word = seen ∨ seen.raw < word.raw ∧ ∃ e ∈ since, e.caller ≠ i ∧ e.committed?.isSome)

/-- A failed exchange, and somebody else's that came between it and the load of its poll. -/
def Event.Outrun (before : List (Event ι)) (e : Event ι) : Prop :=
  ∃ seen new earlier since, e.act = .exchanged seen new false ∧
    before = earlier ++ ⟨e.caller, .loaded seen, none⟩ :: since ∧
      (∀ e' ∈ since, e'.caller = e.caller → ∃ reading, e'.act = .read reading) ∧
        ∃ e' ∈ since, e'.caller ≠ e.caller ∧ e'.committed?.isSome

structure Event.Fair (before : List (Event ι)) (e : Event ι) : Prop where
  ready : e.ready? = e.committed?
  outrun : e.answer = some (.value (.pending 0)) → e.Outrun before
  steady : (readings (before ++ [e])).Pairwise (· ≤ ·) →
    ∀ last now, e.answer ≠ some (.error (.clockRegression last now))

def Dated (g : Shared) (events : List (Event ι)) (id : Id) : Prop :=
  id.timestamp = 0 ∨ ∃ now ∈ readings events, g.epoch ≤ now ∧ id.timestamp = now - g.epoch

inductive Underway (g : Shared) (events : List (Event ι)) (word : Id) (i : ι) :
    Program (Outcome Poll) → Prop
  | begun : Underway g events word i (.ask .load fun seen => .ask .clock (g.judging seen))
  | loaded {seen : Id} : Since events word i seen → seen.isValid = true → Dated g events seen →
      Underway g events word i (.ask .clock (g.judging seen))
  | judged {seen id : Id} : Since events word i seen → seen.raw < id.raw → id.isValid = true →
      Dated g events id → Underway g events word i (committing seen id)

structure Sound (g : Shared) (events : List (Event ι)) (c : Contest ι) : Prop where
  valid : c.word.isValid = true
  dated : Dated g events c.word
  ascending : (committed events).Pairwise (·.raw < ·.raw)
  greatest : ∀ id ∈ committed events, id.raw ≤ c.word.raw
  fair : ∀ before e after, events = before ++ e :: after → e.Fair before
  pending : ∀ i p, c.pending i = some p → Underway g events c.word i p

variable {c c' : Contest ι} {seen id : Id}

@[simp] theorem committed_concat :
    committed (events ++ [e]) = committed events ++ e.committed?.toList := by
  cases new : e.committed? <;> simp [committed, new]

@[simp] theorem readings_concat :
    readings (events ++ [e]) = readings events ++ e.reading?.toList := by
  cases new : e.reading? <;> simp [readings, new]

theorem Dated.concat (h : Dated g events id) (e : Event ι) : Dated g (events ++ [e]) id := by
  rcases h with zero | ⟨now, mem, dated⟩
  · exact .inl zero
  · exact .inr ⟨now, by simp [mem], dated⟩

def Raises (e : Event ι) (word word' : Id) : Prop :=
  e.committed? = none ∧ word' = word ∨ e.committed? = some word' ∧ word.raw < word'.raw

theorem Since.concat (h : Since events word i seen) (raises : Raises e word word')
    (own : e.caller = i → ∃ reading, e.act = .read reading) :
    Since (events ++ [e]) word' i seen := by
  obtain ⟨before, since, rfl, read, moved⟩ := h
  refine ⟨before, since ++ [e], by simp, fun e' mem => ?_, ?_⟩
  · rcases List.mem_append.1 mem with old | new
    · exact read e' old
    · exact List.mem_singleton.1 new ▸ own
  · rcases raises with ⟨_, rfl⟩ | ⟨committed, less⟩
    · refine moved.imp id fun ⟨raised, e', mem, other⟩ => ⟨raised, e', ?_, other⟩
      exact List.mem_append_left _ mem
    · have other : e.caller ≠ i := by
        intro same
        obtain ⟨reading, read⟩ := own same
        rw [Event.committed?, read] at committed
        cases committed
      refine .inr ⟨?_, e, by simp, other, by simp [committed]⟩
      rcases moved with rfl | ⟨raised, _⟩
      · exact less
      · exact UInt64.lt_trans raised less

theorem Underway.concat {p : Program (Outcome Poll)} (h : Underway g events word i p)
    (raises : Raises e word word') (other : e.caller ≠ i) :
    Underway g (events ++ [e]) word' i p := by
  cases h with
  | begun => exact .begun
  | loaded since valid dated =>
    exact .loaded (since.concat raises fun own => absurd own other) valid (dated.concat e)
  | judged since less valid dated =>
    exact .judged (since.concat raises fun own => absurd own other) less valid (dated.concat e)

theorem Dated.no_regression {now before after : UInt64} (dated : Dated g events seen)
    (steady : ∀ reading ∈ readings events, reading ≤ now) :
    advance g.epoch seen now ≠ .error (.clockRegression before after) := by
  intro failed
  obtain ⟨le, back, _, _⟩ := Generator.advance_regression failed
  rcases dated with zero | ⟨then', mem, le', dated⟩
  · rw [zero] at back
    exact UInt64.not_lt_zero back
  · have later := UInt64.le_iff_toNat_le.1 (steady then' mem)
    rw [dated, UInt64.lt_iff_toNat_lt, UInt64.toNat_sub_of_le _ _ le,
      UInt64.toNat_sub_of_le _ _ le'] at back
    omega

variable [DecidableEq ι]

theorem Sound.concat (h : Sound g events c) {rest : Option (Program (Outcome Poll))}
    (raises : Raises e c.word word') (fair : e.Fair events)
    (made : e.committed? = some word' → word'.isValid = true ∧ Dated g events word')
    (underway : ∀ p, rest = some p → Underway g (events ++ [e]) word' e.caller p) :
    Sound g (events ++ [e]) ⟨word', Function.update c.pending e.caller rest⟩ := by
  have pending : ∀ j p, Function.update c.pending e.caller rest j = some p →
      Underway g (events ++ [e]) word' j p := by
    intro j p found
    by_cases same : j = e.caller
    · subst same
      rw [Function.update_self] at found
      exact underway p found
    · rw [Function.update_of_ne same] at found
      exact (h.pending j p found).concat raises (Ne.symm same)
  have fair : ∀ before e' after, events ++ [e] = before ++ e' :: after → e'.Fair before := by
    intro before e' after same
    rcases Generator.split_concat same with ⟨rfl, rfl⟩ | ⟨rest, same⟩
    · exact fair
    · exact h.fair before e' rest same
  rcases raises with ⟨none, rfl⟩ | ⟨committed, less⟩
  · exact ⟨h.valid, h.dated.concat e, by simpa [none] using h.ascending,
      by simpa [none] using h.greatest, fair, pending⟩
  · refine ⟨(made committed).1, (made committed).2.concat e, ?_, ?_, fair, pending⟩
    · simp only [committed_concat, committed, Option.toList_some, List.pairwise_append]
      refine ⟨h.ascending, List.pairwise_singleton .., fun id mem new mem' => ?_⟩
      rw [List.mem_singleton] at mem'
      subst mem'
      exact UInt64.lt_of_le_of_lt (h.greatest id mem) less
    · simp only [committed_concat, committed, Option.toList_some, List.mem_append,
        List.mem_singleton]
      rintro id (old | rfl)
      · exact UInt64.le_of_lt (UInt64.lt_of_le_of_lt (h.greatest id old) less)
      · exact UInt64.le_refl _

theorem Sound.loaded (h : Sound g events c) :
    Sound g (events ++ [⟨i, .loaded c.word, none⟩])
      ⟨c.word, Function.update c.pending i (some (.ask .clock (g.judging c.word)))⟩ := by
  refine h.concat (.inl ⟨rfl, rfl⟩) ⟨rfl, nofun, fun _ => nofun⟩ nofun ?_
  rintro p ⟨⟩
  exact .loaded ⟨events, [], rfl, nofun, .inl rfl⟩ h.valid (h.dated.concat _)

theorem Sound.read (h : Sound g events c) {reading : Option UInt64}
    (since : Since events c.word i seen) (valid : seen.isValid = true)
    (dated : Dated g events seen) :
    Sound g (events ++ [⟨i, .read reading, (g.judging seen reading).value?⟩])
      ⟨c.word, Function.update c.pending i (g.judging seen reading).rest?⟩ := by
  cases reading with
  | none => exact h.concat (.inl ⟨rfl, rfl⟩) ⟨rfl, nofun, fun _ => nofun⟩ nofun nofun
  | some now =>
    simp only [judging]
    cases advanced : advance g.epoch seen now with
    | error e =>
      refine h.concat (.inl ⟨rfl, rfl⟩) ⟨rfl, nofun, fun steady before after same => ?_⟩ nofun nofun
      cases same
      rw [readings_concat, List.pairwise_append] at steady
      refine dated.no_regression (fun reading mem => ?_) advanced
      exact steady.2.2 reading mem now (List.mem_singleton_self now)
    | ok made =>
      cases made with
      | none => exact h.concat (.inl ⟨rfl, rfl⟩) ⟨rfl, nofun, fun _ => nofun⟩ nofun nofun
      | some id =>
        refine h.concat (.inl ⟨rfl, rfl⟩) ⟨rfl, nofun, fun _ => nofun⟩ nofun ?_
        rintro p ⟨⟩
        refine .judged (since.concat (.inl ⟨rfl, rfl⟩) fun _ => ⟨_, rfl⟩)
          (Generator.raw_lt_of_advance valid advanced) (Generator.isValid_of_advance advanced)
          (.inr ⟨now, ?_, (Generator.advance_cases advanced).1,
            Generator.timestamp_of_advance advanced⟩)
        rw [readings_concat]
        exact List.mem_append_right _ (List.mem_singleton_self now)

theorem Sound.exchanged (h : Sound g events c) (less : c.word.raw < id.raw)
    (valid : id.isValid = true) (dated : Dated g events id) :
    Sound g (events ++ [⟨i, .exchanged c.word id true, some (.value (.ready id))⟩])
      ⟨id, Function.update c.pending i none⟩ :=
  h.concat (.inr ⟨rfl, less⟩) ⟨rfl, nofun, fun _ => nofun⟩ (fun _ => ⟨valid, dated⟩) nofun

theorem Sound.outrun (h : Sound g events c) (since : Since events c.word i seen)
    (moved : c.word ≠ seen) :
    Sound g (events ++ [⟨i, .exchanged seen id false, some (.value (.pending 0))⟩])
      ⟨c.word, Function.update c.pending i none⟩ := by
  refine h.concat (.inl ⟨rfl, rfl⟩) ⟨rfl, fun _ => ?_, fun _ => nofun⟩ nofun nofun
  obtain ⟨earlier, since, split, read, raised⟩ := since
  exact ⟨seen, id, earlier, since, rfl, split, read, (raised.resolve_left moved).2⟩

theorem Contest.Step.sound (step : Step g c new c') (h : Sound g events c) :
    Sound g (events ++ new) c' := by
  cases step with
  | @began i free =>
    rw [List.append_nil]
    refine { h with pending := fun j p found => ?_ }
    by_cases same : j = i
    · subst same
      simp only [Function.update_self, Option.some.injEq] at found
      rw [← found, poll_eq]
      exact .begun
    · simp only [Function.update_of_ne same] at found
      exact h.pending j p found
  | @asked i act request reply next word' found answered =>
    cases h.pending i _ found with
    | begun =>
      cases answered
      exact h.loaded
    | loaded since valid dated =>
      cases answered
      exact h.read since valid dated
    | judged since less valid dated =>
      cases answered with
      | swapped => exact h.exchanged less valid dated
      | kept moved => exact h.outrun since moved

namespace Contest

theorem Run.sound (run : Run g events c) : Sound g events c := by
  induction run with
  | start =>
    exact ⟨Id.isValid_pack .., .inl (Id.timestamp_pack UInt64.zero_le), .nil, nofun, by simp, nofun⟩
  | step _ step ih => exact step.sound ih

/-- Ids are given out in the order of their exchanges and ascend; a caller is sent back at once only
if another has come between; a clock that has not gone back is not blamed. -/
theorem races_fair (run : Run g events c) :
    (∀ e ∈ events, e.ready? = e.committed?) ∧
      (committed events).Pairwise (·.raw < ·.raw) ∧ (committed events).Nodup ∧
      (∀ before e after, events = before ++ e :: after →
        e.answer = some (.value (.pending 0)) → e.Outrun before) ∧
      ((readings events).Pairwise (· ≤ ·) →
        ∀ e ∈ events, ∀ last now, e.answer ≠ some (.error (.clockRegression last now))) := by
  have sound := run.sound
  refine ⟨fun e mem => ?_, sound.ascending, ?_,
    fun before e after split => (sound.fair before e after split).outrun, fun steady e mem => ?_⟩
  · obtain ⟨before, after, split⟩ := List.append_of_mem mem
    exact (sound.fair before e after split).ready
  · refine sound.ascending.imp fun less same => ?_
    rw [same] at less
    exact UInt64.lt_irrefl _ less
  · obtain ⟨before, after, split⟩ := List.append_of_mem mem
    refine (sound.fair before e after split).steady (steady.sublist ?_)
    rw [List.append_cons] at split
    rw [split]
    exact (List.sublist_append_left ..).filterMap _

theorem races_fair_two_callers : ∃ (events : List (Event Bool)) (c : Contest Bool),
    Run ⟨⟨0, 0⟩, 0⟩ events c ∧ events.map (·.answer) =
      [none, none, none, none, some (.value (.ready ⟨20971520⟩)), some (.value (.pending 0))] ∧
    committed events = [⟨20971520⟩] ∧ (committed events).Nodup ∧
    ∀ e ∈ events, ∀ last now, e.answer ≠ some (.error (.clockRegression last now)) := by
  have both : @Run Bool _ ⟨⟨0, 0⟩, 0⟩ _ _ :=
    (Run.start.step (.began (i := false) rfl)).step (.began (i := true) rfl)
  have loaded := (both.step (.asked (i := false) rfl .load)).step (.asked (i := true) rfl .load)
  have read := (loaded.step (.asked (i := true) rfl (.clock (some 5)))).step
    (.asked (i := false) rfl (.clock (some 5)))
  have run := (read.step (.asked (i := true) rfl .swapped)).step
    (.asked (i := false) rfl (.kept (by decide)))
  obtain ⟨_, _, nodup, _, steady⟩ := races_fair run
  exact ⟨_, _, run, by decide, by decide, nodup, steady (by decide)⟩

end Contest

end Shared

end SlotLease
