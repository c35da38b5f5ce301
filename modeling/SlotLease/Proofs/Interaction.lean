import SlotLease.Interaction

/-!
Runs of programs in a world. A world answers requests as a relation allows, so one program may have
many runs; `Ensures` says of all of them how they end, and `Always` says so whatever is answered.
`Ends` are the ends that some replies lead to.
-/

namespace SlotLease.Interaction

variable {Request : Type} {Reply : Request → Type} {α β W : Type}

inductive Runs (answers : (r : Request) → W → Reply r → W → Prop) :
    Interaction Request Reply α → W → α → W → Prop
  | done : Runs answers (.done a) w a w
  | ask : answers r w reply w' → Runs answers (next reply) w' a w'' →
      Runs answers (.ask r next) w a w''

def Ensures (answers : (r : Request) → W → Reply r → W → Prop) :
    Interaction Request Reply α → (α → W → Prop) → W → Prop
  | .done a, Q, w => Q a w
  | .ask r next, Q, w => ∀ reply w', answers r w reply w' → Ensures answers (next reply) Q w'

def Always (P : Request → Prop) (Q : α → Prop) : Interaction Request Reply α → Prop
  | .done a => Q a
  | .ask r next => P r ∧ ∀ reply, Always P Q (next reply)

inductive Ends : Interaction Request Reply α → α → Prop
  | done : Ends (.done a) a
  | ask {r : Request} {next : Reply r → Interaction Request Reply α} (reply : Reply r) :
      Ends (next reply) a → Ends (.ask r next) a

variable {answers : (r : Request) → W → Reply r → W → Prop}

@[simp] theorem ensures_done (a : α) (Q : α → W → Prop) (w : W) :
    Ensures answers (.done a : Interaction Request Reply α) Q w ↔ Q a w := Iff.rfl

@[simp] theorem ensures_pure (a : α) (Q : α → W → Prop) (w : W) :
    Ensures answers (pure a : Interaction Request Reply α) Q w ↔ Q a w := Iff.rfl

@[simp] theorem ensures_bind (p : Interaction Request Reply α)
    (f : α → Interaction Request Reply β) (Q : β → W → Prop) (w : W) :
    Ensures answers (p >>= f) Q w ↔
      Ensures answers p (fun a w' => Ensures answers (f a) Q w') w := by
  induction p generalizing w with
  | done a => rfl
  | ask r next ih =>
    constructor
    · intro h reply w' answered
      exact (ih reply w').1 (h reply w' answered)
    · intro h reply w' answered
      exact (ih reply w').2 (h reply w' answered)

theorem Ensures.mono {Q Q' : α → W → Prop} {p : Interaction Request Reply α}
    (h : Ensures answers p Q w) (weaker : ∀ a w', Q a w' → Q' a w') : Ensures answers p Q' w := by
  induction p generalizing w with
  | done a => exact weaker a w h
  | ask r next ih => exact fun reply w' answered => ih reply (h reply w' answered)

theorem Runs.ensured {Q : α → W → Prop} {p : Interaction Request Reply α}
    (run : Runs answers p w a w') (h : Ensures answers p Q w) : Q a w' := by
  induction run with
  | done => exact h
  | ask answered _ ih => exact ih (h _ _ answered)

theorem ensures_iff_runs {Q : α → W → Prop} {p : Interaction Request Reply α} :
    Ensures answers p Q w ↔ ∀ a w', Runs answers p w a w' → Q a w' := by
  refine ⟨fun h a w' run => run.ensured h, fun h => ?_⟩
  induction p generalizing w with
  | done a => exact h a w .done
  | ask r next ih =>
    exact fun reply w' answered => ih reply fun a w'' run => h a w'' (.ask answered run)

theorem runs_ask_done {r : Request} {reply : Reply r} :
    Runs answers (.ask r .done) w reply w' ↔ answers r w reply w' := by
  constructor
  · rintro (_ | ⟨answered, _ | _⟩)
    exact answered
  · exact fun answered => .ask answered .done

theorem Ensures.and {Q Q' : α → W → Prop} {p : Interaction Request Reply α}
    (h : Ensures answers p Q w) (h' : Ensures answers p Q' w) :
    Ensures answers p (fun a w' => Q a w' ∧ Q' a w') w :=
  ensures_iff_runs.2 fun _ _ run => ⟨run.ensured h, run.ensured h'⟩

theorem Ensures.comap {V : Type} {answers' : (r : Request) → V → Reply r → V → Prop} (f : V → W)
    {Q : α → W → Prop} {p : Interaction Request Reply α} {v : V} (h : Ensures answers p Q (f v))
    (part : ∀ r v reply v', answers' r v reply v' → answers r (f v) reply (f v')) :
    Ensures answers' p (fun a v' => Q a (f v')) v := by
  induction p generalizing v with
  | done a => exact h
  | ask r next ih => exact fun reply v' answered => ih reply (h reply _ (part _ _ _ _ answered))

theorem ensures_run {Request' : Type} {Reply' : Request' → Type}
    {handle : (r : Request') → Interaction Request Reply (Reply' r)} {Q : α → W → Prop}
    {p : Interaction Request' Reply' α} :
    Ensures answers (p.run handle) Q w ↔
      Ensures (fun r w reply w' => Runs answers (handle r) w reply w') p Q w := by
  induction p generalizing w with
  | done a => rfl
  | ask r next ih =>
    show Ensures answers (handle r >>= fun reply => (next reply).run handle) Q w ↔ _
    simp only [ensures_bind, ensures_iff_runs (p := handle r), ih]
    rfl

theorem run_bind_eq {m : Type → Type} [Monad m] [LawfulMonad m]
    (handle : (r : Request) → m (Reply r)) (p : Interaction Request Reply α)
    (f : α → Interaction Request Reply β) :
    (p >>= f).run handle = p.run handle >>= fun a => (f a).run handle := by
  induction p with
  | done a => exact (pure_bind (m := m) a fun a => (f a).run handle).symm
  | ask r next ih =>
    show (handle r >>= fun reply => (next reply >>= f).run handle) = _
    simp only [ih, run, bind_assoc]

def Both (handle : (r : Request) → StateM W (Reply r)) (p : Interaction Request Reply α) (w : W)
    (p' : Interaction Request Reply β) (w' : W) (Q : α → W → β → W → Prop) : Prop :=
  Q ((p.run handle).run w).1 ((p.run handle).run w).2 ((p'.run handle).run w').1
    ((p'.run handle).run w').2

section Both

variable {handle : (r : Request) → StateM W (Reply r)} {w w' : W} {γ δ : Type}

theorem run_bind (p : Interaction Request Reply α) (f : α → Interaction Request Reply β) (w : W) :
    ((p >>= f).run handle).run w =
      ((f ((p.run handle).run w).1).run handle).run ((p.run handle).run w).2 := by
  rw [run_bind_eq]
  rfl

theorem both_bind (p : Interaction Request Reply α) (f : α → Interaction Request Reply β)
    (p' : Interaction Request Reply γ) (f' : γ → Interaction Request Reply δ)
    {Q : β → W → δ → W → Prop} :
    Both handle (p >>= f) w (p' >>= f') w' Q ↔
      Both handle p w p' w' fun a v a' v' => Both handle (f a) v (f' a') v' Q := by
  simp only [Both, run_bind]

theorem both_ask {r r' : Request} (next : Reply r → Interaction Request Reply α)
    (next' : Reply r' → Interaction Request Reply β) {Q : α → W → β → W → Prop} :
    Both handle (.ask r next) w (.ask r' next') w' Q ↔
      Both handle (next ((handle r).run w).1) ((handle r).run w).2
        (next' ((handle r').run w').1) ((handle r').run w').2 Q := Iff.rfl

theorem Both.mono {p : Interaction Request Reply α} {p' : Interaction Request Reply β}
    {Q Q' : α → W → β → W → Prop} (h : Both handle p w p' w' Q)
    (weaker : ∀ a v a' v', Q a v a' v' → Q' a v a' v') : Both handle p w p' w' Q' :=
  weaker _ _ _ _ h

end Both

theorem runs_run {handle : (r : Request) → StateM W (Reply r)}
    (answered : ∀ r w, answers r w ((handle r).run w).1 ((handle r).run w).2)
    (p : Interaction Request Reply α) (w : W) :
    Runs answers p w ((p.run handle).run w).1 ((p.run handle).run w).2 := by
  induction p generalizing w with
  | done a => exact .done
  | ask r next ih => exact .ask (answered r w) (ih _ _)

theorem Ensures.run {handle : (r : Request) → StateM W (Reply r)} {Q : α → W → Prop}
    {p : Interaction Request Reply α} (h : Ensures answers p Q w)
    (answered : ∀ r w, answers r w ((handle r).run w).1 ((handle r).run w).2) :
    Q ((p.run handle).run w).1 ((p.run handle).run w).2 := (runs_run answered p w).ensured h

theorem exists_runs {I : W → Prop}
    (total : ∀ r w, I w → ∃ reply w', answers r w reply w' ∧ I w')
    (p : Interaction Request Reply α) (start : I w) : ∃ a w', Runs answers p w a w' ∧ I w' := by
  induction p generalizing w with
  | done a => exact ⟨a, w, .done, start⟩
  | ask r next ih =>
    obtain ⟨reply, w₁, answered, kept⟩ := total r w start
    obtain ⟨a, w', run, kept⟩ := ih reply kept
    exact ⟨a, w', .ask answered run, kept⟩

theorem runs_bind {p : Interaction Request Reply α} {f : α → Interaction Request Reply β}
    (first : Runs answers p w a w') (rest : Runs answers (f a) w' b w'') :
    Runs answers (p >>= f) w b w'' := by
  induction first with
  | done => exact rest
  | ask answered _ ih => exact .ask answered (ih rest)

theorem runs_bind_iff {p : Interaction Request Reply α} {f : α → Interaction Request Reply β} :
    Runs answers (p >>= f) w b w'' ↔
      ∃ a w', Runs answers p w a w' ∧ Runs answers (f a) w' b w'' := by
  refine ⟨fun run => ?_, fun ⟨_, _, first, rest⟩ => runs_bind first rest⟩
  induction p generalizing w with
  | done a => exact ⟨a, w, .done, run⟩
  | ask r next ih =>
    cases run with
    | ask answered rest =>
      obtain ⟨a, w', first, rest⟩ := ih _ rest
      exact ⟨a, w', .ask answered first, rest⟩

@[simp] theorem always_bind {P : Request → Prop} {Q : β → Prop} (p : Interaction Request Reply α)
    (f : α → Interaction Request Reply β) :
    Always P Q (p >>= f) ↔ Always P (fun a => Always P Q (f a)) p := by
  induction p with
  | done a => rfl
  | ask r next ih =>
    constructor
    · intro h
      exact ⟨h.1, fun reply => (ih reply).1 (h.2 reply)⟩
    · intro h
      exact ⟨h.1, fun reply => (ih reply).2 (h.2 reply)⟩

theorem Always.mono {P : Request → Prop} {Q Q' : α → Prop} {p : Interaction Request Reply α}
    (h : Always P Q p) (weaker : ∀ a, Q a → Q' a) : Always P Q' p := by
  induction p with
  | done a => exact weaker a h
  | ask r next ih => exact ⟨h.1, fun reply => ih reply (h.2 reply)⟩

theorem Always.ensures {P : Request → Prop} {Q : α → Prop} {I : W → Prop}
    {p : Interaction Request Reply α} (h : Always P Q p) (start : I w)
    (kept : ∀ r w reply w', P r → I w → answers r w reply w' → I w') :
    Ensures answers p (fun a w' => Q a ∧ I w') w := by
  induction p generalizing w with
  | done a => exact ⟨h, start⟩
  | ask r next ih =>
    exact fun reply w' answered => ih reply (h.2 reply) (kept r w reply w' h.1 start answered)

@[simp] theorem ends_done {a b : α} :
    Ends (.done a : Interaction Request Reply α) b ↔ b = a := by
  constructor
  · rintro ⟨⟩
    rfl
  · rintro rfl
    exact .done

@[simp] theorem ends_pure {a b : α} :
    Ends (pure a : Interaction Request Reply α) b ↔ b = a := ends_done

@[simp] theorem ends_bind {p : Interaction Request Reply α} {f : α → Interaction Request Reply β}
    {b : β} : Ends (p >>= f) b ↔ ∃ a, Ends p a ∧ Ends (f a) b := by
  induction p with
  | done a => exact ⟨fun h => ⟨a, .done, h⟩, fun ⟨_, same, h⟩ => ends_done.1 same ▸ h⟩
  | ask r next ih =>
    constructor
    · rintro (_ | ⟨reply, h⟩)
      obtain ⟨a, first, rest⟩ := (ih _).1 h
      exact ⟨a, .ask reply first, rest⟩
    · rintro ⟨a, (_ | ⟨reply, first⟩), rest⟩
      exact .ask reply ((ih _).2 ⟨a, first, rest⟩)

theorem exists_ends [∀ r, Nonempty (Reply r)] (p : Interaction Request Reply α) :
    ∃ a, Ends p a := by
  induction p with
  | done a => exact ⟨a, .done⟩
  | ask r next ih =>
    obtain ⟨reply⟩ := (inferInstance : Nonempty (Reply r))
    obtain ⟨a, ends⟩ := ih reply
    exact ⟨a, .ask reply ends⟩

theorem Runs.ends {p : Interaction Request Reply α} (run : Runs answers p w a w') : Ends p a := by
  induction run with
  | done => exact .done
  | ask _ _ ih => exact .ask _ ih

theorem ends_run {handle : (r : Request) → StateM W (Reply r)} (p : Interaction Request Reply α)
    (w : W) : Ends p ((p.run handle).run w).1 := by
  induction p generalizing w with
  | done a => exact .done
  | ask r next ih => exact .ask _ (ih _ _)

theorem Ends.always {P : Request → Prop} {Q : α → Prop} {p : Interaction Request Reply α}
    (h : Ends p a) (always : Always P Q p) : Q a := by
  induction h with
  | done => exact always
  | ask reply _ ih => exact ih (always.2 reply)

theorem Both.ends {handle : (r : Request) → StateM W (Reply r)} {p : Interaction Request Reply α}
    {p' : Interaction Request Reply β} {Q : α → W → β → W → Prop} (h : Both handle p w p' w' Q) :
    Both handle p w p' w' fun a v a' v' => Ends p a ∧ Q a v a' v' := ⟨ends_run p w, h⟩

end SlotLease.Interaction
