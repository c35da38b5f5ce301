/-!
Programs as trees of requests. A program is done, or it asks the outside one request and goes on
with the reply; so what it asks can be answered by a model, by the real world, or by anything else,
and two programs can be run step by step in any order.
-/

namespace SlotLease

/-- A program that asks requests, each with a type of reply of its own, and ends with a value. -/
inductive Interaction (Request : Type) (Reply : Request → Type) (α : Type) : Type where
  | done (value : α)
  | ask (request : Request) (next : Reply request → Interaction Request Reply α)

namespace Interaction

variable {Request : Type} {Reply : Request → Type} {α β : Type}

def request (r : Request) : Interaction Request Reply (Reply r) := .ask r .done

def bind : Interaction Request Reply α → (α → Interaction Request Reply β) →
    Interaction Request Reply β
  | .done a, f => f a
  | .ask r next, f => .ask r fun reply => (next reply).bind f

instance : Monad (Interaction Request Reply) where
  pure := .done
  bind := .bind

def run {m : Type → Type} [Monad m] (handle : (r : Request) → m (Reply r)) :
    Interaction Request Reply α → m α
  | .done a => pure a
  | .ask r next => do
    let reply ← handle r
    (next reply).run handle

@[simp] theorem bind_done (a : α) (f : α → Interaction Request Reply β) :
    (done a : Interaction Request Reply α).bind f = f a := rfl

@[simp] theorem bind_ask (r : Request) (next : Reply r → Interaction Request Reply α)
    (f : α → Interaction Request Reply β) :
    (ask r next).bind f = ask r fun reply => (next reply).bind f := rfl

instance : LawfulMonad (Interaction Request Reply) :=
  LawfulMonad.mk' _
    (by
      intro α p
      induction p with
      | done => rfl
      | ask r next ih => exact congrArg (ask r) (funext ih))
    (fun _ _ => rfl)
    (by
      intro α β γ p f g
      induction p with
      | done => rfl
      | ask r next ih => exact congrArg (ask r) (funext ih))

end Interaction

end SlotLease
