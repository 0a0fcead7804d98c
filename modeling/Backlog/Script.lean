/-
  Programs that ask their surroundings.

  Program: a `Script` is either done, or a question with what to do for every answer.  What the
  questions are, and what type of answer each has, is up to the user of the type.

  Specification: `run` answers the questions from a state, `interpret` in a monad.  Both of them turn
  sequencing of scripts into sequencing of runs (`run_bind`), so facts about a long script come from
  facts about its parts.

  The crux is that the questions are data: what a program asks, and in which order, can be stated
  without saying who answers.
-/

namespace Backlog

/-- A program that asks its surroundings and goes on with what they answer. -/
inductive Script (Q : Type) (A : Q → Type) (α : Type) where
  | done (value : α)
  | ask (question : Q) (next : A question → Script Q A α)

namespace Script

variable {Q : Type} {A : Q → Type} {α β γ σ : Type}

/-! ## Sequencing -/

/-- Run one script, then the one that its value selects. -/
def bind : Script Q A α → (α → Script Q A β) → Script Q A β
  | .done a, k => k a
  | .ask q next, k => .ask q fun answer => (next answer).bind k

instance : Monad (Script Q A) where
  pure := .done
  bind := bind

@[simp] theorem pure_eq_done (a : α) : (pure a : Script Q A α) = .done a := rfl

@[simp] theorem done_bind (a : α) (k : α → Script Q A β) : (Script.done a >>= k) = k a := rfl

@[simp] theorem ask_bind (q : Q) (next : A q → Script Q A α) (k : α → Script Q A β) :
    (Script.ask q next >>= k) = .ask q fun answer => next answer >>= k := rfl

theorem bind_done (s : Script Q A α) : (s >>= Script.done) = s := by
  induction s with
  | done a => rfl
  | ask q next ih => simp [ih]

theorem bind_bind (s : Script Q A α) (k : α → Script Q A β) (l : β → Script Q A γ) :
    (s >>= k >>= l) = s >>= fun a => k a >>= l := by
  induction s with
  | done a => rfl
  | ask q next ih => simp [ih]

instance : LawfulMonad (Script Q A) :=
  LawfulMonad.mk' _ bind_done (fun _ _ => rfl) bind_bind

/-! ## Running -/

/-- Run a script whose questions a state answers. -/
def run (answer : (q : Q) → σ → A q × σ) : Script Q A α → σ → α × σ
  | .done a, state => (a, state)
  | .ask q next, state =>
    let (given, state) := answer q state
    (next given).run answer state

/-- Run a script whose questions a monad answers. -/
def interpret {m : Type → Type} [Monad m] (answer : (q : Q) → m (A q)) : Script Q A α → m α
  | .done a => pure a
  | .ask q next => do
    let given ← answer q
    (next given).interpret answer

theorem run_bind (answer : (q : Q) → σ → A q × σ) (s : Script Q A α) (k : α → Script Q A β)
    (state : σ) :
    (s >>= k).run answer state
      = (k (s.run answer state).1).run answer (s.run answer state).2 := by
  induction s generalizing state with
  | done a => rfl
  | ask q next ih => exact ih _ _

end Script

end Backlog
