/-
  What a script was asked, and where that led it.

  A path through a script is a list of exchanges, each a question with the answer that was given to
  it: `s.Leads log rest` says that after these exchanges `rest` is what is left of `s`.  Nothing is
  said about who answers; a `World` says which answers a state of the surroundings allows and what
  becomes of that state, and `W.Takes state log after` that it went along with a whole path.

  The crux is that a path may stop anywhere.  A script that was interrupted is a path to a script
  that is not done, so what holds after every path holds whenever the program is stopped.
-/
import Backlog.Script

namespace Backlog

namespace Script

variable {Q : Type} {A : Q → Type} {α β σ : Type}

/-! ## Exchanges and paths -/

/-- A question with the answer that was given to it. -/
structure Exchange (Q : Type) (A : Q → Type) where
  question : Q
  answer : A question

/-- After these exchanges, what is left of the first script is the second one. -/
inductive Leads : Script Q A α → List (Exchange Q A) → Script Q A α → Prop where
  | stop (s : Script Q A α) : Leads s [] s
  | step {q : Q} {next : A q → Script Q A α} {answer : A q} {log : List (Exchange Q A)}
      {rest : Script Q A α} :
      Leads (next answer) log rest → Leads (.ask q next) (⟨q, answer⟩ :: log) rest

/-- A whole path through two scripts in sequence is one through the first, and one through the second. -/
theorem leads_bind {s : Script Q A α} {k : α → Script Q A β} {log : List (Exchange Q A)} {b : β} :
    (s >>= k).Leads log (.done b) ↔
      ∃ a first second, log = first ++ second ∧ s.Leads first (.done a) ∧ (k a).Leads second (.done b) := by
  induction s generalizing log with
  | done a =>
    constructor
    · exact fun h => ⟨a, [], log, rfl, .stop _, h⟩
    · rintro ⟨a', first, second, rfl, hfirst, hsecond⟩
      cases hfirst
      exact hsecond
  | ask q next ih =>
    constructor
    · intro h
      cases h with
      | step h =>
        obtain ⟨a, first, second, rfl, hfirst, hsecond⟩ := (ih _).mp h
        exact ⟨a, _ :: first, second, rfl, .step hfirst, hsecond⟩
    · rintro ⟨a, first, second, rfl, hfirst, hsecond⟩
      cases hfirst with
      | step hfirst => exact .step ((ih _).mpr ⟨a, _, second, rfl, hfirst, hsecond⟩)

/-! ## Worlds -/

/-- How the surroundings answer: in a state, to a question, with an answer, leaving a state. -/
abbrev World (Q : Type) (A : Q → Type) (σ : Type) := σ → (q : Q) → A q → σ → Prop

/-- The exchanges take the world from one state to another. -/
inductive World.Takes (W : World Q A σ) : σ → List (Exchange Q A) → σ → Prop where
  | stay (state : σ) : Takes W state [] state
  | step {state between after : σ} {q : Q} {answer : A q} {log : List (Exchange Q A)} :
      W state q answer between → Takes W between log after →
      Takes W state (⟨q, answer⟩ :: log) after

theorem World.takes_append {W : World Q A σ} {first second : List (Exchange Q A)}
    {state after : σ} :
    W.Takes state (first ++ second) after ↔
      ∃ between, W.Takes state first between ∧ W.Takes between second after := by
  constructor
  · intro h
    induction first generalizing state with
    | nil => exact ⟨state, .stay _, h⟩
    | cons x xs ih =>
      cases h with
      | step hx hxs =>
        obtain ⟨between, h₁, h₂⟩ := ih hxs
        exact ⟨between, .step hx h₁, h₂⟩
  · rintro ⟨between, h₁, h₂⟩
    induction h₁ with
    | stay => exact h₂
    | step hx _ ih => exact .step hx (ih h₂)

/-- A world goes along with a path if it goes along with every exchange in its state. -/
theorem World.takes_foldl {W : World Q A σ} {next : σ → Exchange Q A → σ}
    {log : List (Exchange Q A)} (state : σ)
    (h : ∀ x ∈ log, ∀ state, W state x.question x.answer (next state x)) :
    W.Takes state log (log.foldl next state) := by
  induction log generalizing state with
  | nil => exact .stay state
  | cons x log ih =>
    exact .step (h x List.mem_cons_self state) (ih _ fun y hy => h y (List.mem_cons_of_mem _ hy))

/-- The world with a record of what was asked, every exchange next to the state that it met. -/
def World.recorded (W : World Q A σ) : World Q A (σ × List (σ × Exchange Q A)) :=
  fun state q answer after =>
    W state.1 q answer after.1 ∧ after.2 = state.2 ++ [(state.1, ⟨q, answer⟩)]

/-- Whatever a world goes along with can be recorded. -/
theorem World.takes_recorded {W : World Q A σ} {state after : σ} {log : List (Exchange Q A)}
    (h : W.Takes state log after) (earlier : List (σ × Exchange Q A)) :
    ∃ record, W.recorded.Takes (state, earlier) log (after, earlier ++ record) ∧
      record.map Prod.snd = log := by
  induction h generalizing earlier with
  | stay state =>
    refine ⟨[], ?_, rfl⟩
    rw [List.append_nil]
    exact .stay _
  | @step state between after q answer log hx _ ih =>
    obtain ⟨record, htakes, hrecord⟩ := ih (earlier ++ [(state, ⟨q, answer⟩)])
    refine ⟨(state, ⟨q, answer⟩) :: record, ?_, congrArg _ hrecord⟩
    rw [List.append_assoc] at htakes
    exact .step ⟨hx, rfl⟩ htakes

/-! ## The path of a run -/

/-- The exchanges of a script whose questions a state answers. -/
def exchanges (answer : (q : Q) → σ → A q × σ) : Script Q A α → σ → List (Exchange Q A)
  | .done _, _ => []
  | .ask q next, state =>
    let (given, state) := answer q state
    ⟨q, given⟩ :: (next given).exchanges answer state

/-- A run follows a path to its value. -/
theorem leads_exchanges (answer : (q : Q) → σ → A q × σ) (s : Script Q A α) (state : σ) :
    s.Leads (s.exchanges answer state) (.done (s.run answer state).1) := by
  induction s generalizing state with
  | done a => exact .stop _
  | ask q next ih => exact .step (ih _ _)

/-- A world in which every answer of a state is allowed goes along with every run. -/
theorem takes_exchanges {τ : Type} {W : World Q A τ} {answer : (q : Q) → σ → A q × σ}
    (view : σ → τ)
    (hanswer : ∀ state q, W (view state) q (answer q state).1 (view (answer q state).2))
    (s : Script Q A α) (state : σ) :
    W.Takes (view state) (s.exchanges answer state) (view (s.run answer state).2) := by
  induction s generalizing state with
  | done a => exact .stay _
  | ask q next ih => exact .step (hanswer state q) (ih _ _)

end Script

end Backlog
