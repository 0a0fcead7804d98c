/-
  What a script ensures in a world.

  `s.Ensures W inv post state`: whatever the world answers from that state on, `inv` holds after
  every exchange, and `post` holds of the value and the state that a whole run ends with.  It is
  defined by recursion on the script, so a proof walks through a program step by step, and
  `Ensures.of_leads` turns it into a fact about every path, also one that stops early.

  Programs in sequence are dealt with by `ensures_bind`, and those that ask only questions of one
  kind by `Only`: they keep whatever such questions keep.  `Yields` says of such a program what its
  value is, too.
-/
import Backlog.Proofs.Script.Paths

namespace Backlog

namespace Script

variable {Q : Type} {A : Q → Type} {α β σ : Type}

/-! ## Ensuring -/

/-- Whatever the world answers, the first predicate holds throughout and the second at the end. -/
def Ensures (W : World Q A σ) (inv : σ → Prop) (post : α → σ → Prop) :
    Script Q A α → σ → Prop
  | .done a, state => inv state ∧ post a state
  | .ask q next, state =>
    inv state ∧ ∀ answer after, W state q answer after → (next answer).Ensures W inv post after

variable {W : World Q A σ} {inv : σ → Prop} {post post' : α → σ → Prop} {state after : σ}
  {s rest : Script Q A α} {log : List (Exchange Q A)}

theorem Ensures.holds (h : s.Ensures W inv post state) : inv state := by
  cases s with
  | done a => exact h.1
  | ask q next => exact h.1

/-- What a script ensures, it still ensures after a part of it was run. -/
theorem Ensures.of_leads (h : s.Ensures W inv post state) (hlog : s.Leads log rest)
    (hworld : W.Takes state log after) : rest.Ensures W inv post after := by
  induction hlog generalizing state with
  | stop s =>
    cases hworld
    exact h
  | step _ ih =>
    cases hworld with
    | step hx hxs => exact ih (h.2 _ _ hx) hxs

/-- What a script ensures at its end. -/
theorem Ensures.post_of_leads {a : α} (h : s.Ensures W inv post state)
    (hlog : s.Leads log (.done a)) (hworld : W.Takes state log after) : post a after :=
  (h.of_leads hlog hworld).2

theorem Ensures.mono (h : s.Ensures W inv post state)
    (himp : ∀ a state, inv state → post a state → post' a state) : s.Ensures W inv post' state := by
  induction s generalizing state with
  | done a => exact ⟨h.1, himp _ _ h.1 h.2⟩
  | ask q next ih => exact ⟨h.1, fun answer after hx => ih answer (h.2 answer after hx)⟩

theorem ensures_bind {t : Script Q A α} {k : α → Script Q A β} {post : β → σ → Prop} :
    (t >>= k).Ensures W inv post state ↔
      t.Ensures W inv (fun a after => (k a).Ensures W inv post after) state := by
  induction t generalizing state with
  | done a => exact ⟨fun h => ⟨h.holds, h⟩, fun h => h.2⟩
  | ask q next ih =>
    constructor
    · exact fun h => ⟨h.1, fun answer after hx => (ih answer).mp (h.2 answer after hx)⟩
    · exact fun h => ⟨h.1, fun answer after hx => (ih answer).mpr (h.2 answer after hx)⟩

/-- Whatever the world answers, this holds at the end; nothing is said of what is in between. -/
abbrev Results (W : World Q A σ) (s : Script Q A α) (post : α → σ → Prop) (state : σ) : Prop :=
  s.Ensures W (fun _ => True) post state

/-! ## Scripts that ask questions of one kind -/

/-- Every question of the script is of this kind, whatever the answers. -/
def Only (p : Q → Prop) : Script Q A α → Prop
  | .done _ => True
  | .ask q next => p q ∧ ∀ answer, (next answer).Only p

variable {p : Q → Prop}

theorem Only.bind {t : Script Q A α} {k : α → Script Q A β} (ht : t.Only p)
    (hk : ∀ a, (k a).Only p) : (t >>= k).Only p := by
  induction t with
  | done a => exact hk a
  | ask q next ih => exact ⟨ht.1, fun answer => ih answer (ht.2 answer)⟩

theorem Only.mono {p' : Q → Prop} (hs : s.Only p) (himp : ∀ q, p q → p' q) : s.Only p' := by
  induction s with
  | done a => trivial
  | ask q next ih => exact ⟨himp q hs.1, fun answer => ih answer (hs.2 answer)⟩

/-- Questions of this kind keep the predicate. -/
def Keeps (W : World Q A σ) (p : Q → Prop) (I : σ → Prop) : Prop :=
  ∀ state q answer after, p q → W state q answer after → I state → I after

/-- A script keeps what its questions keep. -/
theorem Only.ensures {I : σ → Prop} (hs : s.Only p) (hkeeps : Keeps W p I)
    (hinv : ∀ state, I state → inv state) (h : I state) :
    s.Ensures W inv (fun _ after => I after) state := by
  induction s generalizing state with
  | done a => exact ⟨hinv state h, h⟩
  | ask q next ih =>
    refine ⟨hinv state h, fun answer after hx => ?_⟩
    exact ih answer (hs.2 answer) (hkeeps state q answer after hs.1 hx h)

/-- Every question of the script is of this kind, and it ends with a value like this. -/
def Yields (p : Q → Prop) (post : α → Prop) : Script Q A α → Prop
  | .done a => post a
  | .ask q next => p q ∧ ∀ answer, (next answer).Yields p post

theorem yields_of_true : s.Yields (fun _ => True) fun _ => True := by
  induction s with
  | done a => trivial
  | ask q next ih => exact ⟨trivial, ih⟩

theorem Only.yields (hs : s.Only p) : s.Yields p fun _ => True := by
  induction s with
  | done a => trivial
  | ask q next ih => exact ⟨hs.1, fun answer => ih answer (hs.2 answer)⟩

theorem Yields.mono {post post' : α → Prop} (hs : s.Yields p post) (himp : ∀ a, post a → post' a) :
    s.Yields p post' := by
  induction s with
  | done a => exact himp a hs
  | ask q next ih => exact ⟨hs.1, fun answer => ih answer (hs.2 answer)⟩

theorem Yields.bind {t : Script Q A α} {k : α → Script Q A β} {post : α → Prop} {post' : β → Prop}
    (ht : t.Yields p post) (hk : ∀ a, post a → (k a).Yields p post') : (t >>= k).Yields p post' := by
  induction t with
  | done a => exact hk a ht
  | ask q next ih => exact ⟨ht.1, fun answer => ih answer (ht.2 answer)⟩

theorem Only.bind_yields {t : Script Q A α} {k : α → Script Q A β} {post : β → Prop} (ht : t.Only p)
    (hk : ∀ a, (k a).Yields p post) : (t >>= k).Yields p post :=
  ht.yields.bind fun a _ => hk a

/-- Such a script keeps what its questions keep, and its value is as said. -/
theorem Yields.ensures {I : σ → Prop} {post : α → Prop} (hs : s.Yields p post) (hkeeps : Keeps W p I)
    (hinv : ∀ state, I state → inv state) (h : I state) :
    s.Ensures W inv (fun a after => I after ∧ post a) state := by
  induction s generalizing state with
  | done a => exact ⟨hinv state h, h, hs⟩
  | ask q next ih =>
    refine ⟨hinv state h, fun answer after hx => ?_⟩
    exact ih answer (hs.2 answer) (hkeeps state q answer after hs.1 hx h)

/-- What a whole path through such a script asks, and what it ends with. -/
theorem Yields.of_leads {post : α → Prop} {a : α} (hs : s.Yields p post)
    (hlog : s.Leads log (.done a)) : (∀ x ∈ log, p x.question) ∧ post a := by
  induction s generalizing log with
  | done b =>
    cases hlog
    exact ⟨fun _ hx => absurd hx List.not_mem_nil, hs⟩
  | ask q next ih =>
    cases hlog with
    | step hlog =>
      obtain ⟨hall, hpost⟩ := ih _ (hs.2 _) hlog
      exact ⟨List.forall_mem_cons.mpr ⟨hs.1, hall⟩, hpost⟩

end Script

end Backlog
