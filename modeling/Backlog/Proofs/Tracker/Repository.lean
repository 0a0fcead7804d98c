/-
  Version control as an index and the revisions made from it.

  Program: staging puts paths into the index, unstaging takes them out, and a commit that makes a
  revision moves the whole index into it.  Of the store's own files, those that have changed are
  staged; which ones that are is left open.

  Specification: `Answers` says what each request does if it is carried out, and that it does nothing
  if it fails.  Two kinds of surroundings narrow this down: in the `dependable` ones unstaging and
  committing never fail, and there is nothing to commit only while the index is empty; in the
  `unfailing` ones no request to stage, unstage or commit fails.

  The crux is that a revision keeps the paths that it was made from, so that where they come from can
  be asked later.
-/
import Backlog.Proofs.Coordinator.Staging
import Mathlib.Data.Finset.Dedup
import Mathlib.Data.Finset.Lattice.Lemmas
import Mathlib.Data.Finset.SDiff

namespace Backlog

/-- What a commit has made: its message, and the paths that were in the index. -/
structure Revision where
  message : String
  paths : Finset String
deriving DecidableEq

/-- The paths in the index, and the revisions, the latest last. -/
structure Repository where
  index : Finset String := ∅
  revisions : List Revision := []
deriving DecidableEq

namespace Repository

/-! ## What requests do -/

/-- The repository with these paths in the index too. -/
def add (r : Repository) (paths : Finset String) : Repository :=
  { r with index := r.index ∪ paths }

/-- The repository with none of these paths in the index. -/
def remove (r : Repository) (paths : Finset String) : Repository :=
  { r with index := r.index \ paths }

/-- The repository with a revision made from the index. -/
def commit (r : Repository) (message : String) : Repository :=
  { index := ∅, revisions := r.revisions ++ [⟨message, r.index⟩] }

@[simp] theorem add_empty (r : Repository) : r.add ∅ = r := by
  rw [add, Finset.union_empty]

/-- How a repository answers, given the files of the store, and what it holds then. -/
def Answers (files : Finset String) : Surroundings Repository := fun r q =>
  match q with
  | .stage paths => fun
    | .ok () => fun after => after = r.add paths.toFinset
    | .error _ => fun after => after = r
  | .unstage paths => fun
    | .ok () => fun after => after = r.remove paths.toFinset
    | .error _ => fun after => after = r
  | .stageStore => fun _ after => ∃ changed ⊆ files, after = r.add changed
  | .commit message => fun
    | .ok (some _) => fun after => after = r.commit message
    | .ok none | .error _ => fun after => after = r
  | _ => fun _ after => after = r

/-- Unstaging and committing do not fail, and there is something to commit unless the index is
    empty. -/
def Dependable (r : Repository) : (q : Request) → q.Answer → Prop
  | .unstage _, answer => answer = .ok ()
  | .commit _, answer => ∃ revision, answer = .ok revision ∧ (revision = none → r.index = ∅)
  | _, _ => True

/-- Surroundings with a version control on which one can depend. -/
def dependable (files : Finset String) : Surroundings Repository := fun r q answer after =>
  Answers files r q answer after ∧ r.Dependable q answer

/-- Surroundings with a version control that never fails. -/
def unfailing (files : Finset String) : Surroundings Repository := fun r q answer after =>
  Answers files r q answer after ∧ Exchange.trackerFails ⟨q, answer⟩ = false

/-! ## What is known of every repository -/

/-- The surroundings answer as a repository does. -/
def Behaves (files : Finset String) (W : Surroundings Repository) : Prop :=
  ∀ r q answer after, W r q answer after → Answers files r q answer after

theorem behaves_dependable (files : Finset String) : Behaves files (dependable files) :=
  fun _ _ _ _ hx => hx.1

theorem behaves_unfailing (files : Finset String) : Behaves files (unfailing files) :=
  fun _ _ _ _ hx => hx.1

variable {files : Finset String} {W : Surroundings Repository} {r after : Repository}

/-- Nothing happens to a repository that is left alone. -/
theorem Behaves.still (hW : Behaves files W) : Still W := by
  intro r q answer after hq hx
  have hanswers := hW r q answer after hx
  -- the four requests that it may change at are not calm
  cases q with
  | stage paths => exact hq.elim
  | unstage paths => exact hq.elim
  | stageStore => exact hq.elim
  | commit message => exact hq.elim
  | _ => exact hanswers

/-- Staging adds all of the paths, or none if it was not done. -/
theorem Behaves.staging (hW : Behaves files W) {paths : List String} {staged : Bool}
    (h : Staging W paths r staged after) :
    after = r.add (if staged then paths.toFinset else ∅) := by
  cases h with
  | nothing => exact (add_empty _).symm
  | failed hx =>
    obtain rfl : after = r := hW _ _ _ _ hx
    exact (add_empty _).symm
  | staged hx =>
    obtain rfl : after = r.add paths.toFinset := hW _ _ _ _ hx
    rfl

/-- A commit asked for makes a revision or leaves everything as it is. -/
theorem Behaves.commit (hW : Behaves files W) {message : String}
    {answer : Except TrackerFault (Option String)} (hx : W r (.commit message) answer after) :
    ((∃ revision, answer = .ok (some revision)) ∧ after = r.commit message) ∨
    ((answer = .ok none ∨ ∃ fault, answer = .error fault) ∧ after = r) := by
  have hanswers := hW _ _ _ _ hx
  rcases answer with fault | _ | revision
  · exact .inr ⟨.inr ⟨fault, rfl⟩, hanswers⟩
  · exact .inr ⟨.inl rfl, hanswers⟩
  · exact .inl ⟨⟨revision, rfl⟩, hanswers⟩

end Repository

/-! ## Replaying a path -/

/-- Version control did what it was asked for: nothing failed, and a commit made a revision. -/
def Exchange.smooth : Exchange → Bool
  | ⟨.commit _, .ok none⟩ => false
  | x => !x.trackerFails

namespace Repository

variable {files : Finset String} {log : List Exchange}

/-- The repository after an exchange in which version control did what it was asked for, and all of
    the store's files had changed. -/
def next (files : Finset String) (r : Repository) : Exchange → Repository
  | ⟨.stage paths, _⟩ => r.add paths.toFinset
  | ⟨.unstage paths, _⟩ => r.remove paths.toFinset
  | ⟨.stageStore, _⟩ => r.add files
  | ⟨.commit message, _⟩ => r.commit message
  | _ => r

/-- The repository after these exchanges. -/
def replay (files : Finset String) (r : Repository) (log : List Exchange) : Repository :=
  log.foldl (next files) r

theorem answers_next (r : Repository) {x : Exchange} (hx : x.smooth = true) :
    Answers files r x.question x.answer (next files r x) ∧ r.Dependable x.question x.answer ∧
      x.trackerFails = false := by
  obtain ⟨q, answer⟩ := x
  cases q with
  | stage paths =>
    rcases answer with fault | ⟨⟩
    · cases hx
    · exact ⟨rfl, trivial, rfl⟩
  | unstage paths =>
    rcases answer with fault | ⟨⟩
    · cases hx
    · exact ⟨rfl, rfl, rfl⟩
  | stageStore =>
    rcases answer with fault | ⟨⟩
    · cases hx
    · exact ⟨⟨files, subset_rfl, rfl⟩, trivial, rfl⟩
  | commit message =>
    rcases answer with fault | _ | revision
    · cases hx
    · cases hx
    · exact ⟨rfl, ⟨_, rfl, by rintro ⟨⟩⟩, rfl⟩
  | _ => exact ⟨rfl, trivial, rfl⟩

/-- Such a path is one that a dependable version control can take, and one that never fails too. -/
theorem takes_replay (files : Finset String) (r : Repository) (h : ∀ x ∈ log, x.smooth = true) :
    (dependable files).Takes r log (replay files r log) ∧
      (unfailing files).Takes r log (replay files r log) := by
  constructor
  · refine Script.World.takes_foldl r fun x hx r => ?_
    obtain ⟨hanswers, hdependable, -⟩ := answers_next r (h x hx)
    exact ⟨hanswers, hdependable⟩
  · refine Script.World.takes_foldl r fun x hx r => ?_
    obtain ⟨hanswers, -, hworks⟩ := answers_next r (h x hx)
    exact ⟨hanswers, hworks⟩

end Repository

end Backlog
