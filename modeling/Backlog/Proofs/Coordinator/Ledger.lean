/-
  A ledger of accepted changes and commits.

  Program: every accepted change has a line, in the order in which they were accepted, and every line
  has a fate.  A change is pending until a commit settles it: the commit lists it, clears it without
  listing it, or releases it because there was nothing to commit.  `accept`, `flush` and `alone` keep
  the ledger.

  Specification: fates are final (`Evolves`), every commit lists the entries whose fate says so, in
  the order of their lines (`Backed`), and if every commit has made a revision, the entries listed so
  far with the pending ones after them are all entries in order (`Complete`).

  The crux is the order: nothing that is pending has a listed line after it, so what is listed next
  comes after all that was listed before.
-/
import Backlog.Proofs.Coordinator.Commits
import Mathlib.Data.List.Basic

namespace Backlog

/-! ## Lines -/

/-- What has become of an accepted change. Commits are counted from zero. -/
inductive Fate where
  | pending
  | listed (commit : Nat)
  /-- A commit that does not list the change has put it into a revision. -/
  | cleared (commit : Nat)
  /-- There was nothing to commit. -/
  | released (commit : Nat)
deriving DecidableEq

/-- The commit that settled a change. -/
def Fate.commit? : Fate → Option Nat
  | .pending => none
  | .listed n | .cleared n | .released n => some n

/-- An accepted change and what has become of it. -/
structure Line where
  entry : Batch.Entry
  fate : Fate
deriving DecidableEq

namespace Line

/-- A pending line with its fate settled. -/
def settle (fate : Fate) (line : Line) : Line :=
  if line.fate = .pending then { line with fate } else line

theorem settle_of_pending {fate : Fate} {line : Line} (h : line.fate = .pending) :
    line.settle fate = { line with fate } := if_pos h

theorem settle_of_not_pending {fate : Fate} {line : Line} (h : line.fate ≠ .pending) :
    line.settle fate = line := if_neg h

/-- What a line may turn into: only a pending one changes, and then only its fate. -/
structure Becomes (x y : Line) : Prop where
  entry : y.entry = x.entry
  fate : x.fate ≠ .pending → y.fate = x.fate

theorem becomes_settle (fate : Fate) (line : Line) : line.Becomes (line.settle fate) := by
  by_cases h : line.fate = .pending
  · rw [settle_of_pending h]
    exact ⟨rfl, fun hne => absurd h hne⟩
  · rw [settle_of_not_pending h]
    exact ⟨rfl, fun _ => rfl⟩

/-- Two lines one of which comes before the other: if the later one is listed, the earlier one is not
    pending, and was not listed afterwards. -/
def Precedes (x y : Line) : Prop :=
  ∀ n, y.fate = .listed n → x.fate ≠ .pending ∧ ∀ m, x.fate = .listed m → m ≤ n

end Line

/-- The entries of the lines with this fate. -/
def fated (fate : Fate) (lines : List Line) : Batch :=
  (lines.filter fun line => line.fate = fate).map Line.entry

section

variable {fate other : Fate} {lines : List Line}

@[simp] theorem fated_nil (fate : Fate) : fated fate [] = [] := rfl

@[simp] theorem fated_append (fate : Fate) (xs ys : List Line) :
    fated fate (xs ++ ys) = fated fate xs ++ fated fate ys := by
  rw [fated, List.filter_append, List.map_append]
  rfl

theorem fated_cons_self {line : Line} (h : line.fate = fate) :
    fated fate (line :: lines) = line.entry :: fated fate lines := by
  rw [fated, List.filter_cons_of_pos (by simp [h]), List.map_cons]
  rfl

theorem fated_cons_mk (fate : Fate) (e : Batch.Entry) (lines : List Line) :
    fated fate (⟨e, fate⟩ :: lines) = e :: fated fate lines := fated_cons_self rfl

theorem fated_cons_other {line : Line} (h : line.fate ≠ fate) :
    fated fate (line :: lines) = fated fate lines := by
  rw [fated, List.filter_cons_of_neg (by simp [h])]
  rfl

theorem fated_eq_nil (h : ∀ line ∈ lines, line.fate ≠ fate) : fated fate lines = [] := by
  induction lines with
  | nil => rfl
  | cons line lines ih =>
    rw [fated_cons_other (h line List.mem_cons_self)]
    exact ih fun line hline => h line (List.mem_cons_of_mem _ hline)

/-- New lines are pending. -/
theorem fated_pending_new (entries : Batch) :
    fated .pending (entries.map fun e => ⟨e, .pending⟩) = entries := by
  induction entries with
  | nil => rfl
  | cons e entries ih => rw [List.map_cons, fated_cons_mk, ih]

theorem fated_other_new (h : fate ≠ .pending) (entries : Batch) :
    fated fate (entries.map fun e => ⟨e, .pending⟩) = [] := by
  refine fated_eq_nil fun line hline => ?_
  obtain ⟨e, -, rfl⟩ := List.mem_map.mp hline
  exact fun hpending => h hpending.symm

/-- What was pending gets the fate that it is settled with, one that no line had. -/
theorem fated_settle (hnew : ∀ line ∈ lines, line.fate ≠ fate) :
    fated fate (lines.map (Line.settle fate)) = fated .pending lines := by
  induction lines with
  | nil => rfl
  | cons line lines ih =>
    have htail := ih fun line hline => hnew line (List.mem_cons_of_mem _ hline)
    rw [List.map_cons]
    by_cases hpending : line.fate = .pending
    · rw [Line.settle_of_pending hpending, fated_cons_mk, htail, fated_cons_self hpending]
    · rw [Line.settle_of_not_pending hpending, fated_cons_other (hnew line List.mem_cons_self), htail,
        fated_cons_other hpending]

/-- The lines with another fate stay the same ones. -/
theorem fated_settle_other (hpending : other ≠ .pending) (hother : other ≠ fate) :
    fated other (lines.map (Line.settle fate)) = fated other lines := by
  induction lines with
  | nil => rfl
  | cons line lines ih =>
    rw [List.map_cons]
    by_cases hline : line.fate = .pending
    · rw [Line.settle_of_pending hline, fated_cons_other (Ne.symm hother), ih, fated_cons_other]
      rw [hline]
      exact Ne.symm hpending
    · rw [Line.settle_of_not_pending hline]
      by_cases hfate : line.fate = other
      · rw [fated_cons_self hfate, fated_cons_self hfate, ih]
      · rw [fated_cons_other hfate, fated_cons_other hfate, ih]

/-- Nothing is pending any more. -/
theorem fated_settle_pending (hfate : fate ≠ .pending) :
    fated .pending (lines.map (Line.settle fate)) = [] := by
  refine fated_eq_nil fun line hline => ?_
  obtain ⟨line, -, rfl⟩ := List.mem_map.mp hline
  by_cases h : line.fate = .pending
  · rw [Line.settle_of_pending h]
    exact hfate
  · rw [Line.settle_of_not_pending h]
    exact h

theorem map_settle_pending (lines : List Line) : lines.map (Line.settle .pending) = lines := by
  refine (List.map_congr_left fun line _ => ?_).trans (List.map_id lines)
  by_cases h : line.fate = .pending
  · rw [Line.settle_of_pending h, ← h]
    rfl
  · exact Line.settle_of_not_pending h

end

/-! ## The ledger -/

/-- The lines, and how many commits were asked for. -/
structure Ledger where
  lines : List Line := []
  commits : Nat := 0

namespace Ledger

/-- The accepted changes, in order. -/
def entries (L : Ledger) : Batch := L.lines.map Line.entry

/-- The changes that wait for a commit. -/
def pending (L : Ledger) : Batch := fated .pending L.lines

/-- The changes that a commit has listed. -/
def listed (L : Ledger) (n : Nat) : Batch := fated (.listed n) L.lines

/-- The changes that a commit has put into a revision without listing them. -/
def cleared (L : Ledger) (n : Nat) : Batch := fated (.cleared n) L.lines

/-- The changes that were released because a commit that covered them had nothing to commit. -/
def released (L : Ledger) (n : Nat) : Batch := fated (.released n) L.lines

/-- Enter accepted changes. -/
def accept (L : Ledger) (entries : Batch) : Ledger :=
  { L with lines := L.lines ++ entries.map fun e => ⟨e, .pending⟩ }

/-- Enter a commit: the fate that it gives to what was pending, and the lines that it adds. -/
def enter (L : Ledger) (fate : Fate) (own : List Line) : Ledger :=
  { lines := L.lines.map (Line.settle fate) ++ own, commits := L.commits + 1 }

/-- Enter a commit of the batch. -/
def flush (L : Ledger) (answer : Except TrackerFault (Option String)) : Ledger :=
  match answer with
  | .ok (some _) => L.enter (.listed L.commits) []
  | .ok none => L.enter (.released L.commits) []
  | .error _ => L.enter .pending []

/-- Enter a commit of one change alone. -/
def alone (L : Ledger) (e : Batch.Entry) (answer : Except TrackerFault (Option String)) : Ledger :=
  match answer with
  | .ok (some _) => L.enter (.cleared L.commits) [⟨e, .listed L.commits⟩]
  | .ok none => L.enter .pending [⟨e, .released L.commits⟩]
  | .error _ => L.enter .pending [⟨e, .pending⟩]

/-! ## Fates are final -/

/-- One ledger is a later state of the other: every line is where it was, with the same entry, and
    with the same fate unless it was pending. -/
def Evolves (L L' : Ledger) : Prop :=
  ∀ (i : Nat) (x : Line), L.lines[i]? = some x → ∃ y, L'.lines[i]? = some y ∧ x.Becomes y

theorem Evolves.refl (L : Ledger) : L.Evolves L := fun _ x hx => ⟨x, hx, rfl, fun _ => rfl⟩

theorem Evolves.trans {L L' L'' : Ledger} (h : L.Evolves L') (h' : L'.Evolves L'') :
    L.Evolves L'' := by
  intro i x hx
  obtain ⟨y, hy, hxy⟩ := h i x hx
  obtain ⟨z, hz, hyz⟩ := h' i y hy
  refine ⟨z, hz, hyz.entry.trans hxy.entry, fun hne => ?_⟩
  have hfate := hxy.fate hne
  rw [← hfate] at hne
  rw [hyz.fate hne, hfate]

theorem evolves_accept (L : Ledger) (entries : Batch) : L.Evolves (L.accept entries) := by
  intro i x hx
  obtain ⟨hi, -⟩ := List.getElem?_eq_some_iff.mp hx
  refine ⟨x, ?_, rfl, fun _ => rfl⟩
  show (L.lines ++ _)[i]? = some x
  rw [List.getElem?_append_left hi, hx]

theorem evolves_enter (L : Ledger) (fate : Fate) (own : List Line) :
    L.Evolves (L.enter fate own) := by
  intro i x hx
  obtain ⟨hi, -⟩ := List.getElem?_eq_some_iff.mp hx
  refine ⟨x.settle fate, ?_, Line.becomes_settle fate x⟩
  show (L.lines.map (Line.settle fate) ++ own)[i]? = some (x.settle fate)
  rw [List.getElem?_append_left (by rw [List.length_map]; exact hi), List.getElem?_map, hx]
  rfl

theorem evolves_flush (L : Ledger) (answer : Except TrackerFault (Option String)) :
    L.Evolves (L.flush answer) := by
  rcases answer with fault | _ | revision
  · exact evolves_enter _ _ _
  · exact evolves_enter _ _ _
  · exact evolves_enter _ _ _

theorem evolves_alone (L : Ledger) (e : Batch.Entry)
    (answer : Except TrackerFault (Option String)) : L.Evolves (L.alone e answer) := by
  rcases answer with fault | _ | revision
  · exact evolves_enter _ _ _
  · exact evolves_enter _ _ _
  · exact evolves_enter _ _ _

/-! ## Fates are backed by commits -/

end Ledger

/-- The message of the commit lists these changes, each in a line of its own, in order; or there is just
    one, and the message tells it. -/
def Commit.Lists (c : Commit) (entries : Batch) : Prop :=
  (entries ≠ [] ∧ entries.IsListedBy c.message) ∨ ∃ e, entries = [e] ∧ e.IsToldBy c.message

namespace Ledger

/-- What the ledger says about a commit agrees with how it was answered: a revision lists some
    changes, one with nothing to commit releases some, and one that failed does nothing. -/
def Accounts (L : Ledger) (n : Nat) (c : Commit) : Prop :=
  match c.answer with
  | .ok (some _) => c.Lists (L.listed n) ∧ L.released n = []
  | .ok none => c.Lists (L.released n) ∧ L.listed n = [] ∧ L.cleared n = []
  | .error _ => L.listed n = [] ∧ L.cleared n = [] ∧ L.released n = []

/-- The ledger agrees with the commits that were asked for. -/
structure Backed (L : Ledger) (commits : List Commit) : Prop where
  counted : L.commits = commits.length
  dated : ∀ line ∈ L.lines, ∀ n, line.fate.commit? = some n → n < L.commits
  accounts : ∀ n c, commits[n]? = some c → L.Accounts n c
  ordered : L.lines.Pairwise Line.Precedes

variable {L : Ledger} {commits : List Commit}

theorem backed_nil : Backed {} [] where
  counted := rfl
  dated := fun _ h => nomatch h
  accounts := fun _ _ h => nomatch h
  ordered := .nil

theorem accounts_of_eq {L' : Ledger} {n : Nat} {c : Commit} (h : L.Accounts n c)
    (hlisted : L'.listed n = L.listed n) (hcleared : L'.cleared n = L.cleared n)
    (hreleased : L'.released n = L.released n) : L'.Accounts n c := by
  unfold Accounts at h ⊢
  rw [hlisted, hcleared, hreleased]
  exact h

/-- A fate that is given by the next commit is a new one. -/
theorem Backed.new (h : L.Backed commits) {fate : Fate} (hfate : fate.commit? = some L.commits) :
    ∀ line ∈ L.lines, line.fate ≠ fate := by
  rintro line hline rfl
  exact Nat.lt_irrefl _ (h.dated line hline _ hfate)

/-- New lines are pending, so nothing is said about commits. -/
theorem fated_accept {fate : Fate} (hfate : fate ≠ .pending) (L : Ledger) (entries : Batch) :
    fated fate (L.accept entries).lines = fated fate L.lines := by
  show fated fate (L.lines ++ _) = _
  rw [fated_append, fated_other_new hfate, List.append_nil]

theorem Backed.accept (h : L.Backed commits) (entries : Batch) :
    (L.accept entries).Backed commits where
  counted := h.counted
  dated := by
    intro line hline n hn
    rcases List.mem_append.mp hline with hline | hline
    · exact h.dated line hline n hn
    · obtain ⟨e, -, rfl⟩ := List.mem_map.mp hline
      cases hn
  accounts := by
    intro n c hc
    exact accounts_of_eq (h.accounts n c hc) (fated_accept (by simp) L entries)
      (fated_accept (by simp) L entries) (fated_accept (by simp) L entries)
  ordered := by
    have hnew : ∀ x y : Line, y ∈ entries.map (fun e => (⟨e, .pending⟩ : Line)) → x.Precedes y := by
      intro x y hy n hn
      obtain ⟨e, -, rfl⟩ := List.mem_map.mp hy
      cases hn
    refine List.pairwise_append.mpr ⟨h.ordered, ?_, fun x _ y hy => hnew x y hy⟩
    exact List.Pairwise.imp_of_mem (fun _ hy _ => hnew _ _ hy) (List.pairwise_of_forall fun _ _ => trivial)

/-- Entering a commit leaves alone what earlier commits have settled. -/
theorem fated_enter_old {fate other : Fate} {own : List Line} {n : Nat}
    (hother : other.commit? = some n) (hn : n < L.commits)
    (hfate : ∀ m, fate.commit? = some m → m = L.commits)
    (hown : ∀ line ∈ own, ∀ m, line.fate.commit? = some m → m = L.commits) :
    fated other (L.enter fate own).lines = fated other L.lines := by
  have hpending : other ≠ .pending := by
    rintro rfl
    cases hother
  have hne : other ≠ fate := by
    rintro rfl
    exact Nat.ne_of_lt hn (hfate n hother)
  have hnone : fated other own = [] := by
    refine fated_eq_nil fun line hline => ?_
    rintro rfl
    exact Nat.ne_of_lt hn (hown line hline n hother)
  show fated other (L.lines.map (Line.settle fate) ++ own) = _
  rw [fated_append, hnone, List.append_nil, fated_settle_other hpending hne]

/-- Settling what was pending keeps the order: what is listed now comes after all that was listed. -/
theorem precedes_settle {fate : Fate} {x y : Line} (hx : ∀ m, x.fate.commit? = some m → m < L.commits)
    (hfate : ∀ m, fate.commit? = some m → m = L.commits) (h : x.Precedes y) :
    (x.settle fate).Precedes (y.settle fate) := by
  intro n hn
  by_cases hy : y.fate = .pending
  · -- the later line is listed by the commit that is entered
    rw [Line.settle_of_pending hy] at hn
    obtain rfl : fate = .listed n := hn
    have hlast := hfate n rfl
    by_cases hpending : x.fate = .pending
    · rw [Line.settle_of_pending hpending]
      refine ⟨by simp, fun m hm => ?_⟩
      cases hm
      exact Nat.le_refl _
    · rw [Line.settle_of_not_pending hpending]
      refine ⟨hpending, fun m hm => ?_⟩
      have hbefore := hx m (by rw [hm]; rfl)
      omega
  · -- it was listed before, and then the earlier line was not pending
    rw [Line.settle_of_not_pending hy] at hn
    obtain ⟨hpending, hle⟩ := h n hn
    rw [Line.settle_of_not_pending hpending]
    exact ⟨hpending, hle⟩

theorem Backed.enter (h : L.Backed commits) {fate : Fate} {own : List Line} {c : Commit}
    (hfate : ∀ m, fate.commit? = some m → m = L.commits)
    (hown : ∀ line ∈ own, ∀ m, line.fate.commit? = some m → m = L.commits)
    (hordered : own.Pairwise Line.Precedes)
    (hlast : ∀ line ∈ own, ∀ n, line.fate = .listed n → fate ≠ .pending)
    (haccounts : (L.enter fate own).Accounts L.commits c) :
    (L.enter fate own).Backed (commits ++ [c]) where
  counted := by
    show L.commits + 1 = _
    rw [h.counted, List.length_append]
    rfl
  dated := by
    intro line hline n hn
    show n < L.commits + 1
    rcases List.mem_append.mp hline with hline | hline
    · obtain ⟨line, hmem, rfl⟩ := List.mem_map.mp hline
      by_cases hpending : line.fate = .pending
      · rw [Line.settle_of_pending hpending] at hn
        have := hfate n hn
        omega
      · rw [Line.settle_of_not_pending hpending] at hn
        have := h.dated line hmem n hn
        omega
    · have := hown line hline n hn
      omega
  accounts := by
    intro n c' hc'
    rcases Nat.lt_or_ge n commits.length with hn | hn
    · -- an earlier commit
      rw [List.getElem?_append_left hn] at hc'
      have hbefore : n < L.commits := by
        rw [h.counted]
        exact hn
      exact accounts_of_eq (h.accounts n c' hc') (fated_enter_old rfl hbefore hfate hown)
        (fated_enter_old rfl hbefore hfate hown) (fated_enter_old rfl hbefore hfate hown)
    · -- the one that is entered
      rw [List.getElem?_append_right hn] at hc'
      obtain ⟨hlt, hsome⟩ := List.getElem?_eq_some_iff.mp hc'
      rw [List.length_singleton] at hlt
      obtain rfl : n = L.commits := by
        rw [h.counted]
        omega
      rw [List.getElem_singleton] at hsome
      rw [← hsome]
      exact haccounts
  ordered := by
    refine List.pairwise_append.mpr ⟨?_, hordered, ?_⟩
    · rw [List.pairwise_map]
      exact h.ordered.imp_of_mem fun hx _ hxy => precedes_settle (h.dated _ hx) hfate hxy
    · intro x hx y hy n hn
      -- an own line that is listed comes after lines that are settled by then
      obtain ⟨x, hmem, rfl⟩ := List.mem_map.mp hx
      have hsettled := hlast y hy n hn
      have hnow := hown y hy n (by rw [hn]; rfl)
      by_cases hpending : x.fate = .pending
      · rw [Line.settle_of_pending hpending]
        refine ⟨hsettled, fun m hm => ?_⟩
        obtain rfl : fate = .listed m := hm
        have := hfate m rfl
        omega
      · rw [Line.settle_of_not_pending hpending]
        refine ⟨hpending, fun m hm => ?_⟩
        have := h.dated x hmem m (by rw [hm]; rfl)
        omega

/-- The lines that a commit settles are those that were pending, if it gives them that fate, and its
    own. -/
theorem Backed.fated_enter (h : L.Backed commits) {fate other : Fate} {own : List Line}
    (hother : other.commit? = some L.commits) :
    fated other (L.enter fate own).lines
      = (if other = fate then L.pending else []) ++ fated other own := by
  show fated other (L.lines.map (Line.settle fate) ++ own) = _
  rw [fated_append]
  split
  · next heq =>
    subst heq
    rw [fated_settle (h.new hother)]
    rfl
  · next hne =>
    have hpending : other ≠ .pending := by
      rintro rfl
      cases hother
    rw [fated_settle_other hpending hne, fated_eq_nil (h.new hother)]

/-- A commit of the batch, when there is something in it. -/
theorem Backed.flush (h : L.Backed commits) {c : Commit} (hne : L.pending ≠ [])
    (hmessage : L.pending.IsListedBy c.message) : (L.flush c.answer).Backed (commits ++ [c]) := by
  obtain ⟨message, staged, answer⟩ := c
  have hown : ∀ line ∈ ([] : List Line), ∀ m, line.fate.commit? = some m → m = L.commits :=
    fun _ hline => nomatch hline
  have hlast : ∀ fate : Fate, ∀ line ∈ ([] : List Line), ∀ n, line.fate = .listed n →
      fate ≠ .pending := fun _ _ hline => nomatch hline
  have hnone : ∀ {fate other : Fate}, other.commit? = some L.commits → other ≠ fate →
      fated other (L.enter fate []).lines = [] := by
    intro fate other hother hfate
    rw [h.fated_enter hother, if_neg hfate]
    rfl
  have hall : ∀ {fate : Fate}, fate.commit? = some L.commits →
      fated fate (L.enter fate []).lines = L.pending := by
    intro fate hfate
    rw [h.fated_enter hfate, if_pos rfl, fated_nil, List.append_nil]
  -- failed, with nothing to commit, with a revision: only the last two settle anything
  rcases answer with fault | _ | revision
  · refine h.enter (fun _ hm => nomatch hm) hown .nil (hlast _) ?_
    exact ⟨hnone rfl (by simp), hnone rfl (by simp), hnone rfl (by simp)⟩
  · refine h.enter (fun m hm => (Option.some.inj hm).symm) hown .nil (hlast _) ?_
    refine ⟨Or.inl ?_, hnone rfl (by simp), hnone rfl (by simp)⟩
    rw [released, hall rfl]
    exact ⟨hne, hmessage⟩
  · refine h.enter (fun m hm => (Option.some.inj hm).symm) hown .nil (hlast _) ?_
    refine ⟨Or.inl ?_, hnone rfl (by simp)⟩
    rw [listed, hall rfl]
    exact ⟨hne, hmessage⟩

/-- A commit of one change alone. -/
theorem Backed.alone (h : L.Backed commits) {e : Batch.Entry} {c : Commit}
    (hmessage : e.IsToldBy c.message) : (L.alone e c.answer).Backed (commits ++ [c]) := by
  obtain ⟨message, staged, answer⟩ := c
  have hown : ∀ fate : Fate, (∀ m, fate.commit? = some m → m = L.commits) →
      ∀ line ∈ [(⟨e, fate⟩ : Line)], ∀ m, line.fate.commit? = some m → m = L.commits := by
    intro fate hfate line hline
    rw [List.mem_singleton] at hline
    rw [hline]
    exact hfate
  have hnone : ∀ {fate other own : Fate}, other.commit? = some L.commits → other ≠ fate →
      own ≠ other → fated other (L.enter fate [⟨e, own⟩]).lines = [] := by
    intro fate other own hother hfate hown
    rw [h.fated_enter hother, if_neg hfate, fated_cons_other hown]
    rfl
  have hone : ∀ {fate own : Fate}, own.commit? = some L.commits → own ≠ fate →
      fated own (L.enter fate [⟨e, own⟩]).lines = [e] := by
    intro fate own hown hfate
    rw [h.fated_enter hown, if_neg hfate, fated_cons_mk]
    rfl
  rcases answer with fault | _ | revision
  · refine h.enter (fun _ hm => nomatch hm) (hown _ fun _ hm => nomatch hm)
      (List.pairwise_singleton ..) ?_ ?_
    · intro line hline n hn
      rw [List.mem_singleton.mp hline] at hn
      cases hn
    · exact ⟨hnone rfl (by simp) (by simp), hnone rfl (by simp) (by simp),
        hnone rfl (by simp) (by simp)⟩
  · refine h.enter (fun _ hm => nomatch hm) (hown _ fun m hm => (Option.some.inj hm).symm)
      (List.pairwise_singleton ..) ?_ ?_
    · intro line hline n hn
      rw [List.mem_singleton.mp hline] at hn
      cases hn
    · refine ⟨Or.inr ⟨e, hone rfl (by simp), hmessage⟩, ?_, ?_⟩
      · exact hnone rfl (by simp) (by simp)
      · exact hnone rfl (by simp) (by simp)
  · refine h.enter (fun m hm => (Option.some.inj hm).symm)
      (hown _ fun m hm => (Option.some.inj hm).symm) (List.pairwise_singleton ..) ?_ ?_
    · exact fun _ _ _ _ => by simp
    · exact ⟨Or.inr ⟨e, hone rfl (by simp), hmessage⟩, hnone rfl (by simp) (by simp)⟩

/-! ## What is pending, and what was accepted -/

theorem pending_accept (L : Ledger) (entries : Batch) :
    (L.accept entries).pending = L.pending ++ entries := by
  show fated .pending (L.lines ++ _) = _
  rw [fated_append, fated_pending_new]
  rfl

theorem pending_enter (L : Ledger) {fate : Fate} (hfate : fate ≠ .pending) (own : List Line) :
    (L.enter fate own).pending = fated .pending own := by
  show fated .pending (L.lines.map (Line.settle fate) ++ own) = _
  rw [fated_append, fated_settle_pending hfate, List.nil_append]

theorem pending_enter_pending (L : Ledger) (own : List Line) :
    (L.enter .pending own).pending = L.pending ++ fated .pending own := by
  show fated .pending (L.lines.map (Line.settle .pending) ++ own) = _
  rw [fated_append, map_settle_pending]
  rfl

/-- A flush does to the ledger what it does to the batch. -/
theorem pending_flush (L : Ledger) (answer : Except TrackerFault (Option String)) :
    (L.flush answer).pending = L.pending.afterFlush answer := by
  rcases answer with fault | _ | revision
  · exact (pending_enter_pending L []).trans (List.append_nil _)
  · exact pending_enter L (by simp) []
  · exact pending_enter L (by simp) []

theorem pending_alone (L : Ledger) (e : Batch.Entry)
    (answer : Except TrackerFault (Option String)) :
    (L.alone e answer).pending = L.pending.afterAlone e answer := by
  rcases answer with fault | _ | revision
  · exact pending_enter_pending L [⟨e, .pending⟩]
  · exact (pending_enter_pending L [⟨e, .released L.commits⟩]).trans (List.append_nil _)
  · exact pending_enter L (by simp) [⟨e, .listed L.commits⟩]

theorem entries_accept (L : Ledger) (entries : Batch) :
    (L.accept entries).entries = L.entries ++ entries := by
  show (L.lines ++ entries.map _).map Line.entry = _
  rw [List.map_append, List.map_map]
  exact congrArg _ (List.map_id entries)

theorem entries_enter (L : Ledger) (fate : Fate) (own : List Line) :
    (L.enter fate own).entries = L.entries ++ own.map Line.entry := by
  show (L.lines.map (Line.settle fate) ++ own).map Line.entry = _
  rw [List.map_append, List.map_map]
  refine congrArg (· ++ own.map Line.entry) (List.map_congr_left fun line _ => ?_)
  exact (Line.becomes_settle fate line).entry

theorem entries_flush (L : Ledger) (answer : Except TrackerFault (Option String)) :
    (L.flush answer).entries = L.entries := by
  rcases answer with fault | _ | revision
  · exact (entries_enter L _ []).trans (List.append_nil _)
  · exact (entries_enter L _ []).trans (List.append_nil _)
  · exact (entries_enter L _ []).trans (List.append_nil _)

theorem entries_alone (L : Ledger) (e : Batch.Entry)
    (answer : Except TrackerFault (Option String)) : (L.alone e answer).entries = L.entries ++ [e] := by
  rcases answer with fault | _ | revision
  · exact entries_enter L _ _
  · exact entries_enter L _ _
  · exact entries_enter L _ _

/-! ## What was cleared -/

theorem cleared_accept (L : Ledger) (entries : Batch) (n : Nat) :
    (L.accept entries).cleared n = L.cleared n :=
  fated_accept (by simp) L entries

/-- No flush clears anything that it does not list. -/
theorem cleared_flush (L : Ledger) (answer : Except TrackerFault (Option String)) (n : Nat) :
    (L.flush answer).cleared n = L.cleared n := by
  have hkept : ∀ fate : Fate, fate ≠ .cleared n → (L.enter fate []).cleared n = L.cleared n := by
    intro fate hfate
    show fated _ (L.lines.map (Line.settle fate) ++ []) = _
    rw [List.append_nil, fated_settle_other (by simp) (Ne.symm hfate)]
    rfl
  rcases answer with fault | _ | revision
  · exact hkept _ (by simp)
  · exact hkept _ (by simp)
  · exact hkept _ (by simp)

/-- A commit of one change alone clears what was pending, if it makes a revision. -/
theorem Backed.cleared_alone (h : L.Backed commits) (e : Batch.Entry)
    (answer : Except TrackerFault (Option String)) (n : Nat) :
    (L.alone e answer).cleared n = L.cleared n ∨
      n = L.commits ∧ (∃ revision, answer = .ok (some revision)) ∧
        (L.alone e answer).cleared n = L.pending := by
  have hkept : ∀ own : Fate, own ≠ .cleared n →
      (L.enter .pending [⟨e, own⟩]).cleared n = L.cleared n := by
    intro own hown
    show fated _ (L.lines.map (Line.settle .pending) ++ [⟨e, own⟩]) = _
    rw [fated_append, fated_cons_other hown, map_settle_pending]
    exact List.append_nil _
  rcases answer with fault | _ | revision
  · exact Or.inl (hkept _ (by simp))
  · exact Or.inl (hkept _ (by simp))
  · by_cases hn : n = L.commits
    · -- the commit that is entered clears all that was pending
      refine Or.inr ⟨hn, ⟨revision, rfl⟩, ?_⟩
      subst hn
      show fated _ (L.enter _ _).lines = _
      rw [h.fated_enter rfl, if_pos rfl, fated_cons_other (by simp)]
      exact List.append_nil _
    · refine Or.inl ?_
      have hne : Fate.cleared n ≠ .cleared L.commits := fun heq => hn (Fate.cleared.inj heq)
      show fated _ (L.lines.map (Line.settle _) ++ [⟨e, .listed L.commits⟩]) = _
      rw [fated_append, fated_settle_other (by simp) hne, fated_cons_other (by simp)]
      exact List.append_nil _

/-! ## Nothing is missing -/

/-- All changes that commits have listed, one commit after the other. -/
def listings (L : Ledger) : Batch := (List.range L.commits).flatMap L.listed

/-- What was listed and then what is pending are all changes, in the order in which they were
    accepted. -/
def Complete (L : Ledger) : Prop := L.listings ++ L.pending = L.entries

theorem complete_nil : Complete {} := rfl

theorem Complete.accept (h : L.Complete) (entries : Batch) : (L.accept entries).Complete := by
  have hlistings : (L.accept entries).listings = L.listings := by
    have hlisted : (L.accept entries).listed = L.listed := by
      funext n
      exact fated_accept (by simp) L entries
    rw [listings, hlisted]
    rfl
  rw [Complete, hlistings, pending_accept, entries_accept, ← List.append_assoc, h]

/-- The next listing comes after the earlier ones. -/
theorem listings_enter {fate : Fate} {own : List Line}
    (hfate : ∀ m, fate.commit? = some m → m = L.commits)
    (hown : ∀ line ∈ own, ∀ m, line.fate.commit? = some m → m = L.commits) :
    (L.enter fate own).listings = L.listings ++ (L.enter fate own).listed L.commits := by
  show (List.range (L.commits + 1)).flatMap _ = _
  rw [List.range_succ, List.flatMap_append, List.flatMap_singleton]
  have hearlier : (List.range L.commits).flatMap (L.enter fate own).listed
      = (List.range L.commits).flatMap L.listed := by
    refine List.flatMap_congr fun n hn => ?_
    exact fated_enter_old rfl (List.mem_range.mp hn) hfate hown
  rw [hearlier]
  rfl

theorem Complete.flush (h : L.Complete) (hbacked : L.Backed commits) (revision : String) :
    (L.flush (.ok (some revision))).Complete := by
  have hlisted : (L.enter (.listed L.commits) []).listed L.commits = L.pending := by
    rw [listed, hbacked.fated_enter rfl, if_pos rfl, fated_nil, List.append_nil]
  have hlistings : (L.enter (.listed L.commits) []).listings = L.listings ++ L.pending := by
    rw [← hlisted]
    refine listings_enter (fun m hm => ?_) fun _ hline => nomatch hline
    cases hm
    rfl
  rw [Complete, pending_flush, entries_flush, ← h]
  show (L.enter (.listed L.commits) []).listings ++ [] = _
  rw [hlistings, List.append_nil]

theorem Complete.alone (h : L.Complete) (hbacked : L.Backed commits) (hpending : L.pending = [])
    (e : Batch.Entry) (revision : String) : (L.alone e (.ok (some revision))).Complete := by
  have hlisted : (L.enter (.cleared L.commits) [⟨e, .listed L.commits⟩]).listed L.commits = [e] := by
    rw [listed, hbacked.fated_enter rfl, if_neg (by simp), fated_cons_mk]
    rfl
  have hlistings : (L.enter (.cleared L.commits) [⟨e, .listed L.commits⟩]).listings
      = L.listings ++ [e] := by
    rw [← hlisted]
    refine listings_enter (fun m hm => ?_) fun line hline m hm => ?_
    · cases hm
      rfl
    · rw [List.mem_singleton.mp hline] at hm
      cases hm
      rfl
  rw [Complete, pending_alone, entries_alone, ← h, hpending, List.append_nil]
  show (L.enter _ _).listings ++ [] = _
  rw [hlistings, List.append_nil]

end Ledger

end Backlog
