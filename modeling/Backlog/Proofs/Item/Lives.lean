/-
  What an item keeps as long as it lives.

  Program: whatever happens to an item in whatever order, it is read back from two native fields and
  the extension entries that are there at the end.

  Specification: once an item is done it is done for good (`Life.done`), once it is blocked only an
  unblock frees it (`Life.blocked`), and what it is freed to is the status that it had when it was last
  blocked from another one (`Life.blockedFrom`).  The answer of a blocked item was given since the last
  block (`Life.answer`), and that of an item at work is the one that it was freed with
  (`Life.unblockContext`).

  Each of these is kept by one moment, as `Moment.Happens.shift` has it, and so by all of them.
-/
import Backlog.Proofs.Item.Moments

namespace Backlog

/-- The moments lead from the one item to the other, each going on where the last one ended. -/
inductive Life (set : Pipelines) : Item → List Moment → Item → Prop where
  | ends (item : Item) : Life set item [] item
  | goesOn {m : Moment} {ms : List Moment} {last : Item} :
      m.Happens set → Life set m.after ms last → Life set m.before (m :: ms) last

namespace Life

variable {set : Pipelines} {first item last : Item} {ms earlier later : List Moment} {m : Moment}

theorem append (hearlier : Life set first earlier item) (hlater : Life set item later last) :
    Life set first (earlier ++ later) last := by
  induction hearlier with
  | ends => exact hlater
  | goesOn hm _ ih => exact .goesOn hm (ih hlater)

theorem of_append (h : Life set first (earlier ++ later) last) :
    ∃ item, Life set first earlier item ∧ Life set item later last := by
  induction earlier generalizing first with
  | nil => exact ⟨first, .ends first, h⟩
  | cons m earlier ih =>
    cases h with
    | goesOn hm hrest =>
      obtain ⟨item, hearlier, hlater⟩ := ih hrest
      exact ⟨item, .goesOn hm hearlier, hlater⟩

/-- Every moment of a life happens between two parts of it. -/
theorem split (h : Life set first (earlier ++ m :: later) last) :
    Life set first earlier m.before ∧ m.Happens set ∧ Life set m.after later last := by
  obtain ⟨item, hearlier, hrest⟩ := h.of_append
  cases hrest with
  | goesOn hm hlater => exact ⟨hearlier, hm, hlater⟩

/-- What every moment keeps, with those before it in view, holds at the end. -/
theorem keeps {I : List Moment → Item → Prop}
    (hstep : ∀ earlier (m : Moment), m.Happens set → I earlier m.before → I (earlier ++ [m]) m.after)
    (h : Life set first ms last) (hfirst : I [] first) : I ms last := by
  induction h generalizing I with
  | ends => exact hfirst
  | @goesOn m ms last hm _ ih =>
    -- the later moments come after this one
    exact ih (I := fun earlier => I (m :: earlier)) (fun earlier => hstep (m :: earlier))
      (hstep [] m hm hfirst)

/-! ## Done and blocked -/

/-- Done is final. -/
theorem done (h : Life set first ms last) (hfirst : first.status = .done) : last.status = .done := by
  refine h.keeps (I := fun _ item => item.status = .done) (fun _ m hm hdone => ?_) hfirst
  cases hm.shift with
  | blocks _ hopen => exact absurd hdone hopen
  | answers _ hcourse => exact (congrArg Course.status hcourse).trans hdone
  | completes _ hopen => exact absurd hdone hopen
  | frees _ hblocked =>
    rw [hdone] at hblocked
    cases hblocked
  | moves _ hopen => exact absurd hdone hopen
  | stays _ hstatus => exact hstatus.trans hdone

/-- Blocked is left by an unblock alone. -/
theorem blocked (h : Life set first ms last) (hfirst : first.status = .blocked)
    (hms : ∀ m ∈ ms, ∀ context, m.event ≠ .unblocked context) : last.status = .blocked := by
  induction h with
  | ends => exact hfirst
  | @goesOn m ms last hm _ ih =>
    refine ih ?_ fun x hx => hms x (List.mem_cons_of_mem m hx)
    cases hm.shift with
    | blocks _ _ hcourse =>
      rw [Course.block_of_blocked hfirst] at hcourse
      exact (congrArg Course.status hcourse).trans hfirst
    | answers _ hcourse => exact (congrArg Course.status hcourse).trans hfirst
    | completes _ _ hopen => exact absurd hfirst hopen
    | frees hevent => exact absurd hevent (hms m List.mem_cons_self _)
    | moves _ _ hopen => exact absurd hfirst hopen
    | stays _ hstatus => exact hstatus.trans hfirst

end Life

/-- The status of the item when it was last blocked from another one. -/
def lastBlockedFrom (ms : List Moment) : Option Status :=
  (ms.reverse.find? fun m => m.before.status ≠ .blocked ∧ m.after.status = .blocked).map
    fun m => m.before.status

theorem lastBlockedFrom_snoc (ms : List Moment) (m : Moment) :
    lastBlockedFrom (ms ++ [m])
      = if m.before.status ≠ .blocked ∧ m.after.status = .blocked then some m.before.status
        else lastBlockedFrom ms := by
  rw [lastBlockedFrom, List.reverse_append, List.reverse_singleton, List.singleton_append,
    List.find?_cons]
  split
  · next h => rw [if_pos (of_decide_eq_true h), Option.map_some]
  · next h =>
    rw [if_neg (of_decide_eq_false h)]
    rfl

namespace Life

variable {set : Pipelines} {first last : Item} {ms : List Moment}

/-- What a blocked item is to be restored to is told by its life. -/
theorem blockedFrom (h : Life set first ms last) (hfirst : first.status ≠ .blocked)
    (hlast : last.status = .blocked) :
    ∃ restored, lastBlockedFrom ms = some restored ∧ last.blockedFrom = some restored := by
  refine h.keeps (I := fun earlier item => item.status = .blocked →
    ∃ restored, lastBlockedFrom earlier = some restored ∧ item.blockedFrom = some restored)
    (fun earlier m hm ih hafter => ?_) (fun hblocked => absurd hblocked hfirst) hlast
  -- what leaves both as they are adds nothing to the history
  have hsame : m.before.status = .blocked → m.after.blockedFrom = m.before.blockedFrom →
      ∃ restored, lastBlockedFrom (earlier ++ [m]) = some restored ∧
        m.after.blockedFrom = some restored := by
    intro hbefore hfrom
    rw [lastBlockedFrom_snoc, if_neg fun hnew => hnew.1 hbefore, hfrom]
    exact ih hbefore
  cases hm.shift with
  | blocks _ _ hcourse =>
    by_cases hbefore : m.before.status = .blocked
    · rw [Course.block_of_blocked hbefore] at hcourse
      exact hsame hbefore (congrArg Course.blockedFrom hcourse)
    · rw [Course.block_of_ne hbefore] at hcourse
      refine ⟨m.before.status, ?_, congrArg Course.blockedFrom hcourse⟩
      rw [lastBlockedFrom_snoc, if_pos ⟨hbefore, hafter⟩]
  | answers _ hcourse =>
    have hstatus : m.after.status = m.before.status := congrArg Course.status hcourse
    exact hsame (hstatus.symm.trans hafter) (congrArg Course.blockedFrom hcourse)
  | completes _ _ _ hopen => exact absurd hafter hopen
  | frees _ _ hopen => exact absurd hafter hopen
  | moves _ _ _ hopen => exact absurd hafter hopen
  | stays _ hstatus hfrom => exact hsame (hstatus.symm.trans hafter) hfrom

end Life

/-! ## The answer -/

/-- The text is the answer that counts after these moments: it was given in one of them, and nothing
    that matters to it has happened since. -/
def GivenIn (ms : List Moment) (text : String) : Prop :=
  ∃ earlier m later context, ms = earlier ++ m :: later ∧
    m.event = .updated (.setUnblockContext (some context)) ∧ text = Text.trim context ∧
    ∀ x ∈ later, x.resets = false

theorem GivenIn.snoc {ms : List Moment} {m : Moment} {text : String} (h : GivenIn ms text)
    (hm : m.resets = false) : GivenIn (ms ++ [m]) text := by
  obtain ⟨earlier, given, later, context, rfl, hevent, htext, hlater⟩ := h
  refine ⟨earlier, given, later ++ [m], context, ?_, hevent, htext, ?_⟩
  · rw [List.append_assoc, List.cons_append]
  · exact List.forall_mem_append.mpr ⟨hlater, List.forall_mem_singleton.mpr hm⟩

/-- The moments since the last block, and that the answer of the item was given in them. -/
structure SinceBlock (ms since : List Moment) (item : Item) : Prop where
  blocked : ∃ earlier m, ms = earlier ++ m :: since ∧ m.blocks = true
  calm : ∀ x ∈ since, x.blocks = false
  given : ∀ text, item.unblockContext = some text → GivenIn since text

namespace SinceBlock

variable {ms since : List Moment} {item : Item} {m : Moment}

/-- A block leaves no answer. -/
theorem of_blocks (ms : List Moment) (hblocks : m.blocks = true)
    (hcontext : m.after.unblockContext = none) : SinceBlock (ms ++ [m]) [] m.after where
  blocked := ⟨ms, m, rfl, hblocks⟩
  calm := fun _ hx => absurd hx List.not_mem_nil
  given := by
    intro text htext
    rw [hcontext] at htext
    cases htext

/-- One more moment that is no block. -/
theorem snoc (h : SinceBlock ms since m.before) (hblocks : m.blocks = false)
    (hgiven : ∀ text, m.after.unblockContext = some text → GivenIn (since ++ [m]) text) :
    SinceBlock (ms ++ [m]) (since ++ [m]) m.after where
  blocked := by
    obtain ⟨earlier, b, rfl, hb⟩ := h.blocked
    exact ⟨earlier, b, by rw [List.append_assoc, List.cons_append], hb⟩
  calm := List.forall_mem_append.mpr ⟨h.calm, List.forall_mem_singleton.mpr hblocks⟩
  given := hgiven

end SinceBlock

theorem Moment.blocks_of_resets {m : Moment} (h : m.resets = false) : m.blocks = false := by
  rw [Moment.resets, Bool.or_eq_false_iff] at h
  exact h.1

namespace Life

variable {set : Pipelines} {first last : Item} {ms : List Moment}

/-- A blocked item was blocked at some time, and its answer was given since. -/
theorem answer (h : Life set first ms last) (hfirst : first.status ≠ .blocked)
    (hlast : last.status = .blocked) : ∃ since, SinceBlock ms since last := by
  refine h.keeps (I := fun earlier item => item.status = .blocked →
    ∃ since, SinceBlock earlier since item)
    (fun earlier m hm ih hafter => ?_) (fun hblocked => absurd hblocked hfirst) hlast
  cases hm.shift with
  | blocks hblocks _ _ hcontext => exact ⟨[], .of_blocks earlier hblocks hcontext⟩
  | @answers context hevent hcourse hcontext =>
    have hstatus : m.after.status = m.before.status := congrArg Course.status hcourse
    obtain ⟨since, hsince⟩ := ih (hstatus.symm.trans hafter)
    have hblocks : m.blocks = false := by rw [Moment.blocks, hevent]
    refine ⟨since ++ [m], hsince.snoc hblocks fun text htext => ?_⟩
    -- the answer that was given last
    rw [hcontext] at htext
    cases context with
    | none => cases htext
    | some given =>
      obtain ⟨htrim, -⟩ := Option.filter_eq_some_iff.mp htext
      exact ⟨since, m, [], given, rfl, hevent, (Option.some.inj htrim).symm,
        fun _ hx => absurd hx List.not_mem_nil⟩
  | completes _ _ _ hopen => exact absurd hafter hopen
  | frees _ _ hopen => exact absurd hafter hopen
  | moves _ _ _ hopen => exact absurd hafter hopen
  | stays hresets hstatus _ hcontext =>
    obtain ⟨since, hsince⟩ := ih (hstatus.symm.trans hafter)
    refine ⟨since ++ [m], hsince.snoc (Moment.blocks_of_resets hresets) fun text htext => ?_⟩
    exact (hsince.given text (hcontext.symm.trans htext)).snoc hresets

/-- An item that is not blocked keeps its answer until something happens that matters to it. -/
theorem unblockContext (h : Life set first ms last) (hfirst : first.status ≠ .blocked)
    (hms : ∀ m ∈ ms, m.resets = false) : last.unblockContext = first.unblockContext := by
  induction h with
  | ends => rfl
  | @goesOn m ms last hm _ ih =>
    have hresets := hms m List.mem_cons_self
    have hrest : ∀ x ∈ ms, x.resets = false := fun x hx => hms x (List.mem_cons_of_mem m hx)
    cases hm.shift with
    | blocks hblocks =>
      rw [Moment.blocks_of_resets hresets] at hblocks
      cases hblocks
    | answers hevent =>
      rw [Moment.resets, hevent, Bool.or_true] at hresets
      cases hresets
    | completes hevent =>
      rw [Moment.resets, hevent, Bool.or_true] at hresets
      cases hresets
    | frees _ hblocked => exact absurd hblocked hfirst
    | moves _ _ _ hopen hcontext => exact (ih hopen hrest).trans hcontext
    | stays _ hstatus _ hcontext =>
      have hopen : m.after.status ≠ .blocked := by
        rw [hstatus]
        exact hfirst
      exact (ih hopen hrest).trans hcontext

end Life

/-! ## Updates in a row -/

/-- The moments of updates that are applied in turn. -/
def Item.stages (now : Stamp) : List Update → Item → List Moment
  | [], _ => []
  | u :: us, item =>
    let after := (item.applyUpdate now u).2
    ⟨item, .updated u, after⟩ :: after.stages now us

/-- Updates that are accepted are as many moments. -/
theorem Item.life_stages {set : Pipelines} {now : Stamp} {updates : List Update} {item after : Item}
    (h : item.applyUpdates now updates = (.ok (), after)) :
    Life set item (item.stages now updates) after := by
  induction updates generalizing item with
  | nil =>
    cases h
    exact .ends after
  | cons u us ih =>
    simp only [applyUpdates] at h
    split at h
    · next between hupdate =>
      rw [stages, hupdate]
      exact .goesOn (m := ⟨item, .updated u, between⟩) (.updated hupdate) (ih h)
    · cases h

end Backlog
