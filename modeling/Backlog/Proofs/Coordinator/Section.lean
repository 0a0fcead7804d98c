/-
  What a transaction does to the store.

  Under the lock a command loads, decides, archives what the decision retires and saves.  `Section`
  lists the six ways in which that can go, with what the store holds afterwards and which loads and
  saves were made: the store is touched only once there is a decision, the archive before the
  active items.

  The world is left open.  All that is asked of it is a `View` in which calls of the store, made
  while the section may count on the store, are answered as `Contents.Answers` says.  So the same
  facts serve for a store that no one else uses and for one that is shared under a lock.
-/
import Backlog.Proofs.Coordinator.Frame
import Backlog.Proofs.Store.Contents

namespace Backlog

open Talk (Stop StoreTask)
open Talk.StoreTask (load save append archivedIds ofExcept locked lookUp retire)
open Script (Keeps)

/-! ## How a transaction can go -/

/-- The archived IDs that a transaction goes by. -/
def Contents.consulted (readsArchive : Bool) (c : Contents) : List String :=
  if readsArchive then ids c.archive else []

/-- What a command decides on the contents of a store. -/
def Coordinator.decision (settings : Coordinator.Settings) (now : Stamp) (head : Option String) (command : Command)
    (c : Contents) : Except CommandError (Decision command.Value) :=
  command.decide settings now head c.active (c.consulted command.readsArchive)

/-- How a transaction that met these contents may go, given whether it reads the archive and what is
    decided on them: its result, the contents it leaves, and its calls. -/
inductive Section {α : Type} (readsArchive : Bool) (decision : Except CommandError (Decision α))
    (met : Contents) : Except Stop α → Contents → List Call → Prop
  /-- The items were not loaded. -/
  | unread {fault : StoreFault} {calls : List Call} :
      loads calls = [] → saves calls = [] →
      Section readsArchive decision met (.error (.ofFault fault)) met calls
  /-- The archive was not read. -/
  | unconsulted {fault : StoreFault} {calls : List Call} :
      readsArchive = true → loads calls = [met.active] → saves calls = [] →
      Section readsArchive decision met (.error (.ofFault fault)) met calls
  /-- The decision is to refuse the command. -/
  | refused {e : CommandError} {calls : List Call} :
      decision = .error e → loads calls = [met.active] → saves calls = [] →
      Section readsArchive decision met (.error (.error e)) met calls
  /-- What is retired was not added to the archive. -/
  | unfiled {d : Decision α} {fault : StoreFault} {calls : List Call} :
      decision = .ok d → loads calls = [met.active] → saves calls = [] →
      Section readsArchive decision met (.error (.ofFault fault)) met calls
  /-- The new items were not saved; what they lack is in the archive already. -/
  | unsaved {d : Decision α} {fault : StoreFault} {calls : List Call} :
      decision = .ok d → loads calls = [met.active] →
      saves calls = [(met.file d.retired, d.items, false)] →
      Section readsArchive decision met (.error (.ofFault fault)) (met.file d.retired) calls
  /-- The new items were saved. -/
  | saved {d : Decision α} {calls : List Call} :
      decision = .ok d → loads calls = [met.active] →
      saves calls = [(met.file d.retired, d.items, true)] →
      Section readsArchive decision met (.ok d.value) ((met.file d.retired).replace d.items) calls

/-- What a store may hold while a transaction is under way. -/
inductive Section.Passes {α : Type} (decision : Except CommandError (Decision α))
    (met : Contents) : Contents → Prop
  | met : Passes decision met met
  | filed {d : Decision α} : decision = .ok d → Passes decision met (met.file d.retired)
  | saved {d : Decision α} :
      decision = .ok d → Passes decision met ((met.file d.retired).replace d.items)

/-! ## Views -/

/-- The request is a call that the section under the lock makes. -/
def Request.OnStore : Request → Prop
  | .load | .save _ | .append _ | .archivedIds => True
  | _ => False

/-- What is seen of a world that is like a store, as long as someone may count on it. -/
structure View {σ : Type} (W : Surroundings σ) where
  contents : σ → Contents
  calls : σ → List Call
  /-- Whether the coordinator may count on the store. -/
  Counts : σ → Prop
  step : ∀ state q a after, Counts state → q.OnStore → W state q a after →
    Counts after ∧ Contents.Answers (contents state) q a (contents after) ∧
      calls after = calls state ++ [(contents state, ⟨q, a⟩)]

namespace View

variable {σ α : Type} {W : Surroundings σ} {inv : σ → Prop}

/-- Where a transaction stands: what the store holds, and the calls made since it began. -/
def At (V : View W) (begun : List Call) (c : Contents) (calls : List Call) (state : σ) : Prop :=
  V.Counts state ∧ V.contents state = c ∧ V.calls state = begun ++ calls

variable {V : View W} {begun calls : List Call} {c : Contents} {state : σ}

theorem At.step {q : Request} {a : q.Answer} {after : σ} (h : V.At begun c calls state)
    (hx : W state q a after) (hq : q.OnStore) :
    Contents.Answers c q a (V.contents after) ∧
      V.At begun (V.contents after) (calls ++ [(c, ⟨q, a⟩)]) after := by
  obtain ⟨hcounts, hcontents, hcalls⟩ := h
  obtain ⟨hcounts', hanswer, hcalls'⟩ := V.step state q a after hcounts hq hx
  rw [hcontents] at hanswer hcalls'
  refine ⟨hanswer, hcounts', rfl, ?_⟩
  rw [hcalls', hcalls, List.append_assoc]

/-- The transaction that met these contents is over, and went in one of the ways it may go. -/
def Ended (V : View W) (begun : List Call) (readsArchive : Bool)
    (decision : Except CommandError (Decision α)) (met : Contents) (result : Except Stop α)
    (state : σ) : Prop :=
  V.Counts state ∧ ∃ calls, V.calls state = begun ++ calls ∧
    Section readsArchive decision met result (V.contents state) calls

theorem At.ended {readsArchive : Bool} {decision : Except CommandError (Decision α)}
    {met : Contents} {result : Except Stop α} (h : V.At begun c calls state)
    (hsection : Section readsArchive decision met result c calls) :
    V.Ended begun readsArchive decision met result state := by
  obtain ⟨hcounts, hcontents, hcalls⟩ := h
  rw [← hcontents] at hsection
  exact ⟨hcounts, calls, hcalls, hsection⟩

/-! ## The steps of a transaction -/

section

variable {readsArchive : Bool} {decision : Except CommandError (Decision α)} {met : Contents}
  {d : Decision α}
  (hinv : ∀ state, V.Counts state → Section.Passes decision met (V.contents state) → inv state)
include hinv

theorem At.holds (h : V.At begun c calls state) (hpasses : Section.Passes decision met c) :
    inv state := by
  obtain ⟨hcounts, hcontents, -⟩ := h
  rw [← hcontents] at hpasses
  exact hinv state hcounts hpasses

/-- The last step: the new items are saved, or not. -/
theorem ensures_save (hdecision : decision = .ok d) (h : V.At begun (met.file d.retired) calls state)
    (hloads : loads calls = [met.active]) (hsaves : saves calls = []) :
    (do
      save d.items
      return d.value : StoreTask α).run.Ensures W inv (V.Ended begun readsArchive decision met) state := by
  refine ⟨h.holds hinv (.filed hdecision), fun a after hx => ?_⟩
  obtain ⟨hanswer, hat⟩ := h.step hx trivial
  rcases a with fault | ⟨⟩
  · -- nothing was saved, but the archive has its item
    have hcontents : V.contents after = met.file d.retired := hanswer
    rw [hcontents] at hat
    refine ⟨hat.holds hinv (.filed hdecision), hat.ended (.unsaved hdecision ?_ ?_)⟩
    · rw [loads_append, hloads]; rfl
    · rw [saves_append, hsaves]; rfl
  · have hcontents : V.contents after = (met.file d.retired).replace d.items := hanswer
    rw [hcontents] at hat
    refine ⟨hat.holds hinv (.saved hdecision), hat.ended (.saved hdecision ?_ ?_)⟩
    · rw [loads_append, hloads]; rfl
    · rw [saves_append, hsaves]; rfl

/-- Before it, what the decision retires is added to the archive. -/
theorem ensures_retire (hdecision : decision = .ok d) (h : V.At begun met calls state)
    (hloads : loads calls = [met.active]) (hsaves : saves calls = []) :
    (do
      retire d.retired
      save d.items
      return d.value : StoreTask α).run.Ensures W inv (V.Ended begun readsArchive decision met) state := by
  cases hretired : d.retired with
  | none =>
    have hfile : met.file d.retired = met := by rw [hretired, Contents.file_none]
    rw [← hfile] at h
    exact ensures_save hinv hdecision h hloads hsaves
  | some item =>
    refine ⟨h.holds hinv .met, fun a after hx => ?_⟩
    obtain ⟨hanswer, hat⟩ := h.step hx trivial
    rcases a with fault | ⟨⟩
    · -- nothing was written at all
      have hcontents : V.contents after = met := hanswer
      rw [hcontents] at hat
      refine ⟨hat.holds hinv .met, hat.ended (.unfiled hdecision ?_ ?_)⟩
      · rw [loads_append, hloads]; rfl
      · rw [saves_append, hsaves]; rfl
    · have hcontents : V.contents after = met.file d.retired := by
        rw [hretired]
        exact hanswer
      rw [hcontents] at hat
      refine ensures_save hinv hdecision hat ?_ ?_
      · rw [loads_append, hloads]; rfl
      · rw [saves_append, hsaves]; rfl

/-- Before that, the command decides on what it has loaded. -/
theorem ensures_decide (h : V.At begun met calls state) (hloads : loads calls = [met.active])
    (hsaves : saves calls = []) :
    (do
      let d ← ofExcept decision
      retire d.retired
      save d.items
      return d.value : StoreTask α).run.Ensures W inv (V.Ended begun readsArchive decision met) state := by
  cases hdecision : decision with
  | error e =>
    rw [hdecision] at hinv
    exact ⟨h.holds hinv .met, h.ended (.refused rfl hloads hsaves)⟩
  | ok d =>
    rw [hdecision] at hinv
    exact ensures_retire hinv rfl h hloads hsaves

end

/-- A transaction goes in one of the ways it may go. -/
theorem ensures_transact (V : View W) {readsArchive : Bool}
    {decide : List Item → List String → Except CommandError (Decision α)}
    (hcounts : V.Counts state)
    (hinv : ∀ after, V.Counts after →
      Section.Passes (decide (V.contents state).active ((V.contents state).consulted readsArchive))
        (V.contents state) (V.contents after) → inv after) :
    (transact readsArchive decide).run.Ensures W inv
      (V.Ended (V.calls state) readsArchive
        (decide (V.contents state).active ((V.contents state).consulted readsArchive))
        (V.contents state)) state := by
  have hat : V.At (V.calls state) (V.contents state) [] state :=
    ⟨hcounts, rfl, (List.append_nil _).symm⟩
  refine ⟨hat.holds hinv .met, fun a after hx => ?_⟩
  obtain ⟨⟨hcontents, hitems⟩, hat⟩ := hat.step hx trivial
  rw [hcontents] at hat
  rcases a with fault | items
  · exact ⟨hat.holds hinv .met, hat.ended (.unread rfl rfl)⟩
  · obtain rfl := hitems items rfl
    cases readsArchive with
    | false => exact ensures_decide hinv hat rfl rfl
    | true =>
      refine ⟨hat.holds hinv .met, fun a after hx => ?_⟩
      obtain ⟨⟨hcontents, hknown⟩, hat⟩ := hat.step hx trivial
      rw [hcontents] at hat
      rcases a with fault | known
      · exact ⟨hat.holds hinv .met, hat.ended (.unconsulted rfl rfl rfl)⟩
      · -- both look-ups told what the store holds
        obtain rfl := hknown known rfl
        exact ensures_decide hinv hat rfl rfl

end View

/-! ## Locks and retries -/

namespace Talk

variable {σ α : Type} {W : Surroundings σ} {inv : σ → Prop} {state : σ} {task : StoreTask α}

theorem ensures_locked {post : Except Stop α → σ → Prop} (hinv : inv state)
    (hbusy : ∀ fault after, W state .lock (.error fault) after →
      inv after ∧ post (.error (.ofFault fault)) after)
    (htask : ∀ held, W state .lock (.ok ()) held →
      task.run.Ensures W inv
        (fun ended held => ∀ after, W held .unlock () after → inv after ∧ post ended after) held) :
    (locked task).run.Ensures W inv post state := by
  refine ⟨hinv, fun a after hx => ?_⟩
  rcases a with fault | ⟨⟩
  · exact hbusy fault after hx
  · refine Script.ensures_bind.mpr ((htask after hx).mono fun ended held hheld hpost => ?_)
    exact ⟨hheld, fun _ after hx => hpost after hx⟩

/-- Every try brings about what the task does, if one that ended for want of the lock leaves what
    the next one starts from. -/
theorem ensures_withRetries {policy : RetryPolicy} {operation : String} {I : σ → Prop}
    {J : Except CommandError α → σ → Prop} (hkeeps : Keeps W Request.Quiet I)
    (hinv : ∀ state, I state → inv state)
    (htask : ∀ state, I state → task.run.Ensures W inv
      (fun ended after => J (outcome operation ended) after ∧
        ∀ waitedMs, ended = .error (.error (.lockTimeout waitedMs)) → I after) state)
    (h : I state) : (withRetries policy operation task).Ensures W inv J state := by
  unfold withRetries
  induction policy.attempts - 1 generalizing state with
  | zero =>
    refine Script.ensures_bind.mpr ((htask state h).mono fun ended after hafter hpost => ?_)
    exact ⟨hafter, hpost.1⟩
  | succ more ih =>
    refine Script.ensures_bind.mpr ((htask state h).mono fun ended after hafter hpost => ?_)
    split
    · -- the lock was not free: wait, and try from where this try has begun
      next waitedMs =>
      have hnote : (note (.lockBusy policy.delayMs)).Only Request.Quiet := ⟨trivial, fun _ => trivial⟩
      have hpause : (pause policy.delayMs).Only Request.Quiet := ⟨trivial, fun _ => trivial⟩
      refine Script.ensures_bind.mpr
        ((hnote.ensures hkeeps hinv (hpost.2 waitedMs rfl)).mono fun _ after _ h => ?_)
      exact Script.ensures_bind.mpr ((hpause.ensures hkeeps hinv h).mono fun _ after _ h => ih h)
    · exact ⟨hafter, hpost.1⟩

end Talk

end Backlog
