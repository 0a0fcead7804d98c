/-
  Surroundings of a coordinator that are a value.

  Program: the items are kept in memory; version control counts its commits and says which of them
  is the current one; faults are set for a kind of request, and stay until they are taken away.

  Specification: a request that meets a fault changes nothing but the record of what was asked, in
  which every request has its place.
-/
import Backlog.Coordinator.Request

namespace Backlog

/-! ## Kinds of requests -/

/-- What a request is about, whatever it carries. -/
inductive RequestKind where
  | lock | unlock | load | save | append | archivedIds
  | stage | unstage | stageStore | commit | head
  | pause | note
deriving DecidableEq, Repr

/-- What a request is about. -/
def Request.kind : Request → RequestKind
  | .lock => .lock
  | .unlock => .unlock
  | .load => .load
  | .save _ => .save
  | .append _ => .append
  | .archivedIds => .archivedIds
  | .stage _ => .stage
  | .unstage _ => .unstage
  | .stageStore => .stageStore
  | .commit _ => .commit
  | .head => .head
  | .pause _ => .pause
  | .note _ => .note

/-! ## Rehearsals -/

/-- A store in memory, version control without files, and what was asked of them. -/
structure Rehearsal where
  active : List Item := []
  archive : List Item := []
  /-- How many times the lock is still busy. -/
  lockFailures : Nat := 0
  storeFault : RequestKind → Option StoreFault := fun _ => none
  trackerFault : RequestKind → Option TrackerFault := fun _ => none
  /-- Whether there is something to commit. -/
  pending : Bool := false
  commits : Nat := 0
  /-- The current revision. -/
  head : Option String := none
  /-- The requests, latest first. -/
  asked : List Request := []

namespace Rehearsal

/-- The revision of the n-th commit: its number in 40 hexadecimal digits. -/
def revision (n : Nat) : String :=
  let digits := Nat.toDigits 16 n
  String.ofList (List.replicate (40 - digits.length) '0' ++ digits)

/-- Answer a store request, unless a fault is set for it. -/
def ofStore {α : Type} (r : Rehearsal) (kind : RequestKind)
    (answer : Except StoreFault α × Rehearsal) : Except StoreFault α × Rehearsal :=
  match r.storeFault kind with
  | some fault => (.error fault, r)
  | none => answer

/-- Answer a request to version control, unless a fault is set for it. -/
def ofTracker {α : Type} (r : Rehearsal) (kind : RequestKind)
    (answer : Except TrackerFault α × Rehearsal) : Except TrackerFault α × Rehearsal :=
  match r.trackerFault kind with
  | some fault => (.error fault, r)
  | none => answer

/-- Answer a request that has been recorded; asking for the current revision crashes or works. -/
def respond (r : Rehearsal) : (q : Request) → q.Answer × Rehearsal
  | .lock => r.ofStore .lock <| match r.lockFailures with
    | 0 => (.ok (), r)
    | n + 1 => (.error (.failed (.lockTimeout 5)), { r with lockFailures := n })
  | .unlock => ((), r)
  | .load => r.ofStore .load (.ok r.active, r)
  | .save items => r.ofStore .save (.ok (), { r with active := items })
  | .append item => r.ofStore .append (.ok (), { r with archive := r.archive ++ [item] })
  | .archivedIds => r.ofStore .archivedIds (.ok (r.archive.map Item.id), r)
  | .stage _ => r.ofTracker .stage (.ok (), { r with pending := true })
  | .unstage _ => r.ofTracker .unstage (.ok (), r)
  | .stageStore => r.ofTracker .stageStore (.ok (), { r with pending := true })
  | .commit _ => r.ofTracker .commit <|
    if r.pending then
      let head := revision (r.commits + 1)
      (.ok (some head), { r with pending := false, commits := r.commits + 1, head := some head })
    else (.ok none, r)
  | .head => match r.trackerFault .head with
    | some .crashed => (.error .crashed, r)
    | some .failed | none => (.ok r.head, r)
  | .pause _ => ((), r)
  | .note _ => ((), r)

/-- Answer a request. -/
def answer (q : Request) (r : Rehearsal) : q.Answer × Rehearsal :=
  respond { r with asked := q :: r.asked } q

/-! ## Examples -/

example : revision 26 = "000000000000000000000000000000000000001a" := by decide +kernel

end Rehearsal

end Backlog
