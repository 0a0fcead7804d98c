/-
  The program on a real machine.

  Every call is answered by the operating system; there is no version control.
-/
import Backlog.Cli.Run
import Std.Time.Format

namespace Backlog.RealMachine

/-! ## Answers -/

/-- The value of an action, or the machine's reason for refusing it. -/
def orReason {α : Type} (action : IO α) : IO (Except String α) := do
  try return .ok (← action) catch e => return .error (toString e)

/-- The value of an action, if it has one. -/
def orNone {α : Type} (action : IO α) : IO (Option α) := do
  try return some (← action) catch _ => return none

/-- What a path leads to. -/
def kind (path : String) : IO (Option FileKind) := orNone do
  let found ← (← IO.FS.realPath path).metadata
  return match found.type with
    | .dir => .folder
    | _ => .file

/-- The locks that are held, by path. -/
abbrev Locks := IO.Ref (List (String × IO.FS.Handle))

/-- How long to wait between two tries for a lock. -/
def pollMs : Nat := 20

/-- Try for a lock until it is free or the tries are used up. -/
def tryLock (handle : IO.FS.Handle) : Nat → IO Bool
  | 0 => handle.tryLock
  | tries + 1 => do
    if ← handle.tryLock then return true
    IO.sleep pollMs.toUInt32
    tryLock handle tries

/-- Take the lock on a file. -/
def lock (locks : Locks) (path : String) (waitMs : Nat) : IO (Except LockFault Unit) := do
  try
    let handle ← IO.FS.Handle.mk path .append
    if ← tryLock handle (waitMs / pollMs) then
      locks.modify ((path, handle) :: ·)
      return .ok ()
    else return .error (.busy waitMs)
  catch e => return .error (.refused (toString e))

/-- Free the lock on a file. -/
def unlock (locks : Locks) (path : String) : IO Unit := do
  for (held, handle) in ← locks.get do
    if held == path then handle.unlock
  locks.modify (·.filter (·.1 != path))

/-- The time. -/
def now : IO Stamp := do
  let nanos := (← Std.Time.Timestamp.now).toNanosecondsSinceUnixEpoch.val
  return ⟨nanos / 1000000000, (nanos % 1000000000).toNat⟩

/-- Answer a call. -/
def answer (locks : Locks) : (call : Host.Call) → IO call.Answer
  | .kind path => kind path
  | .read path => orReason (IO.FS.readBinFile path)
  | .write path text => orReason (IO.FS.writeFile path text)
  | .append path text => orReason do
    let handle ← IO.FS.Handle.mk path .append
    handle.putStr text
  | .rename src dst => orReason (IO.FS.rename src dst)
  | .makeFolders path => orReason (IO.FS.createDirAll path)
  | .resolve path => orNone do return toString (← IO.FS.realPath path)
  | .lock path waitMs => lock locks path waitMs
  | .unlock path => unlock locks path
  | .here => orNone do return toString (← IO.currentDir)
  | .now => now
  | .print text => do
    IO.print text
    (← IO.getStdout).flush
  | .log _ text => IO.eprintln text
  | .pause ms => IO.sleep ms.toUInt32

end Backlog.RealMachine

/-- Run the command line. -/
def main (args : List String) : IO UInt32 := do
  let locks ← IO.mkRef []
  let ending ← (Backlog.Cli.run args).interpret (Backlog.RealMachine.answer locks)
  match ending with
  | .done => pure ()
  | .failed failure => IO.eprintln ("Error: " ++ failure.message)
  | .misused => (Backlog.Cli.help).forM IO.eprintln
  return ending.code.toUInt32
