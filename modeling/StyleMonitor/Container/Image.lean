import StyleMonitor.Command
import StyleMonitor.Freshness
import StyleMonitor.Settings
import StyleMonitor.Text.Blank

/-!
Keeping the checker's image fresh. An image is pulled unless it was pulled within a window of
time. The check goes in stages, so that other work can come between them.
-/

namespace StyleMonitor.Image

/-- What a check came to (`ImageStatus`). -/
inductive Status where
  /-- The image is fresh enough. -/
  | cached
  | pulled
  deriving DecidableEq, Repr

/-- Why a pull failed (`ImagePullError`). -/
inductive PullFault where
  | notStarted (failure : Failure)
  | unsuccessful (exit : Exit) (stderr : String)
  | timedOut (seconds : Nat)
  deriving DecidableEq, Repr

/-- The text of a fault. -/
def PullFault.message : PullFault → String
  | notStarted failure => "failed to execute pull: " ++ failure.message
  | unsuccessful exit stderr => "failed to pull image (" ++ exit.text ++ "): " ++ stderr
  | timedOut seconds => "image pull timed out after " ++ Decimal.text seconds ++ "s"

/-- A bound in seconds as a bound in milliseconds. -/
def inMillis (seconds : Option Nat) : Option Nat :=
  seconds.map (· * 1000)

/-- The command that pulls the image. -/
def pullCommand (settings : RunnerSettings) : Command :=
  ⟨settings.runtime, ["pull", settings.image], inMillis settings.pullTimeout⟩

/-- The command that removes images that nothing refers to (`ToolRunner::prune_images`). -/
def pruneCommand (settings : RunnerSettings) : Command :=
  ⟨settings.runtime, ["image", "prune", "-f"], inMillis settings.pullTimeout⟩

/-- Whether an image is fresh that was last pulled at `last`: less than a window ago, or in the
future. -/
def isFresh (last now : Instant) (windowMillis : Nat) : Bool :=
  now.nanos < last.nanos + windowMillis * Instant.perMilli || now.nanos < last.nanos

/-- What is checked: the key of the record, the time of the check, and the window. -/
structure Check where
  key : String
  now : Instant
  windowMillis : Nat
  deriving DecidableEq, Repr

local instance : DecidableEq (Except PullFault Status)
  | .ok one, .ok two => decidable_of_iff (one = two) ⟨congrArg _, Except.ok.inj⟩
  | .error one, .error two => decidable_of_iff (one = two) ⟨congrArg _, Except.error.inj⟩
  | .ok _, .error _ => isFalse fun same => by cases same
  | .error _, .ok _ => isFalse fun same => by cases same

/-- Where a check stands (`ToolRunner::ensure_image`). -/
inductive Stage where
  /-- The record is to be looked up. -/
  | consult
  /-- The pull is under way. -/
  | pull
  /-- The pull is to be recorded. -/
  | record
  /-- Old images are being removed. -/
  | prune
  | settled (result : Except PullFault Status)
  deriving DecidableEq

namespace Stage

/-- The command that a stage waits for. -/
def command? (settings : RunnerSettings) : Stage → Option Command
  | pull => some (pullCommand settings)
  | prune => some (pruneCommand settings)
  | _ => none

/-- What a reply to the pull comes to. -/
def afterPull (settings : RunnerSettings) : Reply → Stage
  | .ok output =>
    if output.exit.isSuccess then record
    else settled (.error (.unsuccessful output.exit (Text.trimmed output.stderr)))
  | .error failure =>
    if failure.isTimeout then settled (.error (.timedOut (settings.pullTimeout.getD 0)))
    else settled (.error (.notStarted failure))

/-- The stage after the reply to a command. Whatever comes of the removal of old images, the
image was pulled. -/
def afterReply (settings : RunnerSettings) (reply : Reply) : Stage → Stage
  | pull => afterPull settings reply
  | prune => settled (.ok .pulled)
  | stage => stage

/-- The stage after one that waits for no command. A pull that cannot be recorded counts all the
same. -/
def act (check : Check) (pulls : Freshness) : Stage → Session (Freshness × Stage)
  | consult => do
    match ← pulls.last? check.key with
    | some last =>
      if isFresh last check.now check.windowMillis then return (pulls, settled (.ok .cached))
      else return (pulls, pull)
    | none => return (pulls, pull)
  | record => do
    match ← Session.attempt (pulls.record check.key check.now) with
    | .ok pulls => return (pulls, prune)
    | .error _ => return (pulls, prune)
  | stage => return (pulls, stage)

end Stage

end StyleMonitor.Image
