import StyleMonitor.Proofs.Analysis.ImageChecks
import StyleMonitor.Proofs.Disk.Frames
import StyleMonitor.Proofs.Host

/-!
# The check of an image on a host

A check of an image consults the record of pulls; when the image is due it is pulled; a pull that
succeeds is recorded, and then old images are removed. `Checked` tells the courses apart. They are
the same whether the check is made by itself or as a part of a run.
-/

namespace StyleMonitor

open Session

variable {ρ : Type}

/-! ### What the stages at the record do -/

namespace Image.Stage

variable {check : Check} {pulls : Freshness} {last : Option Instant} {volume later : Volume}

theorem act_consult (found : pulls.last? check.key volume = (.ok last, later)) :
    consult.act check pulls volume =
      (.ok (pulls, if check.isDue last then pull else settled (.ok .cached)), later) := by
  simp only [act, bind_apply, found]
  cases last with
  | none => rfl
  | some last =>
    cases fresh : isFresh last check.now check.windowMillis <;> simp [Check.isDue, fresh]

/-- A pull that cannot be recorded counts all the same. -/
theorem act_record : record.act check pulls volume =
    (.ok ((pulls.record check.key check.now volume).1.toOption.getD pulls, prune),
      (pulls.record check.key check.now volume).2) := by
  simp only [act, bind_apply, attempt_apply]
  cases (pulls.record check.key check.now volume).1 <;> rfl

/-- What is wrong with a pull that does not succeed. -/
def pullFault (settings : RunnerSettings) : Reply → PullFault
  | .ok output => .unsuccessful output.exit (Text.trimmed output.stderr)
  | .error failure =>
    if failure.isTimeout then .timedOut (settings.pullTimeout.getD 0) else .notStarted failure

theorem afterReply_pull (settings : RunnerSettings) (reply : Reply) :
    pull.afterReply settings reply = if Analysis.succeeds reply then record
      else settled (.error (pullFault settings reply)) := by
  cases reply with
  | ok output => rfl
  | error failure =>
    simp only [afterReply, afterPull, pullFault]
    split <;> rfl

end Image.Stage

/-! ### Courses of a check -/

/-- A command that was carried out, with the files before and after. -/
structure Carried where
  command : Command
  found : Volume
  reply : Reply
  left : Volume
  deriving DecidableEq, Repr

namespace Host

/-- What is noted of a command that is carried out on a host. -/
def carried (runtime : Runtime ρ) (command : Command) (host : Host ρ) : Carried :=
  ⟨command, host.volume, (execute runtime command host).1, (execute runtime command host).2.volume⟩

/-- The last pull under a key, and the host when it was looked up. -/
def consult (key : String) (host : Host ρ) : Option Instant × Host ρ :=
  onFiles none (host.pulls.last? key) host

/-- The host when a pull is recorded, or that has failed. -/
def recorded (check : Image.Check) (host : Host ρ) : Host ρ :=
  { host with
    volume := (host.pulls.record check.key check.now host.volume).2
    pulls := (host.pulls.record check.key check.now host.volume).1.toOption.getD host.pulls }

/-- Whether the image has to be pulled, as the record has it. -/
def isDue (check : Image.Check) (host : Host ρ) : Bool :=
  check.isDue (consult check.key host).1

/-- How an image is checked on a host: the pull and the removal of old images, as far as it comes to
them, and the host that is left. -/
inductive Checked (runtime : Runtime ρ) (settings : RunnerSettings) (check : Image.Check)
    (host : Host ρ) : Option Carried → Option Carried → Host ρ → Prop
  | fresh (fresh : isDue check host = false) :
    Checked runtime settings check host none none (consult check.key host).2
  | failed (due : isDue check host = true)
      (fails : Analysis.succeeds (execute runtime (Image.pullCommand settings)
        (consult check.key host).2).1 = false) :
    Checked runtime settings check host
      (some (carried runtime (Image.pullCommand settings) (consult check.key host).2)) none
      (execute runtime (Image.pullCommand settings) (consult check.key host).2).2
  | pulled {left : Host ρ} (due : isDue check host = true)
      (succeeds : Analysis.succeeds (execute runtime (Image.pullCommand settings)
        (consult check.key host).2).1 = true)
      (records : recorded check
        (execute runtime (Image.pullCommand settings) (consult check.key host).2).2 = left) :
    Checked runtime settings check host
      (some (carried runtime (Image.pullCommand settings) (consult check.key host).2))
      (some (carried runtime (Image.pruneCommand settings) left))
      (execute runtime (Image.pruneCommand settings) left).2

variable {runtime : Runtime ρ} {settings : RunnerSettings} {check : Image.Check}
  {stage next : Image.Stage} {host later : Host ρ}

theorem consult_eq (key : String) (host : Host ρ) :
    ∃ last volume, host.pulls.last? key host.volume = (.ok last, volume) ∧
      consult key host = (last, { host with volume }) := by
  obtain ⟨last, volume, found⟩ := (host.pulls.last?_answers key).apply host.volume
  refine ⟨last, volume, found, ?_⟩
  simp only [consult, onFiles, found]

/-- The record is only looked at. -/
theorem consult_pulls (key : String) (host : Host ρ) : (consult key host).2.pulls = host.pulls := by
  obtain ⟨last, volume, -, same⟩ := consult_eq key host
  rw [same]

/-! ### Step by step -/

theorem stepImage_of_command {command : Command} (waits : stage.command? settings = some command) :
    stepImage runtime settings check stage host =
      (stage.afterReply settings (execute runtime command host).1,
        (execute runtime command host).2) := by
  simp only [stepImage, bind, StateT.bind, waits]
  rfl

theorem stepImage_of_act {pulls : Freshness} {volume : Volume}
    (idle : stage.command? settings = none)
    (acts : stage.act check host.pulls host.volume = (.ok (pulls, next), volume)) :
    stepImage runtime settings check stage host = (next, { host with volume, pulls }) := by
  simp only [stepImage, bind, StateT.bind, get, getThe, MonadStateOf.get, StateT.get, pure, idle,
    onFiles, acts]
  rfl

theorem stepImage_consult (runtime : Runtime ρ) (settings : RunnerSettings) (check : Image.Check)
    (host : Host ρ) : stepImage runtime settings check .consult host =
    (if isDue check host then .pull else .settled (.ok .cached), (consult check.key host).2) := by
  obtain ⟨last, volume, found, same⟩ := consult_eq check.key host
  rw [isDue, same]
  exact stepImage_of_act rfl (Image.Stage.act_consult found)

theorem stepImage_record : stepImage runtime settings check .record host =
    (.prune, host.recorded check) :=
  stepImage_of_act rfl Image.Stage.act_record

theorem repeated_settled (result : Except Image.PullFault Image.Status) (count : Nat)
    (host : Host ρ) :
    repeated (stepImage runtime settings check) count (.settled result) host =
      (.settled result, host) := by
  induction count with
  | zero => rfl
  | succ count ih => exact ih

theorem repeated_next (count : Nat)
    (steps : stepImage runtime settings check stage host = (next, later)) :
    repeated (stepImage runtime settings check) (count + 1) stage host =
      repeated (stepImage runtime settings check) count next later := by
  simp only [repeated, bind, StateT.bind, steps]

theorem ensureImage_of_settled {result : Except Image.PullFault Image.Status}
    (settles : repeated (stepImage runtime settings check) 4 .consult host =
      (.settled result, later)) :
    ensureImage runtime settings check host = (result, later) := by
  simp only [ensureImage, bind, StateT.bind, settles]
  rfl

/-- A pull that succeeds is to be recorded. -/
theorem repeated_to_record (due : isDue check host = true)
    (succeeds : Analysis.succeeds (execute runtime (Image.pullCommand settings)
      (consult check.key host).2).1 = true) :
    repeated (stepImage runtime settings check) 2 .consult host =
      (.record, (execute runtime (Image.pullCommand settings) (consult check.key host).2).2) := by
  have consults := stepImage_consult runtime settings check host
  rw [due, if_pos rfl] at consults
  have pulls : stepImage runtime settings check .pull (consult check.key host).2 = _ :=
    stepImage_of_command rfl
  rw [Image.Stage.afterReply_pull, succeeds, if_pos rfl] at pulls
  exact (repeated_next 1 consults).trans (repeated_next 0 pulls)

theorem ensureImage_of_fresh (runtime : Runtime ρ) (settings : RunnerSettings)
    (fresh : isDue check host = false) :
    ensureImage runtime settings check host = (.ok .cached, (consult check.key host).2) := by
  have consults := stepImage_consult runtime settings check host
  rw [fresh, if_neg (by decide)] at consults
  exact ensureImage_of_settled ((repeated_next 3 consults).trans (repeated_settled _ 3 _))

/-- What a check comes to that finds the image due: the pull and, when that succeeds, its record and
the removal of old images. -/
theorem ensureImage_of_due (runtime : Runtime ρ) (settings : RunnerSettings)
    (due : isDue check host = true) :
    ensureImage runtime settings check host =
      let pulled := execute runtime (Image.pullCommand settings) (consult check.key host).2
      if Analysis.succeeds pulled.1 then
        (.ok .pulled,
          (execute runtime (Image.pruneCommand settings) (recorded check pulled.2)).2)
      else (.error (Image.Stage.pullFault settings pulled.1), pulled.2) := by
  have consults := stepImage_consult runtime settings check host
  rw [due, if_pos rfl] at consults
  have pulls : stepImage runtime settings check .pull (consult check.key host).2 = _ :=
    stepImage_of_command rfl
  rw [Image.Stage.afterReply_pull] at pulls
  dsimp only
  cases succeeds : Analysis.succeeds
      (execute runtime (Image.pullCommand settings) (consult check.key host).2).1 with
  | false =>
    rw [succeeds, if_neg (by decide)] at pulls
    rw [if_neg (by decide)]
    exact ensureImage_of_settled ((repeated_next 3 consults).trans
      ((repeated_next 2 pulls).trans (repeated_settled _ 2 _)))
  | true =>
    rw [succeeds, if_pos rfl] at pulls
    rw [if_pos rfl]
    exact ensureImage_of_settled ((repeated_next 3 consults).trans ((repeated_next 2 pulls).trans
      ((repeated_next 1 stepImage_record).trans (repeated_next 0 (stepImage_of_command rfl)))))

/-- A check that is made by itself takes one of the courses, and says that the image was pulled when
it has come to the removal of old images. -/
theorem ensureImage_checked (runtime : Runtime ρ) (settings : RunnerSettings) (check : Image.Check)
    (host : Host ρ) :
    ∃ pull? prune? result later, Checked runtime settings check host pull? prune? later ∧
      ensureImage runtime settings check host = (result, later) ∧
      (result = .ok .pulled ↔ prune?.isSome) := by
  cases due : isDue check host with
  | false =>
    exact ⟨none, none, _, _, .fresh due, ensureImage_of_fresh runtime settings due,
      iff_of_false nofun nofun⟩
  | true =>
    have checks := ensureImage_of_due runtime settings due
    dsimp only at checks
    cases succeeds : Analysis.succeeds
        (execute runtime (Image.pullCommand settings) (consult check.key host).2).1 with
    | false =>
      rw [succeeds, if_neg (by decide)] at checks
      exact ⟨_, none, _, _, .failed due succeeds, checks, iff_of_false nofun nofun⟩
    | true =>
      rw [succeeds, if_pos rfl] at checks
      exact ⟨_, _, _, _, .pulled due succeeds rfl, checks, iff_of_true rfl rfl⟩

end Host

end StyleMonitor
