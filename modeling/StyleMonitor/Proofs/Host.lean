import StyleMonitor.Host
import StyleMonitor.Proofs.Analysis.Faults

/-!
# Runs of the container on a host

A step of a run on a host is what comes of the command that the run waits for, or what the run does
by itself. Six steps take a run to its end.
-/

namespace StyleMonitor

/-- How many steps a run of the container has ahead at most. -/
def Container.Stage.ahead : Container.Stage → Nat
  | .prepare => 6
  | .image _ .consult => 5
  | .image _ .pull => 4
  | .image _ .record => 3
  | .image _ _ => 2
  | .run => 1
  | .ended _ => 0

namespace Host

variable {ρ : Type} {runtime : Runtime ρ} {settings : RunnerSettings} {job : Container.Job}
  {now : Instant} {stage next : Container.Stage} {host later : Host ρ}

/-- A step of a run that waits for a command: the runtime carries the command out. -/
theorem stepRun_of_command {command : Command}
    (waits : stage.command? settings host.volume.disk.currentPath job = some command) :
    stepRun runtime settings job now stage host =
      (stage.afterReply settings host.volume.disk.currentPath job
          (runtime command host.runtime host.volume).1,
        { host with
          runtime := (runtime command host.runtime host.volume).2.1
          volume := (runtime command host.runtime host.volume).2.2 }) := by
  simp only [stepRun, bind, StateT.bind, get, getThe, MonadStateOf.get, StateT.get, pure, waits]
  rfl

/-- A step of a run that waits for nothing. -/
theorem stepRun_of_act {pulls : Freshness} {volume : Volume}
    (idle : stage.command? settings host.volume.disk.currentPath job = none)
    (acts : stage.act settings job now host.pulls host.volume = (.ok (pulls, next), volume)) :
    stepRun runtime settings job now stage host = (next, { host with volume, pulls }) := by
  simp only [stepRun, bind, StateT.bind, get, getThe, MonadStateOf.get, StateT.get, pure, idle,
    onFiles, acts]
  rfl

/-- A run that has ended stays as it is. -/
theorem stepRun_ended (result : Except Container.Fault String) :
    stepRun runtime settings job now (.ended result) host = (.ended result, host) :=
  stepRun_of_act rfl rfl

theorem repeated_succ (count : Nat) (stage : Container.Stage) (host : Host ρ) :
    repeated (stepRun runtime settings job now) (count + 1) stage host =
      repeated (stepRun runtime settings job now) count
        (stepRun runtime settings job now stage host).1
        (stepRun runtime settings job now stage host).2 := rfl

theorem repeated_ended (result : Except Container.Fault String) (count : Nat) :
    repeated (stepRun runtime settings job now) count (.ended result) host =
      (.ended result, host) := by
  induction count with
  | zero => rfl
  | succ count ih => rw [repeated_succ, stepRun_ended, ih]

/-- Every step takes a run nearer to its end. -/
theorem ahead_stepRun (runtime : Runtime ρ) (settings : RunnerSettings) (job : Container.Job)
    (now : Instant) (stage : Container.Stage) (host : Host ρ) :
    (stepRun runtime settings job now stage host).1.ahead ≤ stage.ahead - 1 := by
  cases waits : stage.command? settings host.volume.disk.currentPath job with
  | none =>
    obtain ⟨pulls, next, volume, acts, advance⟩ : ∃ pulls next volume,
        stage.act settings job now host.pulls host.volume = (.ok (pulls, next), volume) ∧
          stage.Advance job host.volume next := Container.Stage.advance_of_act waits
    rw [stepRun_of_act waits acts]
    cases advance <;> simp [Container.Stage.ahead]
  | some command =>
    rw [stepRun_of_command waits]
    cases stage with
    | image check stage =>
      cases stage with
      | pull =>
        simp only [Container.Stage.afterReply, Image.Stage.afterReply, Image.Stage.afterPull]
        split <;> split <;> simp [Container.Stage.ofImage, Container.Stage.ahead]
      | prune => exact Nat.le_refl 1
      | _ => cases waits
    | run => exact Nat.le_refl 0
    | _ => cases waits

theorem exists_ended_of_repeated {count : Nat} {host later : Host ρ}
    {stage last : Container.Stage} (enough : stage.ahead ≤ count)
    (runs : repeated (stepRun runtime settings job now) count stage host = (last, later)) :
    ∃ result, last = .ended result := by
  induction count generalizing stage host with
  | zero =>
    cases runs
    cases last with
    | ended result => exact ⟨result, rfl⟩
    | image check stage => cases stage <;> cases enough
    | _ => cases enough
  | succ count ih =>
    rw [repeated_succ] at runs
    have less := ahead_stepRun runtime settings job now stage host
    exact ih (by omega) runs

/-- A run has ended after six steps. -/
theorem repeated_of_runContainer {result : Except Container.Fault String}
    (runs : runContainer runtime settings job now host = (result, later)) :
    repeated (stepRun runtime settings job now) 6 .prepare host = (.ended result, later) := by
  cases found : repeated (stepRun runtime settings job now) 6 .prepare host with
  | mk last after =>
    obtain ⟨own, rfl⟩ := exists_ended_of_repeated (Nat.le_refl 6) found
    simp only [runContainer, bind, StateT.bind, found] at runs
    cases runs
    rfl

end Host

end StyleMonitor
