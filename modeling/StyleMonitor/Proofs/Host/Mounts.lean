import StyleMonitor.Proofs.Host.Commands
import StyleMonitor.Proofs.Path.Raw

/-!
# The mounts of a run

A command is looked through two arguments at a time, and what follows an argument `-v` is cut at its
last colon. From the command that runs the container the directories of the host come back in this
way as they are shown, whatever its other arguments look like: no mount is taken for a flag, because
each has a colon, and where the image or a place in the container is taken for one, what follows has
no colon. A path that is a text is shown as it is, so every run that is issued shows which directory
it works on and where its report goes; of another path some bytes are lost.
-/

namespace StyleMonitor

namespace Text

theorem cutFirst_of_not_mem {sep : Char} {before : List Char} (plain : sep ∉ before)
    (after : List Char) : cutFirst sep (before ++ sep :: after) = some (before, after) := by
  induction before with
  | nil => simp [cutFirst]
  | cons c before ih =>
    obtain ⟨other, plain⟩ := not_or.mp (List.mem_cons.not.mp plain)
    rw [List.cons_append, cutFirst, if_neg (Ne.symm other), ih plain]
    rfl

/-- A cut at the last separator parts off a text that has none. -/
theorem cutLast_of_not_mem {sep : Char} {after : List Char} (plain : sep ∉ after)
    (before : List Char) : cutLast sep (before ++ sep :: after) = some (before, after) := by
  have turned : (before ++ sep :: after).reverse = after.reverse ++ sep :: before.reverse := by
    simp
  rw [cutLast, turned, cutFirst_of_not_mem (by simpa using plain)]
  simp

theorem cutLast_eq_none {sep : Char} {s : List Char} (plain : sep ∉ s) : cutLast sep s = none := by
  cases cut : cutLast sep s with
  | none => rfl
  | some parts =>
    exfalso
    apply plain
    rw [cutLast_eq cut]
    simp

end Text

namespace Command

/-- What a mount shows of the host is read back from it, whatever colons the source has. -/
theorem mountSource?_mount (source : RawPath) {destination : String}
    (plain : ':' ∉ destination.toList) :
    mountSource? (Container.mount source destination) = some (Text.lossy source) := by
  have spelled : (Container.mount source destination).toList =
      (Text.lossy source).toList ++ ':' :: destination.toList := by
    simp [Container.mount]
  rw [mountSource?, spelled, Text.cutLast_of_not_mem plain]
  simp

theorem mountSource?_eq_none {mount : String} (plain : ':' ∉ mount.toList) :
    mountSource? mount = none := by
  rw [mountSource?, Text.cutLast_eq_none plain]
  rfl

/-- A mount is not taken for a flag. -/
theorem mount_ne_flag (source : RawPath) (destination : String) :
    Container.mount source destination ≠ "-v" := by
  intro same
  have colon : ':' ∈ (Container.mount source destination).toList := by
    simp [Container.mount]
  rw [same] at colon
  simp at colon

/-- The directories of the host that some arguments mount. -/
def mountsIn (arguments : List String) : List String :=
  (arguments.zip arguments.tail).filterMap fun (flag, mount) =>
    if flag = "-v" then mountSource? mount else none

theorem hostMounts_eq (command : Command) : command.hostMounts = mountsIn command.arguments := rfl

@[simp] theorem mountsIn_singleton (argument : String) : mountsIn [argument] = [] := rfl

theorem mountsIn_of_ne {flag : String} (other : flag ≠ "-v") (mount : String)
    (rest : List String) : mountsIn (flag :: mount :: rest) = mountsIn (mount :: rest) := by
  simp [mountsIn, other]

theorem mountsIn_flag {mount source : String} (reads : mountSource? mount = some source)
    (rest : List String) : mountsIn ("-v" :: mount :: rest) = source :: mountsIn (mount :: rest) := by
  simp [mountsIn, reads]

/-- What has no colon is no mount, whatever stands before it. -/
theorem mountsIn_of_plain {mount : String} (plain : ':' ∉ mount.toList) (argument : String)
    (rest : List String) : mountsIn (argument :: mount :: rest) = mountsIn (mount :: rest) := by
  simp [mountsIn, mountSource?_eq_none plain]

variable {settings : RunnerSettings}

/-- The mounts of the command that runs the container are the target and the directory for the
report, as they are shown. -/
theorem hostMounts_commandOn (delivery : ':' ∉ settings.deliveryMount.toList)
    (report : ':' ∉ settings.reportMount.toList) (current : Option RawPath)
    (target directory : RawPath) :
    (Container.commandOn settings current target directory).hostMounts =
      [Text.lossy (RawPath.absolute current target),
        Text.lossy (RawPath.absolute current directory)] := by
  rw [hostMounts_eq, Container.commandOn]
  rw [mountsIn_of_ne (by decide), mountsIn_of_ne (by decide), mountsIn_of_ne (by decide)]
  rw [mountsIn_flag (mountSource?_mount _ delivery), mountsIn_of_ne (mount_ne_flag _ _)]
  rw [mountsIn_flag (mountSource?_mount _ report), mountsIn_of_ne (mount_ne_flag _ _)]
  rw [mountsIn_of_plain delivery, mountsIn_of_plain report, mountsIn_singleton]

/-- These are the paths themselves just if the paths are texts. -/
theorem hostMounts_commandOn_iff (delivery : ':' ∉ settings.deliveryMount.toList)
    (report : ':' ∉ settings.reportMount.toList) (current : Option RawPath)
    (target directory : RawPath) :
    (Container.commandOn settings current target directory).hostMounts.map Text.encode =
        [RawPath.absolute current target, RawPath.absolute current directory] ↔
      (Text.decode? (RawPath.absolute current target)).isSome ∧
        (Text.decode? (RawPath.absolute current directory)).isSome := by
  rw [hostMounts_commandOn delivery report, ← Text.encode_lossy_iff, ← Text.encode_lossy_iff]
  simp

theorem hostMounts_runCommand (delivery : ':' ∉ settings.deliveryMount.toList)
    (report : ':' ∉ settings.reportMount.toList) (current : String) (job : Container.Job) :
    (Container.runCommand settings current job).hostMounts =
      [Path.absolute current job.target, Path.absolute current job.directory] := by
  have shown (path : String) :
      Text.lossy (RawPath.absolute (some (Text.encode current)) (Text.encode path)) =
        Path.absolute current path :=
    (congrArg Text.lossy (RawPath.absolute_encode (some current) path)).trans (Text.lossy_encode _)
  rw [Container.runCommand, hostMounts_commandOn delivery report, shown, shown]

theorem purpose_runCommand (settings : RunnerSettings) (current : String) (job : Container.Job) :
    (Container.runCommand settings current job).purpose = .run := rfl

theorem purpose_pullCommand (settings : RunnerSettings) :
    (Image.pullCommand settings).purpose = .pull := rfl

theorem purpose_pruneCommand (settings : RunnerSettings) :
    (Image.pruneCommand settings).purpose = .prune := rfl

end Command

namespace Host

variable {ρ : Type} {settings : RunnerSettings}

/-- Only the last command of a run is one that runs the container. -/
theorem command_of_purpose (runtime : Runtime ρ) (job : Container.Job) (now : Instant)
    (host : Host ρ) {issued : Carried}
    (member : issued ∈ (host.execution runtime settings job now).issued)
    (runs : issued.command.purpose = .run) :
    issued.command = Container.runCommand settings issued.found.disk.currentPath job := by
  cases made : (Session.makeDirectories job.directory host.volume).1 with
  | error failure =>
    rw [execution_refused made] at member
    cases member
  | ok =>
    obtain ⟨pull?, prune?, ran, course⟩ := exists_course runtime settings job now host made
    rw [course.issued] at member
    simp only [List.mem_append, Option.mem_toList, List.mem_singleton] at member
    obtain (pulls | prunes) | rfl := member
    · rw [course.pull issued pulls, Command.purpose_pullCommand] at runs
      cases runs
    · rw [course.prune issued prunes, Command.purpose_pruneCommand] at runs
      cases runs
    · exact course.run

/-- The report of a run that succeeds is in the second mount of its last command. -/
theorem report_in_mount (delivery : ':' ∉ settings.deliveryMount.toList)
    (report : ':' ∉ settings.reportMount.toList) (runtime : Runtime ρ) (job : Container.Job)
    (now : Instant) (host : Host ρ) {path : String}
    (ends : (host.execution runtime settings job now).result = .ok path) :
    ∃ ran source directory,
      (host.execution runtime settings job now).issued.getLast? = some ran ∧
      ran.command.purpose = .run ∧ ran.command.hostMounts = [source, directory] ∧
      path = Path.join directory settings.reportFile := by
  cases made : (Session.makeDirectories job.directory host.volume).1 with
  | error failure =>
    rw [execution_refused made] at ends
    cases ends
  | ok =>
    obtain ⟨pull?, prune?, ran, course⟩ := exists_course runtime settings job now host made
    have yields := course.result
    rw [ends] at yields
    refine ⟨ran, Path.absolute ran.found.disk.currentPath job.target,
      Path.absolute ran.found.disk.currentPath job.directory, ?_, ?_, ?_,
      yields.eq_reportPath⟩
    · rw [course.issued, List.getLast?_concat]
    · rw [course.run, Command.purpose_runCommand]
    · rw [course.run, Command.hostMounts_runCommand delivery report]

/-- Where the places in the container have no colon, the command that runs it is known as one, and
its mounts are the target and the directory for the report as they are shown, each made absolute or
as it is where that fails; they are these very paths just if both are texts. So it is with each such
command that a run issues, where the paths are texts, and the report of a run that succeeds is in the
second mount of its last command. -/
theorem mounts_of_run (delivery : ':' ∉ settings.deliveryMount.toList)
    (report : ':' ∉ settings.reportMount.toList) :
    (∀ (current : Option RawPath) (target directory : RawPath),
      let command := Container.commandOn settings current target directory
      let target := (RawPath.absolute? current target).getD target
      let directory := (RawPath.absolute? current directory).getD directory
      command.purpose = .run ∧ command.hostMounts = [Text.lossy target, Text.lossy directory] ∧
      (command.hostMounts.map Text.encode = [target, directory] ↔
        (Text.decode? target).isSome ∧ (Text.decode? directory).isSome)) ∧
    ∀ job : Container.Job,
      (∀ current : String, (Container.runCommand settings current job).purpose = .run ∧
        (Container.runCommand settings current job).hostMounts =
          [(Path.absolute? current job.target).getD job.target,
            (Path.absolute? current job.directory).getD job.directory]) ∧
      ∀ (ρ : Type) (runtime : Runtime ρ) (now : Instant) (host : Host ρ),
        let run := host.execution runtime settings job now
        (∀ issued ∈ run.issued, issued.command.purpose = .run →
          issued.command.hostMounts =
            [(Path.absolute? issued.found.disk.currentPath job.target).getD job.target,
              (Path.absolute? issued.found.disk.currentPath job.directory).getD job.directory]) ∧
        ∀ path, run.result = .ok path →
          ∃ ran source directory, run.issued.getLast? = some ran ∧ ran.command.purpose = .run ∧
            ran.command.hostMounts = [source, directory] ∧
            path = Path.join directory settings.reportFile := by
  constructor
  · intro current target directory
    exact ⟨rfl, Command.hostMounts_commandOn delivery report current target directory,
      Command.hostMounts_commandOn_iff delivery report current target directory⟩
  intro job
  have mounts := fun current => Command.hostMounts_runCommand delivery report current job
  refine ⟨fun current => ⟨Command.purpose_runCommand settings current job, mounts current⟩, ?_⟩
  intro ρ runtime now host run
  constructor
  · intro issued member runs
    rw [command_of_purpose runtime job now host member runs]
    exact mounts _
  · intro path ends
    exact report_in_mount delivery report runtime job now host ends

/-- The image and the places in the container look like flags, and so does the target. The other
paths have colons and a space, or cannot be made absolute; one has a letter of two bytes, and where
one is no text, nothing of the other is lost. -/
theorem mounts_of_run_flags :
    let settings : RunnerSettings := { image := "-v", deliveryMount := "-v", reportMount := "-v" }
    let quiet : Runtime Unit := fun _ state volume => (.ok {}, state, volume)
    let pulled : Host Unit := ⟨{}, .memory [("lastImagePull", ⟨0⟩)], ()⟩
    let run := pulled.execution quiet settings ⟨"x: y", "-v"⟩ ⟨0⟩
    let text := Container.commandOn settings (some (Text.encode "/a:b")) (Text.encode "./-v")
      (Text.encode "//é: /")
    let other := Container.commandOn settings none [0x77, 0xFF] (Text.encode "//é: /")
    (Container.runCommand settings "/a:b" ⟨"-v", ""⟩).arguments =
      ["run", "--rm", "-i", "-v", "/a:b/-v:-v", "-v", ":-v", "-v", "-v", "-v"] ∧
    (Container.runCommand settings "/a:b" ⟨"-v", ""⟩).purpose = .run ∧
    (Container.runCommand settings "/a:b" ⟨"-v", ""⟩).hostMounts = ["/a:b/-v", ""] ∧
    text.purpose = .run ∧ text.hostMounts = ["/a:b/-v", "//é: /"] ∧
    text.hostMounts.map Text.encode = [Text.encode "/a:b/-v", Text.encode "//é: /"] ∧
    other.purpose = .run ∧ other.hostMounts = ["w\uFFFD", "//é: /"] ∧
    run.result = .ok "/-v/coding-style-reports.log" ∧
    ∃ ran source directory, run.issued.getLast? = some ran ∧ ran.command.purpose = .run ∧
      ran.command.hostMounts = [source, directory] ∧
      "/-v/coding-style-reports.log" = Path.join directory settings.reportFile := by
  intro settings quiet pulled run text other
  have plain : ':' ∉ settings.deliveryMount.toList := by decide
  obtain ⟨shown, built⟩ := mounts_of_run plain plain
  obtain ⟨builds, -⟩ := built ⟨"-v", ""⟩
  obtain ⟨-, issued⟩ := built ⟨"x: y", "-v"⟩
  have ends : run.result = .ok "/-v/coding-style-reports.log" := by decide +kernel
  obtain ⟨-, found⟩ := issued Unit quiet ⟨0⟩ pulled
  obtain ⟨textRuns, textMounts, texts⟩ :=
    shown (some (Text.encode "/a:b")) (Text.encode "./-v") (Text.encode "//é: /")
  obtain ⟨otherRuns, otherMounts, -⟩ := shown none [0x77, 0xFF] (Text.encode "//é: /")
  exact ⟨by decide, (builds "/a:b").1, (builds "/a:b").2.trans (by decide), textRuns,
    textMounts.trans (by decide +kernel), texts.mpr (by decide +kernel), otherRuns,
    otherMounts.trans (by decide +kernel), ends, found _ ends⟩

/-- The target is no text: the directory that is mounted is another one. -/
theorem mounts_of_run_not_text :
    let command := Container.commandOn {} (some (Text.encode "/")) [0x2F, 0x77, 0xFF]
      (Text.encode "/r")
    ':' ∉ ({} : RunnerSettings).deliveryMount.toList ∧
    ':' ∉ ({} : RunnerSettings).reportMount.toList ∧
    RawPath.absolute? (some (Text.encode "/")) [0x2F, 0x77, 0xFF] = some [0x2F, 0x77, 0xFF] ∧
    command.purpose = .run ∧ command.hostMounts = ["/w\uFFFD", "/r"] ∧
    command.hostMounts.map Text.encode ≠ [[0x2F, 0x77, 0xFF], Text.encode "/r"] := by
  decide +kernel

end Host

end StyleMonitor
