import StyleMonitor.Proofs.Analysis.Printing
import StyleMonitor.Proofs.Console.Work
import StyleMonitor.Proofs.Coordinator.Alone
import StyleMonitor.Proofs.Disk.Names

/-!
# What a check prints

A check prints the findings of the report that its container leaves, a line each, and then how many
there are; its status tells whether there are any. The lines are those of the report, whatever order
its files are published in, as long as the report spells its paths as a project does.
-/

namespace StyleMonitor

namespace Disk

theorem isAbsolute_of_canonical {disk : Disk} {path root : String}
    (found : disk.canonical path = .ok root) : Path.isAbsolute root = true := by
  unfold canonical at found
  cases spot : disk.spot true path with
  | error failure => simp [spot, bind, Except.bind] at found
  | ok place =>
    cases status : disk.status path with
    | error failure => simp [spot, status, bind, Except.bind] at found
    | ok node =>
      simp only [spot, status, bind, Except.bind, Except.ok.injEq] at found
      rw [← found]
      exact isAbsolute_placePath _

end Disk

namespace Workspace

variable {current root target : String} {banned : List String} {requireSources : Bool}
  {holdsSources : String → Bool}

/-- The root that a path resolves to in a workspace of one root. -/
theorem eq_of_resolve {trigger : String}
    (accepted : (make current [root] banned requireSources).resolve current holdsSources trigger =
      .ok target) : target = Path.absolute current root := by
  unfold resolve at accepted
  split at accepted
  · cases accepted
  dsimp only at accepted
  split at accepted
  · cases accepted
  next found =>
  split at accepted
  · cases accepted
  cases accepted
  simp only [rootOf?, make, List.map_cons, List.map_nil, List.filter_cons, List.filter_nil] at found
  split at found
  · exact (Option.some.inj found).symm
  · cases found

end Workspace

theorem Session.of_ask_ok {α : Type} {question : Disk → Except Failure α} {before after : Volume}
    {answer : α} (asked : ask question before = (.ok answer, after)) :
    question before.disk = .ok answer := by
  unfold ask call at asked
  split at asked
  · cases asked
  · cases found : question before.disk with
    | error failure =>
      simp only [found, Except.map] at asked
      cases asked
    | ok own =>
      simp only [found, Except.map] at asked
      cases asked
      rfl

namespace Console

open Report (Listing Printed Tidy)

variable {here : Circumstances} {settings : Settings} {console : Console}
  {name root target path text : String} {volume middle last : Volume} {host : Host Unit}
  {exclusions : Exclusions}

theorem canonicalRoot_eq (found : Session.ask (·.canonical name) console.volume = (.ok root, volume)) :
    canonicalRoot name console = (.ok root, { console with volume }) := by
  simp only [canonicalRoot, onFiles, bind, ExceptT.bind, ExceptT.mk, StateT.bind, found]
  rfl

theorem coordinate_eq (on : settings.analysis.enabled = true)
    (accepted : (Workspace.make console.volume.disk.currentPath [root]
      settings.analysis.bannedExtensions settings.analysis.requireSources).resolve
        console.volume.disk.currentPath (Sources.areHeld console.volume.disk here.home) root =
          .ok target)
    (contained : Host.runContainer (runtime here.around) settings.runner
      (.on settings.runner target) here.now
        ⟨console.volume, .file (Settings.recordPath here.home), ()⟩ = (.ok path, host))
    (rules : Exclusions.load target settings.report.ignoreFile host.volume =
      (.ok exclusions, middle))
    (report : Session.readText path middle = (.ok text, last)) :
    ∃ state, coordinate here settings [root] [root] console =
        (.ok state, { console with volume := last }) ∧
      state.answers = [(0, .completed (Report.findings exclusions text).totalCount)] ∧
      state.shared.shown = (Report.findings exclusions text).files.foldl (Analysis.showing target)
        {} := by
  let analysis := settings.analysis
  let stage : Coordinator.Stage Unit := {
    setup := {
      analysis := { runner := settings.runner, ignoreFile := settings.report.ignoreFile }
      workspace := Workspace.make console.volume.disk.currentPath [root] analysis.bannedExtensions
        analysis.requireSources
      holdsSources := fun disk root => Sources.areHeld disk here.home root }
    runtime := runtime here.around
    debounce := analysis.debounceMillis }
  let shared : Shared := {
    enabled := analysis.enabled
    volume := console.volume
    pulls := .file (Settings.recordPath here.home)
    clock := here.now }
  obtain ⟨state, ends, answers, shares⟩ := @Coordinator.Timeline.state_after_trigger Unit stage
    shared () host (Report.findings exclusions text) last ⟨rfl, rfl, fun _ _ => rfl⟩ root target path
    on rfl accepted contained (Analysis.readReport_of_readText rules report) analysis.debounceMillis
  refine ⟨state, ?_, answers, ?_⟩
  · have told : state.shared.notes = [] := by rw [shares]
    have left : state.shared.volume = last := by rw [shares]
    rw [coordinate, get_bind, modify_bind, List.map_singleton]
    simp only [stage, shared, analysis] at ends
    rw [ends, told, left]
    rfl
  · rw [shares]
    rfl

/-- What a check prints: one line for each accepted line of the report, grouped by path in the order
of paths, and then their number. -/
theorem check_prints_listing
    (found : Session.ask (·.canonical name) console.volume = (.ok root, volume))
    (on : settings.analysis.enabled = true)
    (accepted : (Workspace.make volume.disk.currentPath [root] settings.analysis.bannedExtensions
      settings.analysis.requireSources).resolve volume.disk.currentPath
        (Sources.areHeld volume.disk here.home) root = .ok target)
    (contained : Host.runContainer (runtime here.around) settings.runner
      (.on settings.runner target) here.now
        ⟨volume, .file (Settings.recordPath here.home), ()⟩ = (.ok path, host))
    (rules : Exclusions.load target settings.report.ignoreFile host.volume =
      (.ok exclusions, middle))
    (report : Session.readText path middle = (.ok text, last)) (tidy : Tidy exclusions text) :
    ∃ listed printed, Listing exclusions text listed ∧ List.Forall₂ Printed listed printed ∧
      (∀ published : List (String × List Finding),
        published.Perm (Report.findings exclusions text).files →
          (published.foldl (Analysis.showing target) {}).lines root = printed) ∧
      check here settings name console =
        (.ok (if printed = [] then 0 else 1),
          { console with
            volume := last
            stdout := console.stdout ++ printed ++
              [(Outcome.completed printed.length).statusLine] }) := by
  have rooted : Path.isAbsolute root = true :=
    Disk.isAbsolute_of_canonical (Session.of_ask_ok found)
  have same : Path.components target = Path.components root := by
    rw [Workspace.eq_of_resolve accepted, Path.components_absolute _ rooted]
  have some : Path.components root ≠ [] := by
    intro none
    rw [Path.isAbsolute_eq, none] at rooted
    cases rooted
  obtain ⟨printed, lines, count, whole⟩ := Analysis.exists_printed tidy root target same some
  refine ⟨_, printed, Report.listing_listing exclusions text, lines, whole, ?_⟩
  obtain ⟨state, ends, answers, shown⟩ := @coordinate_eq here settings { console with volume }
    root target path text middle last host exclusions on accepted contained rules report
  have printed_eq : state.shared.shown.lines root = printed := by
    rw [shown]
    exact whole _ (List.Perm.refl _)
  rw [check, bind_ok (canonicalRoot_eq found), bind_ok ends, printed_eq, bind_ok (forM_say _ _),
    answers]
  have told : say (Outcome.completed printed.length).statusLine
      { console with volume := last, stdout := console.stdout ++ printed } =
        (.ok (), { console with
          volume := last
          stdout := console.stdout ++ printed ++
            [(Outcome.completed printed.length).statusLine] }) := rfl
  have status : (Outcome.completed printed.length).exitCode = if printed = [] then 0 else 1 := by
    cases printed <;> rfl
  rw [← status, ← count]
  exact bind_ok told

/-! ### Checks of a project -/

/-- A project whose image was pulled just now, with a checker that leaves these lines as its
report. -/
def leaving (lines : List String) : Volume :=
  let script := "#!/bin/sh\n" ++ String.join (lines.map fun line =>
    "echo " ++ line ++ " >> /w/.vscode/coding-style-reports.log\n")
  ⟨⟨⟨[(["w"], .directory), (["w", "checker"], .file (Text.encode script) true),
    (["h"], .directory), (["h", ".stylewatch"], .directory),
    (["h", ".stylewatch", "state.json"],
      .file (Text.encode "\x7b\"lastImagePull\":0\x7d") false)]⟩, []⟩, []⟩

/-- How the program is started there. -/
def started : Circumstances := { home := "/h", now := ⟨0⟩ }

/-- Settings that name the checker of the project. -/
def project : Settings := { runner := { runtime := "/w/checker" } }

/-- What the run of the checker comes to there. -/
def checked (lines : List String) : Except Container.Fault String × Host Unit :=
  Host.runContainer (runtime started.around) project.runner (.on project.runner "/w") started.now
    ⟨leaving lines, .file (Settings.recordPath started.home), ()⟩

theorem eq_of_toOption {ε α : Type} {result : Except ε α} {answer : α}
    (ok : result.toOption = some answer) : result = .ok answer := by
  cases result with
  | error fault => cases ok
  | ok own => exact congrArg _ (Option.some.inj ok)

/-- What is left beside an answer. -/
theorem exists_of_toOption {ε α β : Type} {result : Except ε α × β} {answer : α}
    (ok : result.1.toOption = some answer) : ∃ rest, result = (.ok answer, rest) := by
  obtain ⟨own, rest⟩ := result
  have own_eq : own = .ok answer := eq_of_toOption ok
  exact ⟨rest, by rw [own_eq]⟩

/-- The project is found, whatever its checker leaves. -/
theorem ask_leaving (lines : List String) :
    Session.ask (·.canonical "/w") (leaving lines) = (.ok "/w", leaving lines) := rfl

/-- A report with lines of two files in turn, and one of a file for tests. -/
theorem check_prints_listing_twoFiles :
    let lines := ["b.c:20:MINOR:C-G1", "./a.c:7:MAJOR:C-F3", "tests/t.c:1:INFO:C-A3",
      "b.c:3:INFO:C-A3"]
    ∃ volume, check started project "/w" { volume := leaving lines } =
      (.ok 1, { volume, stdout := ["a.c:7: warning C-F3 - Line exceeds 80 columns",
        "b.c:20: warning C-G1 - Missing or incorrect Epitech header",
        "b.c:3: info C-A3 - Missing line break at end of file", "3 Coding Style Errors"] }) := by
  intro lines
  let files := leaving lines
  let ran := checked lines
  let text := "b.c:20:MINOR:C-G1\n./a.c:7:MAJOR:C-F3\ntests/t.c:1:INFO:C-A3\nb.c:3:INFO:C-A3\n"
  obtain ⟨ends, loads, reads⟩ :
      ran.1.toOption = some "/w/.vscode/coding-style-reports.log" ∧
      (Exclusions.load "/w" ".gitignore" ran.2.volume).1.toOption = some .empty ∧
      (Session.readText "/w/.vscode/coding-style-reports.log"
        (Exclusions.load "/w" ".gitignore" ran.2.volume).2).1.toOption = some text := by
    decide +kernel
  obtain ⟨host, contained⟩ := exists_of_toOption ends
  rw [contained] at loads reads
  obtain ⟨middle, rules⟩ := exists_of_toOption loads
  rw [rules] at reads
  obtain ⟨last, report⟩ := exists_of_toOption reads
  have found : Session.ask (·.canonical "/w") files = (.ok "/w", files) := ask_leaving _
  have accepted : (Workspace.make files.disk.currentPath ["/w"] project.analysis.bannedExtensions
      project.analysis.requireSources).resolve files.disk.currentPath
        (Sources.areHeld files.disk started.home) "/w" = .ok "/w" :=
    eq_of_toOption (by decide +kernel)
  have plain : ∀ line ∈ Report.accepted .empty text, Path.isAbsolute (Report.pathOf line) = false ∧
      (Path.components (Report.pathOf line)).head? ≠ some .here := by
    decide +kernel
  have tidy : Tidy .empty text :=
    ⟨fun line member => ⟨(plain line member).1, (plain line member).2⟩, by decide +kernel⟩
  obtain ⟨listed, printed, -, -, whole, prints⟩ := @check_prints_listing started project
    { volume := files } "/w" "/w" "/w" "/w/.vscode/coding-style-reports.log" text _ middle last host
    .empty found rfl accepted contained rules report tidy
  -- Whatever order they are published in, the files are printed in that of their paths.
  let published := (Report.findings .empty text).files.reverse
  let store := published.foldl (Analysis.showing "/w") {}
  have ordered : store.snapshot = store.files := List.mergeSort_of_pairwise (by decide +kernel)
  have shown : store.lines "/w" = ["a.c:7: warning C-F3 - Line exceeds 80 columns",
      "b.c:20: warning C-G1 - Missing or incorrect Epitech header",
      "b.c:3: info C-A3 - Missing line break at end of file"] := by
    rw [Diagnostics.lines, ordered]
    decide +kernel
  rw [← whole published (List.reverse_perm _), shown] at prints
  exact ⟨last, prints⟩

/-- A report whose lines name two paths, apart from each other as they are written, that lead to one
place: only one of its lines is printed, and its path is not as it was written. -/
theorem check_loses_line :
    (∀ first ∈ Report.accepted .empty "a.c:1:MAJOR:C-F3\n././a.c:2:MINOR:C-G1\n",
      Path.isAbsolute (Report.pathOf first) = false ∧
      ∀ second ∈ Report.accepted .empty "a.c:1:MAJOR:C-F3\n././a.c:2:MINOR:C-G1\n",
        first ≠ second → Path.same (Report.pathOf first) (Report.pathOf second) = false) ∧
    (check started project "/w"
      { volume := leaving ["a.c:1:MAJOR:C-F3", "././a.c:2:MINOR:C-G1"] }).2.stdout =
        ["a.c:2: warning C-G1 - Missing or incorrect Epitech header",
          "2 Coding Style Errors"] := by
  decide +kernel

end Console

end StyleMonitor
