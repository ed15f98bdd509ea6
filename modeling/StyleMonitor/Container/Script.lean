import StyleMonitor.Host

/-!
A runtime that follows a script: for each purpose a list of responses, given one after the other,
the last one again and again. It keeps the commands it was given.
-/

namespace StyleMonitor.Container

/-- A response of the script: a reply, and files that the command writes first into the second
directory of the host that it mounts. -/
structure Response where
  writes : List (String × Bytes) := []
  reply : Reply := .ok {}

/-- A script (`ScriptedExecutor`). Where it has no responses, commands succeed. -/
structure Script where
  pull : List Response := []
  prune : List Response := []
  run : List Response := []
  /-- The commands that were given, the last one first. -/
  calls : List Command := []

namespace Script

/-- The next response of a list, and the list after it. -/
def next : List Response → Response × List Response
  | [] => ({}, [])
  | [response] => (response, [response])
  | response :: rest => (response, rest)

/-- The response to a command of a purpose, and the script after it. -/
def respond (script : Script) : Purpose → Response × Script
  | .pull => let (response, rest) := next script.pull; (response, { script with pull := rest })
  | .prune => let (response, rest) := next script.prune; (response, { script with prune := rest })
  | .run => let (response, rest) := next script.run; (response, { script with run := rest })
  | .other => ({}, script)

/-- Writes the files of a response. -/
def writeFiles (command : Command) (writes : List (String × Bytes)) : Session Unit :=
  match writes, command.hostMounts with
  | [], _ => return ()
  | writes, _ :: directory :: _ =>
    writes.forM fun (path, content) => Session.write (Path.join directory path) content
  | _, _ => throw (.reported .other "run without report mount")

/-- Notes a command. -/
def note (command : Command) (script : Script) : Script :=
  { script with calls := command :: script.calls }

/-- What comes of a command that was noted. -/
def answer : Runtime Script := fun command script volume =>
  let (response, script) := script.respond command.purpose
  match writeFiles command response.writes volume with
  | (.ok (), volume) => (response.reply, script, volume)
  | (.error failure, volume) => (.error failure, script, volume)

/-- Notes a command and answers it. -/
def runtime : Runtime Script := fun command script volume =>
  answer command (script.note command) volume

/-- How many commands of a purpose were given. -/
def count (script : Script) (purpose : Purpose) : Nat :=
  script.calls.countP fun command => command.purpose = purpose

end Script

end StyleMonitor.Container
