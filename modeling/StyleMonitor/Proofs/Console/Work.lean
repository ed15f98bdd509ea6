import StyleMonitor.Console

/-!
# Work at a console

Work goes on where what was done before it has left the console. What it says is written below what
was written before.
-/

namespace StyleMonitor.Console

variable {console later : Console}

theorem get_bind {α : Type} (next : Console → Work α) (console : Console) :
    (get >>= next) console = next console console := rfl

theorem modify_bind {α : Type} (change : Console → Console) (next : Unit → Work α)
    (console : Console) : (modify change >>= next) console = next () (change console) := rfl

theorem bind_ok {α β : Type} {work : Work α} {next : α → Work β} {answer : α}
    (done : work console = (.ok answer, later)) : (work >>= next) console = next answer later := by
  simp only [bind, ExceptT.bind, ExceptT.mk, StateT.bind, done]
  rfl

/-- The lines are written one after the other. -/
theorem forM_say (lines : List String) (console : Console) :
    lines.forM say console = (.ok (), { console with stdout := console.stdout ++ lines }) := by
  induction lines generalizing console with
  | nil =>
    rw [List.append_nil]
    rfl
  | cons line rest ih =>
    have first : (line :: rest).forM say console =
        rest.forM say { console with stdout := console.stdout ++ [line] } := rfl
    rw [first, ih, List.append_assoc, List.singleton_append]

theorem forM_warn (lines : List String) (console : Console) :
    lines.forM warn console = (.ok (), { console with stderr := console.stderr ++ lines }) := by
  induction lines generalizing console with
  | nil =>
    rw [List.append_nil]
    rfl
  | cons line rest ih =>
    have first : (line :: rest).forM warn console =
        rest.forM warn { console with stderr := console.stderr ++ [line] } := rfl
    rw [first, ih, List.append_assoc, List.singleton_append]

theorem say_eq (line : String) (console : Console) :
    say line console = (.ok (), { console with stdout := console.stdout ++ [line] }) := rfl

/-- Rows are written one after the other. -/
theorem forM_row (rows : List (String × String)) (console : Console) :
    (rows.forM fun (name, value) => say (row name value)) console =
      (.ok (), { console with
        stdout := console.stdout ++ rows.map fun (name, value) => row name value }) := by
  have lines := forM_say (rows.map fun (name, value) => row name value) console
  rw [List.forM_eq_forM, List.forM_map] at lines
  exact lines

end StyleMonitor.Console
