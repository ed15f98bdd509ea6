import StyleMonitor.Text.Bytes
import StyleMonitor.Text.Lines

/-!
Readable lines: the lines of a sequence of bytes, as far as they are text. Of what a program
writes they are what is kept.
-/

namespace StyleMonitor.Text

/-- The lines of bytes up to the first one that is not text. -/
def readableLines (bytes : Bytes) : List String :=
  (((segments 10 bytes).map (lineBody 13)).map decode?).takeWhile Option.isSome |>.filterMap id

/-- What is kept of the bytes that a program wrote (`capture_lines`): each readable line, with a
line feed after it. -/
def captured (bytes : Bytes) : String :=
  String.join ((readableLines bytes).map (· ++ "\n"))

end StyleMonitor.Text
