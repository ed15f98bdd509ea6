/-!
The order of texts by the numbers of their characters. It is also the order of their UTF-8
bytes.
-/

namespace StyleMonitor.Text

/-- Whether a text comes before another or is the same. -/
def le (a b : String) : Bool :=
  !decide (b < a)

end StyleMonitor.Text
