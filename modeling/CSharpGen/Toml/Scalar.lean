import CSharpGen.Toml.Moment
import CSharpGen.Toml.Value

/-!
# Words that are values

Truth values, numbers, dates and times: the values that are written without quotation marks.
-/

namespace CSharpGen.Toml

/-- The value that a word stands for. -/
def Value.ofWord? (word : String) : Option Value :=
  match word with
  | "true" => some (.boolean true)
  | "false" => some (.boolean false)
  | _ =>
    if Number.isNumber word.toList then some (.number word)
    else if isMoment word.toList then some (.moment word)
    else none

end CSharpGen.Toml
