import MotionBlocks.Json.Library
import MotionBlocks.Json.Reader
import MotionBlocks.Json.Record
import MotionBlocks.Json.Writer
import MotionBlocks.Number.Layout

namespace MotionBlocks

/-!
# A strict library

One library for JSON: it reads what the standard calls JSON and no more, writes doubles
in the layout of exchanged programs, and reads every numeral as the double nearest to
it.
-/

namespace JsonLibrary

def strict : JsonLibrary where
  write json := some json.text
  read := Json.ofString?
  numeral := Number.Layout.exchange.numeral
  double numeral :=
    let value := numeral.toFloat
    if value.isFinite then some value else none
  fields := Json.fields?
  choice := Json.asChoice?

end JsonLibrary
end MotionBlocks
