import BrowserSteps.Files.Path
import BrowserSteps.Number

/-!
The settings of a run.
-/

namespace BrowserSteps

structure RunSettings where
  /-- Seconds after which the run is cut; zero for never. -/
  timeout : Number := .whole 0
  throttling : Bool := false
  latency : Int := 500
  download : Int := 1000000
  upload : Int := 500000
  dataDirectory : Path := ⟨false, ["data"]⟩
  deriving Inhabited

end BrowserSteps
