import BenchSweep.Config.Reader

/-!
# Configurations in files

## Main definitions

* `Config.ofFile`: the configuration that a file describes.
-/

namespace BenchSweep

/-- The configuration that a file describes; `readText` gives the text under a path. -/
def Config.ofFile (readText : String → Except SystemError String) (path : String) :
    Except Failure Config :=
  match readText path with
  | .error e => .error ⟨[.readingConfig path], .system e⟩
  | .ok text => (ofJson text).mapError (.inContext (.parsingConfig path))

end BenchSweep
