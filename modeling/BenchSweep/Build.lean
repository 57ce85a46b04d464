import BenchSweep.Command.Run

/-!
# Build steps

Commands that run before a sweep, one after the other. The first one that fails ends the build.

## Main definitions

* `buildStep`: one step.
* `build`: all steps.
-/

namespace BenchSweep

open Command (prepare)

/-- Runs a build step. -/
def buildStep (step : List String) (dir : String) (limit : Option Duration) : Attempt Unit := do
  let line := joinWords step
  Script.tell .info .build ("building: " ++ line)
  let command ← prepare step [] dir
  let ending ← command.run limit ("build step `" ++ line ++ "`")
  if ending.isSuccess then
    Script.tell .debug .build
      ("build step `" ++ line ++ "` output:\n" ++ String.ofList (Text.decodeLossy ending.stdout))
  else
    throw (.ofFault (.buildFailed line ending.status ending.errorText))

/-- Runs build steps in order, up to the first that fails. -/
def build (steps : List (List String)) (dir : String) (limit : Option Duration) : Attempt Unit :=
  match steps with
  | [] => pure ()
  | step :: steps => do
    buildStep step dir limit
    build steps dir limit

end BenchSweep
