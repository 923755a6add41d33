import Interleave.Command.Perform
import Interleave.Time.Utc
import Std.Time.DateTime.Timestamp
/-!
# The command line

The desk of a real command: files, streams, the environment and the clock.
-/
namespace Interleave

/-- The kind of a fault of the system. -/
def IoFault.ofError : IO.Error → IoFault
  | .noFileOrDirectory .. => .notFound
  | .inappropriateType .. => .isADirectory
  | .noSuchThing .. => .notFound
  | _ => .refused

/-- A step whose fault is a result. -/
def attempting (step : IO α) : IO (Except IoFault α) := do
  try
    pure (.ok (← step))
  catch fault => pure (.error (.ofError fault))

/-- The time of the system. -/
def timeOfDay : IO String := do
  let millis := (← Std.Time.Timestamp.now).toMillisecondsSinceUnixEpoch.val.toNat
  pure (Utc.format (millis / 1000) (millis % 1000))

instance : Desk IO where
  OpenFile := IO.FS.Handle
  read path := attempting (IO.FS.readBinFile path)
  write path bytes := attempting (IO.FS.writeBinFile path bytes)
  makeParents path := attempting do
    let parent := Path.parent path
    if parent ≠ "" then IO.FS.createDirAll parent
  create path := attempting (IO.FS.Handle.mk path .write)
  append opened bytes := attempting do
    opened.write bytes
    opened.flush
    pure opened
  print text := do (← IO.getStdout).putStr (text ++ "\n")
  report line := do (← IO.getStderr).putStr (line ++ "\n")
  environment name := IO.getEnv name
  now := timeOfDay
  -- the lines of a step are put together in one go, so a single reading serves for all of them
  clock := do pure (← timeOfDay)
  timed f := do
    let before ← IO.monoMsNow
    let value := f ()
    pure (value, (← IO.monoMsNow) - before)

end Interleave

/-- Performs the command line of the process. -/
def main (words : List String) : IO UInt32 := Interleave.performWords words
