import HfsPlus.CommandLine.Run

/-!
# The command line program

Reads the image, carries out the command, and hands on what it wrote.
-/

/-- Prints what an image holds. -/
def main (args : List String) : IO UInt32 := do
  let some invocation := HfsPlus.Invocation.parse? args
    | IO.eprintln HfsPlus.Invocation.usage
      return HfsPlus.Outcome.usage.exitCode.toUInt32
  let image ← try IO.FS.readBinFile invocation.image catch e =>
    IO.eprintln s!"Error: {e}"
    return 1
  let outcome := invocation.outcome image.data
  for line in outcome.log do
    IO.eprintln line
  let stdout ← IO.getStdout
  stdout.write ⟨outcome.output.toArray⟩
  stdout.flush
  if let some e := outcome.error? then
    IO.eprintln s!"Error: {e.message}"
  return outcome.exitCode.toUInt32
