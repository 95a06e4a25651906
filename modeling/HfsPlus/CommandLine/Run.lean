import HfsPlus.CommandLine.Arguments
import HfsPlus.CommandLine.Report
import HfsPlus.Digest.Sha256
import HfsPlus.Volume.Path

/-!
# Carrying out a command

A command mounts the image and writes its report. What it writes is kept even if it ends in an
error later on, so a report is written only when all of it is known; the contents of a file, which
may be large, are written chunk by chunk.
-/

namespace HfsPlus

/-- Writes a text. -/
def Run.print (text : String) : Run Unit := Run.write text.toUTF8.data.toList

/-- Writes lines, each with its end. -/
def Run.printLines (lines : List String) : Run Unit :=
  Run.print (String.join (lines.map (· ++ "\n")))

namespace Command

/-- Carries out a command on a mounted volume. -/
def runOn (v : Volume) : Command → Run Unit
  | .info => Run.printLines (Report.volume v)
  | .ls path => do
    let folder ← v.lookupPath path
    if folder.isFolder then
      Run.printLines (Report.listing (← v.entries folder))
    else
      Run.fail .notFound
  | .stat path => do
    Run.printLines (Report.entry (← v.lookupPath path))
  | .readlink path => do
    let target ← v.readLink (← v.lookupPath path)
    Run.printLines [Text.Ascii.escape target]
  | .cat path => do
    let entry ← v.lookupPath path
    v.foldContents entry (fun _ chunk => Run.write chunk) 0 ()
  | .sha256 path => do
    let entry ← v.lookupPath path
    let chunks ← v.foldContents entry (fun chunks chunk => return chunk :: chunks) 0 []
    Run.printLines [s!"{Sha256.hexDigest chunks.reverse.flatten}  {path}"]

/-- Carries out a command on an image. -/
def run (command : Command) (image : Array UInt8) : Run Unit := do
  command.runOn (← Volume.mount (Device.ofImage image))

end Command

/-- What is seen of a program that has ended. -/
structure Outcome where
  /-- The exit code: 0, or 1 after an error, or 2 for arguments that make no sense. -/
  exitCode : UInt8
  /-- The error. -/
  error? : Option Error
  /-- The lines of the log. -/
  log : List String
  /-- What was written. -/
  output : Bytes
deriving DecidableEq, Repr

namespace Outcome

/-- The outcome of arguments that make no sense. -/
def usage : Outcome := { exitCode := 2, error? := none, log := [], output := [] }

/-- The outcome of a run, with a log as detailed as is wanted. -/
def ofRun (verbosity : Nat) (r : Run Unit) : Outcome where
  exitCode := match r.result with
    | .ok _ => 0
    | .error _ => 1
  error? := match r.result with
    | .ok _ => none
    | .error e => some e
  log := (r.notices.filter (·.level.verbosity ≤ verbosity)).map Notice.line
  output := r.output

end Outcome

/-- The outcome of an invocation, given the image that it names. -/
def Invocation.outcome (invocation : Invocation) (image : Array UInt8) : Outcome :=
  Outcome.ofRun invocation.verbosity (invocation.command.run image)

end HfsPlus
