/-!
# Arguments

An invocation names an image and a command, with a flag in front that can be given more than once:

    [-v]... IMAGE COMMAND [PATH]

Flags may also stand between the image and the command. A word that is the name of a command is
always taken for the command. Behind the command, two hyphens on their own make the words after
them plain values, however they begin.
-/

namespace HfsPlus

/-- What is asked of an image. -/
inductive Command where
  /-- A summary of the volume. -/
  | info
  /-- The entries of a folder. -/
  | ls (path : String)
  /-- The attributes of an entry. -/
  | stat (path : String)
  /-- The target of a link. -/
  | readlink (path : String)
  /-- The contents of a file. -/
  | cat (path : String)
  /-- The digest of a file's contents. -/
  | sha256 (path : String)
deriving DecidableEq, Repr

namespace Command

/-- The command of this name with these plain values, if there is one. -/
def ofValues? : (name : String) → (values : List String) → Option Command
  | "info", [] => some .info
  | "ls", [path] => some (.ls path)
  | "stat", [path] => some (.stat path)
  | "readlink", [path] => some (.readlink path)
  | "cat", [path] => some (.cat path)
  | "sha256", [path] => some (.sha256 path)
  | _, _ => none

/-- The names of the commands that take a path. -/
def pathNames : List String := ["ls", "stat", "readlink", "cat", "sha256"]

/-- The names of all commands. -/
def names : List String := "info" :: pathNames

end Command

/-- A complete set of arguments. -/
structure Invocation where
  /-- How much of the log is wanted. -/
  verbosity : Nat
  /-- The file that holds the image. -/
  image : String
  /-- What is asked of it. -/
  command : Command
deriving DecidableEq, Repr

namespace Invocation

/-- Whether a word is an option and not a value. A lone hyphen is a value. -/
def isOption (word : String) : Bool := word.startsWith "-" && word ≠ "-"

/-- How often a word asks for a more detailed log, if it is a flag that does. -/
def verboseCount? (word : String) : Option Nat :=
  if word = "--verbose" then some 1
  else match word.toList with
    | '-' :: 'v' :: letters => if letters.all (· = 'v') then some (letters.length + 1) else none
    | _ => none

/-- The plain values among the words behind a command, if there is no option among them. -/
def plainValues? : List String → Option (List String)
  | [] => some []
  | word :: rest =>
    if word = "--" then some rest
    else if isOption word then none
    else (plainValues? rest).map (word :: ·)

/-- Takes words from the front until the command is met. -/
def parseFrom (verbosity : Nat) (image? : Option String) : List String → Option Invocation
  | [] => none
  | word :: rest =>
    match verboseCount? word with
    | some count => parseFrom (verbosity + count) image? rest
    | none =>
      if isOption word then
        none
      else if word ∈ Command.names then do
        let image ← image?
        let command ← Command.ofValues? word (← plainValues? rest)
        return { verbosity, image, command }
      else
        match image? with
        | none => parseFrom verbosity (some word) rest
        | some _ => none

/-- The invocation that a list of arguments makes, if it makes one. -/
def parse? (args : List String) : Option Invocation := parseFrom 0 none args

/-- What the arguments should look like. -/
def usage : String :=
  "usage: [-v]... IMAGE info | " ++ " | ".intercalate (Command.pathNames.map (· ++ " PATH"))

end Invocation

end HfsPlus
