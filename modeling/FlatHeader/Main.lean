import FlatHeader.Command.Run

/-!
# The command line

Connects the command to the files, arguments, environment and output channels of the system.
-/

namespace FlatHeader

/-- The cause of an error of the system. -/
def FileError.ofSystem : IO.Error → FileError
  | .alreadyExists _ number description => .system description number.toNat
  | .otherError number description => .system description number.toNat
  | .resourceBusy number description => .system description number.toNat
  | .resourceVanished number description => .system description number.toNat
  | .unsupportedOperation number description => .system description number.toNat
  | .hardwareFault number description => .system description number.toNat
  | .unsatisfiedConstraints number description => .system description number.toNat
  | .illegalOperation number description => .system description number.toNat
  | .protocolError number description => .system description number.toNat
  | .timeExpired number description => .system description number.toNat
  | .interrupted _ number description => .system description number.toNat
  | .noFileOrDirectory _ number description => .system description number.toNat
  | .invalidArgument _ number description => .system description number.toNat
  | .permissionDenied _ number description => .system description number.toNat
  | .resourceExhausted _ number description => .system description number.toNat
  | .inappropriateType _ number description => .system description number.toNat
  | .noSuchThing _ number description => .system description number.toNat
  | .unexpectedEof => .other "unexpected end of file"
  | .userError description => .other description

instance : FileAccess IO where
  isFile path := do
    try
      let metadata ← ((← IO.currentDir) / String.ofList path).metadata
      return metadata.type == .file
    catch _ => return false
  read path := do
    try
      let bytes ← IO.FS.readBinFile (String.ofList path)
      return match String.fromUTF8? bytes with
        | some s => .ok s.toList
        | none => .error .notText
    catch e => return .error (.ofSystem e)
  write path contents := do
    try
      IO.FS.writeFile (String.ofList path) (String.ofList contents)
      return .ok ()
    catch e => return .error (.ofSystem e)

end FlatHeader

/-- Runs the command on the arguments of the process. -/
def main (arguments : List String) : IO UInt32 := do
  let rules := (← IO.getEnv "RUST_LOG").map String.toList
  let outcome ← FlatHeader.Command.run (m := IO) (arguments.map String.toList) rules
  IO.print outcome.stdout
  IO.eprint outcome.stderr
  return outcome.exitCode.toUInt32
