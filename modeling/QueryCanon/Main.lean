/-
The command on the files of the machine.
-/
import QueryCanon.Command.Run

namespace QueryCanon
namespace Main

/-- An error of the system as a fault.  A name that is refused holds a NUL character or is
too long. -/
def faultOf : IO.Error → FileFault
  | .noFileOrDirectory .. => .notFound
  | .inappropriateType _ code _ => if code = 21 then .isDirectory else .notDirectory
  | .invalidArgument _ code _ => if code = 22 then .nulInName else .nameTooLong
  | .permissionDenied _ code details =>
    .other (details ++ " (os error " ++ toString code ++ ")")
  | e => .other (toString e)

/-- The text that `bytes` are, if they are a text. -/
def textOf (bytes : ByteArray) : Except FileFault String :=
  match String.fromUTF8? bytes with
  | some text => .ok text
  | none => .error .notUtf8

/-- The bytes of a stream up to its end. -/
partial def drain (stream : IO.FS.Stream) (sofar : ByteArray) : IO ByteArray := do
  let more ← stream.read 65536
  if more.isEmpty then
    return sofar
  else
    drain stream (sofar ++ more)

def files : Files IO where
  read name := do
    try
      return textOf (← IO.FS.readBinFile name)
    catch e => return .error (faultOf e)
  write name text := do
    try
      IO.FS.writeFile name text
      return .ok ()
    catch e => return .error (faultOf e)
  readInput := do
    try
      return textOf (← drain (← IO.getStdin) .empty)
    catch e => return .error (faultOf e)

end Main
end QueryCanon

def main (arguments : List String) : IO UInt32 := do
  let setting ← IO.getEnv QueryCanon.Command.settingName
  let report ← QueryCanon.Command.run QueryCanon.Main.files arguments setting
  (← IO.getStdout).putStr report.stdout
  (← IO.getStderr).putStr report.stderr
  return UInt32.ofNat report.exit
