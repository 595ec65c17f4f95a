import DeskCalculator.CommandLine.Program

set_option autoImplicit false

namespace DeskCalculator.CommandLine

def FileFault.ofCode (code : UInt32) (details : String) : FileFault :=
  match code.toInt32.toInt.natAbs with
  | 2 => .missing
  | 20 => .throughFile
  | 21 => .directory
  | 36 => .nameTooLong
  | _ => .other details

def FileFault.ofError : IO.Error → FileFault
  | .noFileOrDirectory _ code details | .inappropriateType _ code details
  | .permissionDenied _ code details | .invalidArgument _ code details => .ofCode code details
  | e => .other (toString e)

def Completion.write (c : Completion) : IO UInt32 := do
  (← IO.getStdout).putStr c.output
  (← IO.getStderr).putStr c.errors
  return c.exitCode.toUInt32

/-- Reads the bytes up to a line feed, which is one of them, or up to the end. -/
partial def readLineBytes (stream : IO.FS.Stream) (read : Array UInt8) : IO (List UInt8) := do
  let chunk ← stream.read 1
  if chunk.isEmpty then return read.toList
  let read := read ++ chunk.data
  if chunk.data.contains 10 then return read.toList
  readLineBytes stream read

partial def answerLines (s : Session) : IO UInt32 := do
  let out ← IO.getStdout
  out.putStr prompt
  out.flush
  let bytes ← readLineBytes (← IO.getStdin) #[]
  if bytes.isEmpty then
    out.putStr "\n"
    return (exitCodeAfter s).toUInt32
  let mut s := s
  for line in Text.lines (inputText bytes) do
    let (output, s') := s.calculate line
    (← IO.getStderr).putStr (s'.store.log.textFrom s.errorCount)
    out.putStr output
    s := s'
  answerLines s

partial def readAllBytes (stream : IO.FS.Stream) (read : ByteArray) : IO ByteArray := do
  let chunk ← stream.read 65536
  if chunk.isEmpty then return read
  readAllBytes stream (read ++ chunk)

def performHere : Request → IO UInt32
  | .help => Completion.help.write
  | .calculation _ none => do
    (← IO.getStderr).putStrLn Abort.depthMissing.message
    return 1
  | .calculation none (some levels) => do
    let input ← IO.getStdin
    let s : Session := { levels }
    if ← input.isTty then answerLines s
    else (runText s (inputText (← readAllBytes input .empty).toList)).write
  | .calculation (some name) (some levels) => do
    match ← (IO.FS.readBinFile (String.ofList name)).toBaseIO with
    | .error e => (Completion.ofFault (.fileUnread name (.ofError e))).write
    | .ok bytes => (runText { levels } (inputText bytes.toList)).write

end DeskCalculator.CommandLine

open DeskCalculator DeskCalculator.CommandLine in
def main (args : List String) : IO UInt32 :=
  match readArguments Depth.defaultCalls (args.map String.toList) with
  | .error f => (Completion.ofFault f).write
  | .ok request => performHere request
