import DeskCalculator.CommandLine.Arguments
import DeskCalculator.CommandLine.Directory
import DeskCalculator.Session
import DeskCalculator.Text.Lines
import DeskCalculator.Text.Utf8

/-!
The calculator as a program: over a file or piped input it evaluates the whole text, at a terminal one line
after another, each after a prompt. The exit code counts the mistakes as far as it can.
-/
set_option autoImplicit false

namespace DeskCalculator.CommandLine

structure Completion where
  exitCode : Nat
  output : String
  errors : String
  deriving DecidableEq

def maxExitCode : Nat := 255

def usageExitCode : Nat := 2

def prompt : String := "> "

def inputText (bytes : List UInt8) : List Char := Text.unifyBreaks (Text.decodeUtf8 bytes)

def exitCodeAfter (s : Session) : Nat := min s.errorCount maxExitCode

def Completion.ofSession (output : String) (s : Session) : Completion where
  exitCode := exitCodeAfter s
  output := output
  errors := s.store.log.text

def runText (s : Session) (text : List Char) : Completion :=
  let run := s.calculate text
  .ofSession run.1 run.2

/-- Evaluates lines one after another, each after a prompt; the prompt after the last line is followed by
a line feed. -/
def converse (s : Session) : List (List Char) → String × Session
  | [] => (prompt ++ "\n", s)
  | line :: rest =>
    let run := s.calculate line
    let others := converse run.2 rest
    (prompt ++ run.1 ++ others.1, others.2)

def runTerminal (s : Session) (text : List Char) : Completion :=
  let run := converse s (Text.lines text)
  .ofSession run.1 run.2

def Completion.ofFault (f : UsageFault) : Completion where
  exitCode := usageExitCode
  output := ""
  errors := f.text

def Completion.help : Completion where
  exitCode := 0
  output := helpText
  errors := ""

structure StandardInput where
  bytes : List UInt8
  terminal : Bool

inductive Abort
  | depthMissing
  | endInName
  deriving DecidableEq

def Abort.message : Abort → String
  | .depthMissing => "'<=' not supported between instances of 'int' and 'list'"
  | .endInName => "embedded null byte"

def runFile (directory : Directory) (s : Session) (name : List Char) : Except Abort Completion :=
  if name.contains '\x00' then .error .endInName
  else match directory.read name with
    | .error e => .ok (.ofFault (.fileUnread name e))
    | .ok bytes => .ok (runText s (inputText bytes))

def runInput (input : StandardInput) (s : Session) : Completion :=
  let text := inputText input.bytes
  if input.terminal then runTerminal s text else runText s text

/-- Does what is asked for. Without a depth nothing is read, and the standard input is not read where a
file is named. -/
def perform (directory : Directory) (input : StandardInput) : Request → Except Abort Completion
  | .help => .ok .help
  | .calculation _ none => .error .depthMissing
  | .calculation none (some levels) => .ok (runInput input { levels })
  | .calculation (some name) (some levels) => runFile directory { levels } name

def run (arguments : List (List Char)) (directory : Directory) (input : StandardInput) :
    Except Abort Completion :=
  match readArguments Depth.defaultCalls arguments with
  | .error f => .ok (.ofFault f)
  | .ok request => perform directory input request

end DeskCalculator.CommandLine
