import DeskCalculator.Depth

set_option autoImplicit false

namespace DeskCalculator.CommandLine

inductive Request
  | help
  | calculation (file? : Option (List Char)) (depth? : Option Nat)
  deriving DecidableEq

inductive FileFault
  | missing
  | directory
  | throughFile
  | nameTooLong
  | other (reason : String)
  deriving DecidableEq

def FileFault.reason : FileFault → String
  | .missing => "No such file or directory"
  | .directory => "Is a directory"
  | .throughFile => "Not a directory"
  | .nameTooLong => "File name too long"
  | .other reason => reason

inductive UsageFault
  | ambiguous (argument : List Char)
  | valueMissing
  | depthUnread (given : List Char) (fault : Text.IntegerFault)
  | depthOutOfRange (fault : Depth.OutOfRange)
  | valueIgnored (given : List Char)
  | unrecognized (arguments : List (List Char))
  | fileUnread (name : List Char) (fault : FileFault)
  deriving DecidableEq

namespace UsageFault

def aboutOption (option message : String) : String := "argument " ++ option ++ ": " ++ message

def aboutDepth : String → String := aboutOption "--max-depth"

def quotedText (s : List Char) : String := String.ofList (Text.quoted s)

def message : UsageFault → String
  | .ambiguous argument =>
    "ambiguous option: " ++ String.ofList argument ++ " could match --help, --max-depth"
  | .valueMissing => aboutDepth "expected one argument"
  | .depthUnread given fault => aboutDepth (fault.message given)
  | .depthOutOfRange fault => aboutDepth fault.message
  | .valueIgnored given =>
    aboutOption "-h/--help" ("ignored explicit argument " ++ quotedText given)
  | .unrecognized arguments =>
    "unrecognized arguments: " ++ " ".intercalate (arguments.map String.ofList)
  | .fileUnread name fault => quotedText name ++ " could not be opened: " ++ fault.reason

end UsageFault

def usageLine : String := "usage: deskcalc [-h] [--max-depth MAX_DEPTH] [file]\n"

def UsageFault.text (f : UsageFault) : String :=
  usageLine ++ "deskcalc: error: " ++ f.message ++ "\n"

def helpLines : List String :=
  [ "",
    "Evaluate arithmetic expressions line by line",
    "",
    "positional arguments:",
    "  file                  file to evaluate (if empty, reads stdin)",
    "",
    "options:",
    "  -h, --help            show this help message and exit",
    "  --max-depth MAX_DEPTH",
    "                        maximum nesting of parentheses and unary minus",
    "                        (default: " ++ String.ofList (Text.integerText Depth.default) ++ ")"]

def helpText : String := usageLine ++ String.join (helpLines.map (· ++ "\n"))

end DeskCalculator.CommandLine
