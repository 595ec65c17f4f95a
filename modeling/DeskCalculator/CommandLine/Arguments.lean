import DeskCalculator.CommandLine.Usage

/-!
Reading the arguments. Each argument is an option or a plain text, which is the name of a file or the value
of the option before it. The long options may be shortened as long as it is clear which is meant; after a
double dash every argument is plain.
-/
set_option autoImplicit false

namespace DeskCalculator.CommandLine

inductive Argument
  | plain (text : List Char)
  | help (ignored? : Option (List Char))
  | depth (value? : Option (List Char))
  | unknown (text : List Char)
  | separator
  deriving DecidableEq

namespace Argument

def helpName : List Char := ['-', '-', 'h', 'e', 'l', 'p']

def depthName : List Char := ['-', '-', 'm', 'a', 'x', '-', 'd', 'e', 'p', 't', 'h']

def doubleDash : List Char := ['-', '-']

def attached? (s : List Char) : Option (List Char) :=
  match s.dropWhile (· ≠ '=') with
  | [] => none
  | _ :: value => some value

/-- A minus sign with digits after it, the last of which may follow a point; a line feed at the end does
not count. -/
def looksNegative : List Char → Bool
  | '-' :: s =>
    let digit := fun c => (Text.decimalDigit? c).isSome
    let whole := s.takeWhile digit
    let ends := fun t : List Char => t = [] || t = ['\n']
    match s.dropWhile digit with
    | '.' :: t => t.takeWhile digit ≠ [] && ends (t.dropWhile digit)
    | t => whole ≠ [] && ends t
  | _ => false

def unlisted (s : List Char) : Argument :=
  if looksNegative s || s.contains ' ' then .plain s else .unknown s

def ofLong (s : List Char) : Except UsageFault Argument :=
  let stem := s.takeWhile (· ≠ '=')
  match stem.isPrefixOf helpName, stem.isPrefixOf depthName with
  | true, true => .error (.ambiguous s)
  | true, false => .ok (.help (attached? s))
  | false, true => .ok (.depth (attached? s))
  | false, false => .ok (unlisted s)

/-- What is attached to the short option for help. It may be repeated, as the letter alone. -/
def helpLetters : List Char → Option (List Char)
  | [] => some []
  | s =>
    match s.dropWhile (· = 'h') with
    | [] => none
    | rest => some rest

def ofText : List Char → Except UsageFault Argument
  | '-' :: '-' :: s => ofLong ('-' :: '-' :: s)
  | ['-', 'h'] => .ok (.help none)
  | '-' :: 'h' :: '=' :: s => .ok (.help (helpLetters s))
  | '-' :: 'h' :: s => .ok (.help (helpLetters s))
  | '-' :: c :: s => .ok (unlisted ('-' :: c :: s))
  | s => .ok (.plain s)

def ofTexts : List (List Char) → Except UsageFault (List Argument)
  | [] => .ok []
  | s :: rest =>
    if s = doubleDash then .ok (.separator :: rest.map .plain)
    else do return (← ofText s) :: (← ofTexts rest)

end Argument

structure Reading where
  file? : Option (List Char) := none
  justNamed : Bool := false
  /-- The depth that was asked for last, which there is not if the value was dropped. -/
  depth? : Option Nat := some Depth.default
  unrecognized : List (List Char) := []

namespace Reading

def plain (r : Reading) (s : List Char) : Reading :=
  match r.file? with
  | none => { r with file? := some s, justNamed := true }
  | some _ => { r with justNamed := false, unrecognized := r.unrecognized ++ [s] }

def unknown (r : Reading) (s : List Char) : Reading :=
  { r with justNamed := false, unrecognized := r.unrecognized ++ [s] }

def separator (r : Reading) : Reading :=
  if r.file?.isNone || r.justNamed then r else r.unknown Argument.doubleDash

/-- The value of the option for the depth. A double dash is dropped, as it is beside the name of the file,
and leaves the option without a value. -/
def depthOf? (calls : Nat) (value : List Char) : Except UsageFault (Option Nat) :=
  if value = Argument.doubleDash then .ok none
  else match Text.readInteger value with
    | .error e => .error (.depthUnread value e)
    | .ok n =>
      match Depth.check calls n with
      | .error e => .error (.depthOutOfRange e)
      | .ok depth => .ok (some depth)

def withDepth (calls : Nat) (r : Reading) (value : List Char) : Except UsageFault Reading := do
  return { r with depth? := ← depthOf? calls value, justNamed := false }

def request (r : Reading) : Except UsageFault Request :=
  if r.unrecognized.isEmpty then .ok (.calculation r.file? r.depth?)
  else .error (.unrecognized r.unrecognized)

def readFrom (calls : Nat) (r : Reading) : List Argument → Except UsageFault Request
  | [] => r.request
  | .plain s :: rest => readFrom calls (r.plain s) rest
  | .unknown s :: rest => readFrom calls (r.unknown s) rest
  | .separator :: rest => readFrom calls r.separator rest
  | .help none :: _ => .ok .help
  | .help (some s) :: _ => .error (.valueIgnored s)
  | .depth (some value) :: rest => do readFrom calls (← r.withDepth calls value) rest
  | .depth none :: .plain value :: rest => do readFrom calls (← r.withDepth calls value) rest
  | .depth none :: _ => .error .valueMissing

end Reading

/-- Reads the arguments, where so many calls may be pending. An option that is not clear is a fault
before anything else is. -/
def readArguments (calls : Nat) (arguments : List (List Char)) : Except UsageFault Request := do
  Reading.readFrom calls {} (← Argument.ofTexts arguments)

end DeskCalculator.CommandLine
