import DeskCalculator.Lexer.Lemmas
import DeskCalculator.Token.Source

set_option autoImplicit false

namespace DeskCalculator

/-- A text that tokens are read from, and the token that was read last. No token has been read at
first, and the end stands for it. -/
structure TokenStream where
  reader : Reader
  current : Token := .finish
  deriving DecidableEq

namespace TokenStream

def ofText (text : List Char) : TokenStream := { reader := .ofText text }

def next (s : TokenStream) : Token × TokenStream :=
  let step := Lexer.scan s.reader
  (step.1, { s with reader := step.2 })

def advance (s : TokenStream) : TokenStream :=
  let step := Lexer.scan s.reader
  { reader := step.2, current := step.1 }

def taken (s : TokenStream) : Nat := s.reader.taken

instance : TokenSource TokenStream where
  current := current
  advance := advance
  rest s := s.reader.pending.length
  rest_advance_le s := Lexer.pending_length_scan_le s.reader
  rest_advance_lt _ h := Lexer.pending_length_scan_lt h

end TokenStream

def Lexer.tokens (r : Reader) : List Token :=
  if _h : (scan r).1 = .finish then []
  else (scan r).1 :: tokens (scan r).2
termination_by r.pending.length
decreasing_by exact pending_length_scan_lt _h

def tokenize (text : List Char) : List Token := Lexer.tokens (.ofText text)

/-- Reads the tokens of a text as far as the end. Each mistake is reported when its token is read. -/
def Lexer.tokensNoting (r : Reader) (log : ErrorLog) : List Token × ErrorLog :=
  if _h : (scan r).1 = .finish then ([], log)
  else
    let others := tokensNoting (scan r).2 (log.note (scan r).1)
    ((scan r).1 :: others.1, others.2)
termination_by r.pending.length
decreasing_by exact pending_length_scan_lt _h

def tokenizeNoting (text : List Char) (log : ErrorLog) : List Token × ErrorLog :=
  Lexer.tokensNoting (.ofText text) log

end DeskCalculator
