import DeskCalculator.Report

set_option autoImplicit false

namespace DeskCalculator

structure ErrorLog where
  reports : Array Report := #[]
  deriving DecidableEq

namespace ErrorLog

def add (l : ErrorLog) (r : Report) : ErrorLog := { reports := l.reports.push r }

def count (l : ErrorLog) : Nat := l.reports.size

def last? (l : ErrorLog) : Option Report := l.reports.back?

/-- What is written to the error stream after the first `k` reports. -/
def textFrom (l : ErrorLog) (k : Nat) : String :=
  String.join ((l.reports.toList.drop k).map fun r => r.line ++ "\n")

def text (l : ErrorLog) : String := l.textFrom 0

@[simp] theorem toList_add (l : ErrorLog) (r : Report) :
    (l.add r).reports.toList = l.reports.toList ++ [r] := by
  simp [add]

end ErrorLog

end DeskCalculator
