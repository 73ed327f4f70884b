import Vigil.Text.Number
/-! The signals that processes are sent. -/
namespace Vigil.Script

structure Signal where
  name : String
  number : Nat
deriving DecidableEq, Repr

namespace Signal

/-- What scripts call the end of a process. -/
def exit : Signal := ⟨"EXIT", 0⟩

def terminate : Signal := ⟨"TERM", 15⟩

def all : List Signal :=
  [exit, ⟨"HUP", 1⟩, ⟨"INT", 2⟩, ⟨"QUIT", 3⟩, ⟨"ILL", 4⟩, ⟨"TRAP", 5⟩, ⟨"ABRT", 6⟩, ⟨"BUS", 7⟩,
    ⟨"FPE", 8⟩, ⟨"KILL", 9⟩, ⟨"USR1", 10⟩, ⟨"SEGV", 11⟩, ⟨"USR2", 12⟩, ⟨"PIPE", 13⟩, ⟨"ALRM", 14⟩,
    terminate, ⟨"STKFLT", 16⟩, ⟨"CHLD", 17⟩, ⟨"CONT", 18⟩, ⟨"STOP", 19⟩, ⟨"TSTP", 20⟩, ⟨"TTIN", 21⟩,
    ⟨"TTOU", 22⟩, ⟨"URG", 23⟩, ⟨"XCPU", 24⟩, ⟨"XFSZ", 25⟩, ⟨"VTALRM", 26⟩, ⟨"PROF", 27⟩,
    ⟨"WINCH", 28⟩, ⟨"POLL", 29⟩, ⟨"PWR", 30⟩, ⟨"SYS", 31⟩]

/-- A signal by its number or its name, in letters of either case. -/
def ofText? (s : String) : Option Signal :=
  match Text.digits? 10 s.toList with
  | some n => all.find? (·.number == n)
  | none => all.find? (·.name == s.map Char.toUpper)

/-- Whether a process that does nothing about it goes on. -/
def isHarmless (s : Signal) : Bool :=
  [0, 17, 18, 23, 28].contains s.number

/-- Whether a process can do nothing about it. -/
def isFinal (s : Signal) : Bool := s.number == 9

/-- How a process ends by it. -/
def status (s : Signal) : Nat := 128 + s.number

end Signal

end Vigil.Script
