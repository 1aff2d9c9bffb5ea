/-!
How a process ended, read off the status word that the system gives for it. A word whose low seven
bits are zero says that the process exited, with its code in the next eight bits; all of them set
say that it has not ended; all else is the number of the signal that ended it.
-/

namespace LogWatch

structure ExitStatus where
  code : Option Nat
  signal : Option Nat
deriving DecidableEq, Repr

namespace ExitStatus

def exited (code : Nat) : ExitStatus := ⟨some (code % 256), none⟩

def killed (signal : Nat) : ExitStatus := ⟨none, some signal⟩

def ofWord (word : Int) : ExitStatus :=
  let word := (word % 0x100000000).toNat
  match word % 128 with
  | 0 => exited (word / 256)
  | 127 => ⟨none, none⟩
  | signal => killed signal

def success (s : ExitStatus) : Bool := s.code == some 0
def bySignal (s : ExitStatus) : Bool := s.signal.isSome

end ExitStatus

end LogWatch
