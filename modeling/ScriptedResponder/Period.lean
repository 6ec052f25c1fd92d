/-!
Time. Periods are natural numbers of nanoseconds, and instants are the period since the start of the
clock. The clock shows whole milliseconds only: a wait ends at the first of them that is not before
its deadline.
-/

set_option autoImplicit false

namespace ScriptedResponder

namespace Period

def second : Nat := 1000000000

def millisecond : Nat := 1000000

def ofSeconds (seconds : Nat) : Nat := seconds * second

def ofMilliseconds (milliseconds : Nat) : Nat := milliseconds * millisecond

def seconds (period : Nat) : Nat := period / second

def subsecond (period : Nat) : Nat := period % second

/-- The longest time to live and the longest time between sweeps, in seconds: a hundred years of
365 days. -/
def longestSeconds : Nat := 100 * 365 * 24 * 60 * 60

def longest : Nat := ofSeconds longestSeconds

def shortestSweep : Nat := millisecond

def fits (period : Nat) : Bool := seconds period < UInt64.size

def fractionDigits (nanoseconds : Nat) : List Char :=
  let digits := Nat.toDigits 10 nanoseconds
  let padded := List.replicate (9 - digits.length) '0' ++ digits
  (padded.reverse.dropWhile (· = '0')).reverse

def text (period : Nat) : String :=
  let whole := toString (seconds period)
  if subsecond period = 0 then whole ++ "s"
  else whole ++ "." ++ String.ofList (fractionDigits (subsecond period)) ++ "s"

end Period

namespace Instant

def ceiling (instant : Nat) : Nat :=
  (instant + Period.millisecond - 1) / Period.millisecond * Period.millisecond

def milliseconds (instant : Nat) : Nat := instant / Period.millisecond

/-- The first instant that the clock cannot show. -/
def range : Nat := Period.ofSeconds (UInt64.size / 2)

/-- How long a wait lasts whose end is out of the clock's range: thirty years of 365 days. -/
def farFuture : Nat := Period.ofSeconds (30 * 365 * 24 * 60 * 60)

def deadline (now wait : Nat) : Nat :=
  if now + wait < range then now + wait else now + farFuture

end Instant

end ScriptedResponder
