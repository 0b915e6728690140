/-!
# Errors with their context

A `Cause` is an error text together with the texts of what brought it about, outermost first.
`Fault` lists the checks the program makes on itself; a fault ends whatever it happens in.
-/

namespace PingWatch

/-- An error text and the texts of its causes, outermost first. -/
structure Cause where
  text : String
  below : List String
deriving DecidableEq, Inhabited

namespace Cause

def ofText (text : String) : Cause := ⟨text, []⟩

/-- The error `c` seen from a wider context. -/
def under (context : String) (c : Cause) : Cause := ⟨context, c.text :: c.below⟩

def texts (c : Cause) : List String := c.text :: c.below

/-- All texts of the error on one line. -/
def full (c : Cause) : String := ": ".intercalate c.texts

@[simp] theorem texts_under (context : String) (c : Cause) :
    (c.under context).texts = context :: c.texts := rfl

end Cause

/-- The most permits that a pool may hand out. -/
def mostPermits : Nat := 0x1FFFFFFFFFFFFFFF

/-- A check of the program on itself that failed. -/
inductive Fault
  /-- Two lengths of time added up past the largest one. -/
  | durationSum
  /-- A list of lengths of time added up past the largest one. -/
  | durationTotal
  /-- A length of time was divided by zero. -/
  | durationShare
  /-- A point in time lies past the end of the clock. -/
  | clock
  /-- A pool was asked for with more permits than a pool may hold. -/
  | permits
  /-- The task limit was changed while tasks were running. -/
  | limitInUse (running : Nat)
deriving DecidableEq

def Fault.message : Fault → String
  | durationSum => "overflow when adding durations"
  | durationTotal => "overflow in iter::sum over durations"
  | durationShare => "divide by zero error when dividing duration by scalar"
  | clock => "overflow when adding duration to instant"
  | permits => s!"a semaphore may not have more than MAX_PERMITS permits ({mostPermits})"
  | limitInUse running => s!"server: modify limit while {running} tasks run"

end PingWatch
