import PingWatch.Cause
import PingWatch.Files
import PingWatch.Text.Pieces
import PingWatch.Text.Quoted

/-!
# Targets

A `Target` is an address or host name to probe.  A `TargetLoader` rebuilds the list for each cycle:
it puts the lists of its sources one behind the other and then drops what some filter matches.  Main
statement: a line end between two texts separates the targets written in them.
-/

namespace PingWatch

open Text

/-- An address or host name to probe. -/
structure Target where
  address : String
deriving DecidableEq, Inhabited

namespace Target

/-- The target with its type, quoted. -/
def quoted (t : Target) : String := s!"Target({quote t.address})"

/-- The targets written in a text: one per line, and commas also separate them. -/
def parseList (content : String) : List Target :=
  ((pieces (· = '\n') content.toList).flatMap (entries (· = ','))).map fun cs => ⟨.ofList cs⟩

end Target

/-- Picks the targets to be dropped. -/
abbrev TargetFilter := Target → Bool

namespace TargetFilter

/-- Drops every one of `addresses`; blank ones do not count, and without any there is no filter. -/
def excludeAny (addresses : List String) : Option TargetFilter :=
  match (addresses.map trimmed).filter (· ≠ "") with
  | [] => none
  | kept => some fun t => kept.contains t.address

/-- Drops `address`; a blank one yields no filter. -/
def exclude (address : String) : Option TargetFilter :=
  if trimmed address = "" then none else some fun t => t.address = trimmed address

end TargetFilter

/-- Where targets come from. -/
inductive TargetSource
  | file (path : String)
  | fixed (targets : List Target)
  /-- A list worked out elsewhere, or the reason why there is none. -/
  | given (result : Except Cause (List Target))

def TargetSource.load (files : Files) : TargetSource → Except Cause (List Target)
  | .file path =>
    match files.read path with
    | .ok content => .ok (Target.parseList content)
    | .error e =>
      .error ((Cause.ofText e.message).under s!"Failed to read targets from {path}")
  | .fixed targets => .ok targets
  | .given result => result

/-- Sources and filters of a target list. -/
structure TargetLoader where
  sources : List TargetSource := []
  filters : List TargetFilter := []

namespace TargetLoader

def addSource (source : TargetSource) (l : TargetLoader) : TargetLoader :=
  { l with sources := l.sources ++ [source] }

def addFilter (filter : Option TargetFilter) (l : TargetLoader) : TargetLoader :=
  { l with filters := l.filters ++ filter.toList }

/-- The lists of all sources one behind the other; the first source that fails decides. -/
def loadAll (files : Files) : List TargetSource → Except Cause (List Target)
  | [] => .ok []
  | s :: rest => do
    let first ← s.load files
    return first ++ (← loadAll files rest)

/-- The targets of the next cycle. -/
def load (files : Files) (l : TargetLoader) : Except Cause (List Target) :=
  (loadAll files l.sources).map (·.filter fun t => !l.filters.any (· t))

end TargetLoader

/-! ### Lemmas -/

/-- A line end between two texts separates their targets. -/
theorem Target.parseList_append_newline (a b : String) :
    parseList (a ++ "\n" ++ b) = parseList a ++ parseList b := by
  have h : (a ++ "\n" ++ b).toList = a.toList ++ '\n' :: b.toList := by simp
  rw [parseList, h, pieces_append_sep (by decide)]
  simp [parseList]

end PingWatch
