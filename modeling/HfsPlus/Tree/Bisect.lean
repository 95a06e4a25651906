/-!
# Bisection

A search in a node knows its records by probing alone: the order of record `i` to the key that is
looked for. Where records stand in ascending order, bisection finds the one that is equal, or the
gap where it would stand, with few probes. Where they do not, it still ends and probes nothing out
of range, which is all that a damaged node can be given.
-/

namespace HfsPlus

/-- Where a search among ordered records ends. -/
inductive Position where
  /-- At a record that is equal. -/
  | found (index : Nat)
  /-- In the gap behind this many smaller records. -/
  | gap (smaller : Nat)
deriving DecidableEq, Repr

variable {ε : Type}

/-- Searches the records from `lo` up to, and without, `hi`. -/
def bisect (probe : Nat → Except ε Ordering) (lo hi : Nat) : Except ε Position :=
  if lo < hi then
    let mid := (lo + hi - 1) / 2
    match probe mid with
    | .ok .lt => bisect probe (mid + 1) hi
    | .ok .gt => bisect probe lo mid
    | .ok .eq => .ok (.found mid)
    | .error e => .error e
  else
    .ok (.gap lo)
termination_by hi - lo

end HfsPlus
