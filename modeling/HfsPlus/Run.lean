import HfsPlus.Notice

/-!
# Runs

Reading a volume has effects that a caller can see besides the result: blocks are taken from the
device and handed back, notices are given, output is written. A `Run` holds them as a list of
events in the order in which they happened, beside the result. The first error ends a run, and the
events up to it are kept.

With the events at hand it can be stated, and proved, that each block is handed back, that nothing
is read after a failure, or that two runs read the same blocks.
-/

namespace HfsPlus

/-- Something that a run did. -/
inductive Event where
  /-- The device handed out a block of this many bytes. -/
  | fetched (block : Nat) (length : Nat)
  /-- The device was asked for a block and did not hand it out. -/
  | refused (block : Nat) (fault : Fault)
  /-- A block was handed back to the device. -/
  | released (block : Nat)
  /-- A notice was given. -/
  | noted (notice : Notice)
  /-- Output was written. -/
  | wrote (output : Bytes)
deriving DecidableEq, Repr

namespace Event

/-- The block that was asked for, if the event is such a request. -/
def requested? : Event → Option Nat
  | .fetched block _ | .refused block _ => some block
  | _ => none

/-- Whether a block was handed back. -/
def isRelease : Event → Bool
  | .released _ => true
  | _ => false

/-- The notice that was given, if the event is one. -/
def notice? : Event → Option Notice
  | .noted notice => some notice
  | _ => none

/-- The output that was written, empty for any other event. -/
def output : Event → Bytes
  | .wrote output => output
  | _ => []

end Event

/-- A computation that was carried out: what it did, and how it ended. -/
@[ext] structure Run (α : Type) where
  /-- What was done, in order. -/
  events : List Event
  /-- How the run ended. -/
  result : Except Error α

namespace Run

variable {α β : Type}

/-- One run and then another, which is not begun if the first ends in an error. -/
def bind (r : Run α) (next : α → Run β) : Run β :=
  match r.result with
  | .ok a =>
    let rest := next a
    { events := r.events ++ rest.events, result := rest.result }
  | .error e => { events := r.events, result := .error e }

/-- The same run with another value. -/
def map (f : α → β) (r : Run α) : Run β := { events := r.events, result := r.result.map f }

instance : Monad Run where
  pure a := { events := [], result := .ok a }
  map := map
  bind := bind

/-- A computation without effects as a run without events. -/
def ofExcept (result : Except Error α) : Run α := { events := [], result }

instance : MonadLift (Except Error) Run where
  monadLift := ofExcept

/-- Ends the run. -/
def fail (e : Error) : Run α := ofExcept (.error e)

/-- Does one thing. -/
def act (event : Event) : Run Unit := { events := [event], result := .ok () }

/-- Gives a notice. -/
def note (notice : Notice) : Run Unit := act (.noted notice)

/-- Writes output. -/
def write (output : Bytes) : Run Unit := act (.wrote output)

theorem bind_of_ok {r : Run α} {a : α} (h : r.result = .ok a) (next : α → Run β) :
    r >>= next = { events := r.events ++ (next a).events, result := (next a).result } := by
  show bind r next = _
  simp only [bind, h]

theorem bind_of_error {r : Run α} {e : Error} (h : r.result = .error e) (next : α → Run β) :
    r >>= next = { events := r.events, result := .error e } := by
  show bind r next = _
  simp only [bind, h]

@[simp] theorem events_pure (a : α) : (pure a : Run α).events = [] := rfl

@[simp] theorem result_pure (a : α) : (pure a : Run α).result = .ok a := rfl

@[simp] theorem events_map (f : α → β) (r : Run α) : (f <$> r).events = r.events := rfl

@[simp] theorem result_map (f : α → β) (r : Run α) : (f <$> r).result = r.result.map f := rfl

theorem id_map (r : Run α) : id <$> r = r := by
  cases h : r.result <;> ext1 <;> simp [h, Except.map]

theorem bind_assoc {γ : Type} (r : Run α) (f : α → Run β) (g : β → Run γ) :
    r >>= f >>= g = r >>= fun a => f a >>= g := by
  cases hr : r.result with
  | error e =>
    rw [bind_of_error hr, bind_of_error hr]
    exact bind_of_error rfl g
  | ok a =>
    rw [bind_of_ok hr, bind_of_ok hr]
    cases hf : (f a).result with
    | error e =>
      rw [bind_of_error hf]
      exact bind_of_error rfl g
    | ok b =>
      rw [bind_of_ok hf, bind_of_ok (a := b) rfl]
      simp [List.append_assoc]

theorem bind_pure_comp (f : α → β) (r : Run α) : r >>= (fun a => pure (f a)) = f <$> r := by
  cases h : r.result with
  | error e =>
    rw [bind_of_error h]
    ext1 <;> simp [h, Except.map]
  | ok a =>
    rw [bind_of_ok h]
    ext1 <;> simp [h, Except.map]

instance : LawfulMonad Run :=
  LawfulMonad.mk' Run id_map (fun a next => bind_of_ok (result_pure a) next) bind_assoc
    (fun _ _ => rfl) (fun _ _ => rfl) (fun _ _ => rfl) bind_pure_comp (fun _ _ => rfl)

/-- The same run, with its error, if it has one, for a value. -/
def attempt (r : Run α) : Run (Except Error α) := { events := r.events, result := .ok r.result }

/-- The blocks that were asked for, in order, whether the device handed them out or not. -/
def requests (r : Run α) : List Nat := r.events.filterMap Event.requested?

/-- The number of blocks that were handed back. -/
def releaseCount (r : Run α) : Nat := r.events.countP Event.isRelease

/-- The notices that were given, in order. -/
def notices (r : Run α) : List Notice := r.events.filterMap Event.notice?

/-- All that was written. -/
def output (r : Run α) : Bytes := r.events.flatMap Event.output

end Run

end HfsPlus
