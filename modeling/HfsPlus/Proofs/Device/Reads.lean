import HfsPlus.Device.Basic
import HfsPlus.Proofs.Run

/-!
# What an operation does to the device

An operation on a volume is put together from four things. It looks at what it
has at hand, it gives a notice, it borrows a block, and it does one of these
after another. `Run.Reads` says that of a run, and of the blocks it borrows that
each is one of those it is meant to borrow. There is no other way to a block, so
what holds of the four holds of every operation.

Three facts are read off here, each by one induction. The requests of such a run
are all for the blocks that it is meant to borrow. Each block it is handed it
hands back before it asks for the next (`HandsBack`). And a request that fails
is its last, and decides how it ends (`StopsAtFailure`).
-/

namespace HfsPlus

namespace Device

/-- What is wrong with the answer to a request for this block, if anything is. -/
def failure? (dev : Device) (block : Nat) : Option Error :=
  match dev.fetch dev.blockSize block with
  | .error fault => some (.device fault)
  | .ok data =>
    if data.length < dev.blockSize.toNat then
      some (.shortRead dev.blockSize.toNat data.length)
    else
      none

theorem length_of_block {dev : Device} {number : Nat} {data : Bytes}
    (h : (dev.block number).result = .ok data) : dev.blockSize.toNat ≤ data.length := by
  rw [block, withBlock] at h
  cases hfetch : dev.fetch dev.blockSize number with
  | error fault => simp [hfetch] at h
  | ok found =>
    simp only [hfetch] at h
    split at h
    · cases h
    · next hlong =>
      cases h
      exact Nat.not_lt.mp hlong

/-- The device has no other way to fail than these two. -/
theorem error_of_block {dev : Device} {number : Nat} {e : Error}
    (h : (dev.block number).result = .error e) :
    (∃ fault, e = .device fault) ∨
      ∃ available, e = .shortRead dev.blockSize.toNat available := by
  rw [block, withBlock] at h
  cases hfetch : dev.fetch dev.blockSize number with
  | error fault =>
    simp only [hfetch, Except.error.injEq] at h
    exact .inl ⟨fault, h.symm⟩
  | ok found =>
    simp only [hfetch] at h
    split at h
    · simp only [Except.error.injEq] at h
      exact .inr ⟨found.length, h.symm⟩
    · cases h

theorem withBlock_ok {α : Type} (dev : Device) (number : Nat) (f : Bytes → α) :
    dev.withBlock number (fun data => .ok (f data)) = f <$> dev.block number := by
  rw [block, withBlock, withBlock]
  cases dev.fetch dev.blockSize number with
  | error fault => rfl
  | ok data =>
    ext1
    · rfl
    · show (if _ then _ else _) = Except.map f (if _ then _ else _)
      split <;> rfl

end Device

namespace Event

/-- The block that was handed out, if this is such an event. -/
def fetched? : Event → Option Nat
  | .fetched block _ => some block
  | _ => none

/-- The block that was handed back, if this is such an event. -/
def released? : Event → Option Nat
  | .released block => some block
  | _ => none

end Event

namespace Run

variable {α β : Type} {dev : Device} {P : Nat → Prop} {r : Run α} {next : α → Run β}

/-- A run that has to do with the device only by borrowing blocks with `P`. -/
inductive Reads (dev : Device) (P : Nat → Prop) : {α : Type} → Run α → Prop where
  | ofExcept {α : Type} (x : Except Error α) : Reads dev P (Run.ofExcept x)
  | note (n : Notice) : Reads dev P (Run.note n)
  | withBlock {α : Type} {block : Nat} (h : P block) (use : Bytes → Except Error α) :
      Reads dev P (dev.withBlock block use)
  | bind {α β : Type} {r : Run α} {next : α → Run β} (h : Reads dev P r)
      (hnext : ∀ a, r.result = .ok a → Reads dev P (next a)) : Reads dev P (r >>= next)

theorem Reads.pure (a : α) : Reads dev P (Pure.pure a : Run α) := .ofExcept (.ok a)

theorem Reads.fail (e : Error) : Reads dev P (Run.fail e : Run α) := .ofExcept (.error e)

theorem Reads.liftM (x : Except Error α) : Reads dev P (liftM x : Run α) := .ofExcept x

theorem Reads.map (f : α → β) (h : Reads dev P r) : Reads dev P (f <$> r) := by
  rw [← bind_pure_comp f r]
  exact h.bind fun a _ => .pure (f a)

/-! ## The events of a sequence -/

theorem events_bind_of_ok {a : α} (h : r.result = .ok a) (next : α → Run β) :
    (r >>= next).events = r.events ++ (next a).events := by
  rw [bind_of_ok h]

theorem events_bind_of_error {e : Error} (h : r.result = .error e) (next : α → Run β) :
    (r >>= next).events = r.events := by
  rw [bind_of_error h]

/-- What comes behind a run matters for the values that the run can give. -/
theorem bind_congr_of_ok {next' : α → Run β}
    (h : ∀ a, r.result = .ok a → next' a = next a) : r >>= next' = r >>= next := by
  cases hr : r.result with
  | error e => rw [bind_of_error hr, bind_of_error hr]
  | ok a => rw [bind_of_ok hr, bind_of_ok hr, h a hr]

theorem requests_bind_of_ok {a : α} (h : r.result = .ok a) (next : α → Run β) :
    (r >>= next).requests = r.requests ++ (next a).requests := by
  simp [requests, events_bind_of_ok h]

theorem requests_bind_of_error {e : Error} (h : r.result = .error e) (next : α → Run β) :
    (r >>= next).requests = r.requests := by
  simp [requests, events_bind_of_error h]

theorem requests_bind_of_quiet (h : ∀ a, (next a).requests = []) :
    (r >>= next).requests = r.requests := by
  cases hr : r.result with
  | error e => exact requests_bind_of_error hr next
  | ok a => rw [requests_bind_of_ok hr, h, List.append_nil]

@[simp] theorem requests_ofExcept (x : Except Error α) : (ofExcept x).requests = [] := rfl

@[simp] theorem requests_map (f : α → β) (r : Run α) : (f <$> r).requests = r.requests := rfl

@[simp] theorem requests_note (n : Notice) : (note n).requests = [] := rfl

@[simp] theorem requests_withBlock (dev : Device) (block : Nat)
    (use : Bytes → Except Error α) : (dev.withBlock block use).requests = [block] := by
  rw [requests, Device.withBlock]
  cases dev.fetch dev.blockSize block <;> rfl

/-! ## Only the blocks that are meant -/

theorem Reads.of_mem_requests (h : Reads dev P r) : ∀ block ∈ r.requests, P block := by
  induction h with
  | ofExcept x => simp
  | note n => simp
  | withBlock h use => simpa using h
  | @bind α β r next _ _ ih ihnext =>
    intro block hmem
    cases hr : r.result with
    | error e =>
      rw [requests_bind_of_error hr] at hmem
      exact ih block hmem
    | ok a =>
      rw [requests_bind_of_ok hr, List.mem_append] at hmem
      rcases hmem with hmem | hmem
      · exact ih block hmem
      · exact ihnext a hr block hmem

/-! ## Each block is handed back -/

/-- The blocks that were handed out, in order. -/
def fetched (r : Run α) : List Nat := r.events.filterMap Event.fetched?

/-- The blocks that were handed back, in order. -/
def released (r : Run α) : List Nat := r.events.filterMap Event.released?

theorem releaseCount_eq_length (r : Run α) : r.releaseCount = r.released.length := by
  rw [released, releaseCount, List.length_filterMap_eq_countP]
  congr 1
  funext event
  cases event <;> rfl

/-- What is borrowed is returned, one block at a time. -/
structure HandsBack (r : Run α) : Prop where
  releaseCount_eq : r.releaseCount = r.fetched.length
  -- None is kept, and none goes back twice or without having been handed out.
  released_eq : r.released = r.fetched
  -- At any moment the blocks handed out are those handed back and at most one more.
  inHand : ∀ before after, r.events = before ++ after → ∃ block? : Option Nat,
    before.filterMap Event.fetched? =
      before.filterMap Event.released? ++ block?.toList

theorem HandsBack.intro (h : r.released = r.fetched)
    (inHand : ∀ before after, r.events = before ++ after → ∃ block? : Option Nat,
      before.filterMap Event.fetched? =
        before.filterMap Event.released? ++ block?.toList) : HandsBack r :=
  ⟨by rw [releaseCount_eq_length, h], h, inHand⟩

theorem HandsBack.of_quiet (h : ∀ event ∈ r.events,
    event.fetched? = none ∧ event.released? = none) : HandsBack r := by
  have hnone : ∀ events ⊆ r.events, events.filterMap Event.fetched? = [] ∧
      events.filterMap Event.released? = [] := by
    intro events hsub
    simp only [List.filterMap_eq_nil_iff]
    exact ⟨fun event hmem => (h event (hsub hmem)).1, fun event hmem => (h event (hsub hmem)).2⟩
  obtain ⟨hfetched, hreleased⟩ := hnone r.events (List.Subset.refl _)
  refine .intro (hreleased.trans hfetched.symm) fun before after hsplit => ⟨none, ?_⟩
  obtain ⟨hbefore, hback⟩ := hnone before (by simp [hsplit])
  rw [hbefore, hback]
  rfl

theorem HandsBack.withBlock (dev : Device) (block : Nat) (use : Bytes → Except Error α) :
    HandsBack (dev.withBlock block use) := by
  rw [Device.withBlock]
  cases dev.fetch dev.blockSize block with
  | error fault => exact .of_quiet (by simp [Event.fetched?, Event.released?])
  | ok data =>
    refine .intro rfl fun before after hsplit => ?_
    -- Before the block is handed out, while it is in hand, and behind its return.
    rcases before with _ | ⟨_, _ | ⟨_, rest⟩⟩
    · exact ⟨none, rfl⟩
    · simp only [List.cons_append, List.cons.injEq] at hsplit
      exact ⟨some block, by simp [← hsplit.1, Event.fetched?, Event.released?]⟩
    · simp only [List.cons_append, List.cons.injEq, List.nil_eq, List.append_eq_nil_iff] at hsplit
      obtain ⟨rfl, rfl, rfl, -⟩ := hsplit
      exact ⟨none, rfl⟩

theorem HandsBack.bind (h : HandsBack r)
    (hnext : ∀ a, r.result = .ok a → HandsBack (next a)) : HandsBack (r >>= next) := by
  cases hr : r.result with
  | error e =>
    have hevents := events_bind_of_error hr next
    refine .intro ?_ ?_
    · rw [released, fetched, hevents]
      exact h.released_eq
    · rw [hevents]
      exact h.inHand
  | ok a =>
    have hrest := hnext a hr
    have hback := h.released_eq
    rw [released, fetched] at hback
    refine .intro ?_ fun before after hsplit => ?_
    · rw [released, fetched, events_bind_of_ok hr, List.filterMap_append,
        List.filterMap_append, hback]
      exact congrArg _ hrest.released_eq
    · rw [events_bind_of_ok hr, List.append_eq_append_iff] at hsplit
      rcases hsplit with ⟨more, rfl, hsplit⟩ | ⟨left, hsplit, -⟩
      · obtain ⟨block?, hblock⟩ := hrest.inHand more after hsplit
        refine ⟨block?, ?_⟩
        rw [List.filterMap_append, List.filterMap_append, hback, hblock, List.append_assoc]
      · exact h.inHand before left hsplit

theorem Reads.handsBack (h : Reads dev P r) : HandsBack r := by
  induction h with
  | ofExcept x => exact .of_quiet nofun
  | note n => exact .of_quiet (by simp [Run.note, Run.act, Event.fetched?, Event.released?])
  | withBlock _ use => exact .withBlock _ _ use
  | bind _ _ ih ihnext => exact ih.bind ihnext

/-! ## A failure is the end -/

/-- A request that fails is the last one, and its error is how the run ends. -/
def StopsAtFailure (dev : Device) (r : Run α) : Prop :=
  ∀ before block after e, r.requests = before ++ block :: after →
    dev.failure? block = some e → after = [] ∧ r.result = .error e

theorem StopsAtFailure.of_requests_eq_nil (h : r.requests = []) : StopsAtFailure dev r := by
  intro before block after e hsplit
  simp [h] at hsplit

theorem result_withBlock_of_failure {block : Nat} {e : Error}
    (h : dev.failure? block = some e) (use : Bytes → Except Error α) :
    (dev.withBlock block use).result = .error e := by
  rw [Device.failure?] at h
  rw [Device.withBlock]
  cases hfetch : dev.fetch dev.blockSize block with
  | error fault =>
    simp only [hfetch, Option.some.injEq] at h
    simp [h]
  | ok data =>
    simp only [hfetch] at h
    split at h
    · next hshort =>
      simp only [Option.some.injEq] at h
      simp [hshort, h]
    · cases h

theorem StopsAtFailure.withBlock (dev : Device) (block : Nat)
    (use : Bytes → Except Error α) : StopsAtFailure dev (dev.withBlock block use) := by
  intro before requested after e hsplit he
  simp only [requests_withBlock, List.singleton_eq_append_iff, List.cons.injEq] at hsplit
  rcases hsplit with ⟨-, rfl, rfl⟩ | ⟨-, hnil⟩
  · exact ⟨rfl, result_withBlock_of_failure he use⟩
  · cases hnil

theorem StopsAtFailure.bind (h : StopsAtFailure dev r)
    (hnext : ∀ a, r.result = .ok a → StopsAtFailure dev (next a)) :
    StopsAtFailure dev (r >>= next) := by
  intro before block after e hsplit he
  cases hr : r.result with
  | error _ =>
    rw [requests_bind_of_error hr] at hsplit
    obtain ⟨hlast, hresult⟩ := h before block after e hsplit he
    exact ⟨hlast, result_bind_of_error hresult next⟩
  | ok a =>
    rw [requests_bind_of_ok hr, List.append_eq_append_iff] at hsplit
    rw [result_bind_of_ok hr]
    rcases hsplit with ⟨more, -, hsplit⟩ | ⟨left, hsplit, hleft⟩
    · exact hnext a hr more block after e hsplit he
    · rcases left with _ | ⟨first, left⟩
      · exact hnext a hr [] block after e hleft.symm he
      · -- The first run went on behind the failure, and it cannot.
        cases hleft
        obtain ⟨-, hresult⟩ := h before block left e hsplit he
        rw [hr] at hresult
        cases hresult

theorem Reads.stopsAtFailure (h : Reads dev P r) : StopsAtFailure dev r := by
  induction h with
  | ofExcept x => exact .of_requests_eq_nil rfl
  | note n => exact .of_requests_eq_nil rfl
  | withBlock _ use => exact .withBlock _ _ use
  | bind _ _ ih ihnext => exact ih.bind ihnext

end Run

end HfsPlus
