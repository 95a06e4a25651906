import HfsPlus.Proofs.Device.Reads

/-!
# Checked programs

A definition here counts in numbers that have no largest, takes from the front of
a string as much as there is, and goes down to zero at most. A program counts in
words, and cuts its strings at places that it has worked out. `Checked` is for the
second kind: each sum, difference, product and quotient is made in a word of
stated size, each byte and each slice is looked for in its string, each loop has
a number of rounds, and what does not go well is a `Trap`.

A program that goes well at each step is the run that it would be without the
checks. So that there is no trap is said by an equation, between the program and
the run, lifted (`liftM`). The rules below bring such equations from the parts to
the whole.
-/

namespace HfsPlus

/-- Where a checked program does not go on. -/
inductive Trap where
  /-- A number does not fit its word. -/
  | overflow
  /-- A number is divided by zero. -/
  | divisionByZero
  /-- A string has no such byte, or no such slice. -/
  | outOfRange
  /-- A loop has had its last round. -/
  | endless
deriving DecidableEq, Repr

/-- A run with its steps checked. -/
abbrev Checked := ExceptT Trap Run

namespace Checked

/-! ## Words

A word is given by the number of its values. -/

/-- A number in a word. -/
def fit (size n : Nat) : Except Trap Nat :=
  if n < size then .ok n else .error .overflow

/-- The sum, in a word with `size` values. -/
def add (size a b : Nat) : Except Trap Nat := fit size (a + b)

/-- The product, in a word with `size` values. -/
def mul (size a b : Nat) : Except Trap Nat := fit size (a * b)

/-- The difference. A word holds nothing below zero. -/
def sub (a b : Nat) : Except Trap Nat :=
  if b ≤ a then .ok (a - b) else .error .overflow

/-- The quotient, rounded down. -/
def div (a b : Nat) : Except Trap Nat :=
  if b = 0 then .error .divisionByZero else .ok (a / b)

/-- The rest that a division leaves. -/
def rem (a b : Nat) : Except Trap Nat :=
  if b = 0 then .error .divisionByZero else .ok (a % b)

/-- A number in a signed word of 32 bits. -/
def signed (n : Int) : Except Trap Int :=
  if -2147483648 ≤ n ∧ n < 2147483648 then .ok n else .error .overflow

/-- The last bits of a number, in a word of 16. -/
def truncate (n : Int) : Nat := (n % 65536).toNat

theorem ok_bind {α β : Type} (a : α) (f : α → Except Trap β) : Except.ok a >>= f = f a := rfl

section Words

variable {size a b : Nat}

theorem fit_eq_ok (h : a < size) : fit size a = .ok a := if_pos h

theorem add_eq_ok (h : a + b < size) : add size a b = .ok (a + b) := fit_eq_ok h

theorem mul_eq_ok (h : a * b < size) : mul size a b = .ok (a * b) := fit_eq_ok h

theorem mul_lt_size (ha : a < UInt32.size) (hb : b < UInt32.size) : a * b < UInt64.size := by
  refine Nat.lt_of_le_of_lt (Nat.mul_le_mul (Nat.le_of_lt_succ ha) (Nat.le_of_lt_succ hb)) ?_
  decide

theorem sub_eq_ok (h : b ≤ a) : sub a b = .ok (a - b) := if_pos h

theorem div_eq_ok (h : 0 < b) : div a b = .ok (a / b) := if_neg (Nat.ne_of_gt h)

theorem rem_eq_ok (h : 0 < b) : rem a b = .ok (a % b) := if_neg (Nat.ne_of_gt h)

theorem signed_eq_ok {n : Int} (hlo : -2147483648 ≤ n) (hhi : n < 2147483648) :
    signed n = .ok n := if_pos ⟨hlo, hhi⟩

theorem truncate_natCast (h : a < 65536) : truncate a = a := by
  rw [truncate]
  omega

end Words

/-! ## Strings -/

/-- The byte at this place. -/
def byteAt (bs : Bytes) (i : Nat) : Except Trap UInt8 :=
  match bs[i]? with
  | some b => .ok b
  | none => .error .outOfRange

/-- The bytes from `start` up to, and without, `stop`, if there are such. -/
def slice? (bs : Bytes) (start stop : Nat) : Option Bytes :=
  if start ≤ stop ∧ stop ≤ bs.length then some (bs.extract start stop) else none

/-- The bytes from `start` up to, and without, `stop`. -/
def slice (bs : Bytes) (start stop : Nat) : Except Trap Bytes :=
  match slice? bs start stop with
  | some piece => .ok piece
  | none => .error .outOfRange

/-- The string with a piece written over its bytes from `start` on. -/
def overwrite (buf : Bytes) (start : Nat) (piece : Bytes) : Bytes :=
  buf.take start ++ piece ++ buf.drop (start + piece.length)

/-- Writes a piece over the bytes from `start` up to `stop`, which are as many. -/
def copyInto (buf : Bytes) (start stop : Nat) (piece : Bytes) : Except Trap Bytes := do
  let place ← slice buf start stop
  if place.length = piece.length then
    return overwrite buf start piece
  else
    throw .outOfRange

/-- The number in the first bytes of a string, as many as the word has. -/
def wordOf (width : Nat) (bs : Bytes) : Except Trap Nat := do
  return BigEndian.toNat (← (List.range width).mapM (byteAt bs))

/-- The number in the bytes from a place on, unless the string ends before. -/
def word? (width : Nat) (bs : Bytes) (start : Nat) : Except Trap (Option Nat) :=
  -- An end that does not fit its word lies behind every string.
  match fit UInt64.size (start + width) with
  | .error _ => .ok none
  | .ok stop =>
    match slice? bs start stop with
    | none => .ok none
    | some piece => some <$> wordOf width piece

section Strings

variable {bs buf piece : Bytes} {start stop width : Nat}

theorem slice?_eq_some (h : start ≤ stop) (hstop : stop ≤ bs.length) :
    slice? bs start stop = some (bs.extract start stop) := if_pos ⟨h, hstop⟩

theorem slice_eq_ok (h : start ≤ stop) (hstop : stop ≤ bs.length) :
    slice bs start stop = .ok (bs.extract start stop) := by
  rw [slice, slice?_eq_some h hstop]

theorem length_extract (h : start ≤ stop) (hstop : stop ≤ bs.length) :
    (bs.extract start stop).length = stop - start := by
  rw [List.extract_eq_take_drop, List.length_take, List.length_drop]
  omega

theorem length_overwrite (h : start + piece.length ≤ buf.length) :
    (overwrite buf start piece).length = buf.length := by
  simp only [overwrite, List.length_append, List.length_take, List.length_drop]
  omega

theorem take_overwrite (h : start ≤ buf.length) :
    (overwrite buf start piece).take (start + piece.length) = buf.take start ++ piece := by
  refine List.take_left' ?_
  rw [List.length_append, List.length_take, Nat.min_eq_left h]

theorem copyInto_eq_ok (h : start + piece.length ≤ buf.length) :
    copyInto buf start (start + piece.length) piece = .ok (overwrite buf start piece) := by
  have hplace : (buf.extract start (start + piece.length)).length = piece.length := by
    rw [length_extract (Nat.le_add_right _ _) h, Nat.add_sub_cancel_left]
  rw [copyInto, slice_eq_ok (Nat.le_add_right _ _) h]
  exact if_pos hplace

theorem byteAt_eq_ok {i : Nat} (h : i < bs.length) : byteAt bs i = .ok bs[i] := by
  rw [byteAt, List.getElem?_eq_getElem h]

theorem mapM_byteAt {n : Nat} (h : n ≤ bs.length) :
    (List.range n).mapM (byteAt bs) = .ok (bs.take n) := by
  induction n with
  | zero => rfl
  | succ n ih =>
    rw [List.range_succ, List.mapM_append, ih (Nat.le_of_succ_le h), List.mapM_cons,
      byteAt_eq_ok h, List.take_succ_eq_append_getElem h]
    rfl

theorem wordOf_eq_ok (h : bs.length = width) : wordOf width bs = .ok (BigEndian.toNat bs) := by
  rw [wordOf, mapM_byteAt (Nat.le_of_eq h.symm), List.take_of_length_le (Nat.le_of_eq h)]
  rfl

theorem word?_eq_ok (h : start + width < UInt64.size) :
    word? width bs start = .ok (
      if start + width ≤ bs.length then
        some (BigEndian.toNat (bs.extract start (start + width)))
      else
        none) := by
  rw [word?, fit_eq_ok h]
  by_cases hstop : start + width ≤ bs.length
  · have hlength : (bs.extract start (start + width)).length = width := by
      rw [length_extract (Nat.le_add_right _ _) hstop, Nat.add_sub_cancel_left]
    simp only [slice?_eq_some (Nat.le_add_right _ _) hstop, wordOf_eq_ok hlength, if_pos hstop]
    rfl
  · have hnone : slice? bs start (start + width) = none := if_neg fun h => hstop h.2
    simp only [hnone, if_neg hstop]

end Strings

/-! ## Programs without traps -/

section Lift

variable {α β : Type}

/-- A block is borrowed for a use that is checked. -/
def withBlock (dev : Device) (block : Nat) (use : Bytes → Except Trap α) : Checked α :=
  ExceptT.mk (dev.withBlock block fun data => .ok (use data))

theorem liftM_ok_bind (a : α) (f : α → Checked β) :
    (liftM (Except.ok a : Except Trap α) : Checked α) >>= f = f a :=
  pure_bind a f

theorem run_liftM (r : Run α) : (liftM r : Checked α).run = .ok <$> r := rfl

/-- A program is the lift of a run if its first part is, and what comes behind is
for each value that the first part can have. -/
theorem bind_eq_liftM {r : Run α} {f : α → Checked β} {g : α → Run β}
    (h : ∀ a, r.result = .ok a → f a = liftM (g a)) :
    (liftM r : Checked α) >>= f = liftM (r >>= g) := by
  refine ExceptT.ext ((ExceptT.run_bind_lift r f).trans ?_)
  rw [run_liftM, map_bind]
  exact Run.bind_congr_of_ok fun a ha => by rw [h a ha, run_liftM]

theorem except_bind_eq_liftM {x : Except Error α} {f : α → Checked β}
    {g : α → Except Error β} (h : ∀ a, x = .ok a → f a = liftM (g a)) :
    (liftM x : Checked α) >>= f = liftM (x >>= g) := by
  cases x with
  | error e => rfl
  | ok a => exact (pure_bind a f).trans (h a rfl)

theorem except_map_bind_eq_liftM {γ : Type} {x : Except Error α} {p : α → γ}
    {f : γ → Checked β} {g : α → Except Error β} (h : ∀ a, x = .ok a → f (p a) = liftM (g a)) :
    (liftM (p <$> x) : Checked γ) >>= f = liftM (x >>= g) := by
  cases x with
  | error e => rfl
  | ok a => exact (pure_bind (p a) f).trans (h a rfl)

/-- A block that is long enough is all that a checked use has to be safe for. -/
theorem withBlock_bind_eq_liftM {γ : Type} {dev : Device} {block : Nat}
    {use : Bytes → Except Trap α} {use' : Bytes → Except Error β} {f : α → Checked γ}
    {g : β → Run γ} (h : ∀ data : Bytes, dev.blockSize.toNat ≤ data.length →
      ∃ a b, use data = .ok a ∧ use' data = .ok b ∧ f a = liftM (g b)) :
    withBlock dev block use >>= f = liftM (dev.withBlock block use' >>= g) := by
  refine ExceptT.ext ?_
  rw [ExceptT.run_bind, run_liftM, map_bind]
  show dev.withBlock block (fun data => .ok (use data)) >>= _ = dev.withBlock block use' >>= _
  rw [Device.withBlock, Device.withBlock]
  cases dev.fetch dev.blockSize block with
  | error fault => rfl
  | ok data =>
    simp only []
    by_cases hshort : data.length < dev.blockSize.toNat
    · simp only [if_pos hshort]
      rfl
    · obtain ⟨a, b, ha, hb, hab⟩ := h data (Nat.not_lt.mp hshort)
      simp only [if_neg hshort, ha, hb]
      rw [Run.bind_of_ok rfl, Run.bind_of_ok rfl]
      simp only [hab]
      rfl

end Lift

end Checked

end HfsPlus
