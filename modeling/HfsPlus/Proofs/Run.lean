import HfsPlus.Run

/-!
# How a composed run ends

A run is a list of events beside a result, and most statements about an
operation look at one of the two only. The laws here say how each is put
together from its parts: the result of a sequence is the sequence of the
results in `Except`, and so what an operation answers can be worked out
without its events in sight.
-/

namespace HfsPlus

/-- The answer when something was looked for. -/
def report {α : Type} : Option α → Except Error α
  | some a => .ok a
  | none => .error .notFound

theorem report_eq_ok {α : Type} {o : Option α} {a : α} :
    report o = .ok a ↔ o = some a := by
  cases o <;> simp [report]

theorem report_eq_notFound {α : Type} {o : Option α} :
    report o = .error .notFound ↔ o = none := by
  cases o <;> simp [report]

/-- Whatever goes wrong here is damage. -/
def OnlyDamage {α : Type} (x : Except Error α) : Prop :=
  ∀ e, x = .error e → ∃ damage, e = .corrupted damage

/-! ## Sequences in `Except` -/

instance decidableEqExcept {ε α : Type} [DecidableEq ε] [DecidableEq α] :
    DecidableEq (Except ε α)
  | .ok a, .ok b => decidable_of_iff (a = b) (by rw [Except.ok.injEq])
  | .error d, .error e => decidable_of_iff (d = e) (by rw [Except.error.injEq])
  | .ok _, .error _ => isFalse nofun
  | .error _, .ok _ => isFalse nofun

section Except

variable {ε α β : Type} {x : Except ε α} {f : α → Except ε β}

/-- A sequence that succeeds does so step by step. -/
theorem exists_of_bind_eq_ok {b : β} (h : x >>= f = .ok b) :
    ∃ a, x = .ok a ∧ f a = .ok b := by
  cases x with
  | error e => cases h
  | ok a => exact ⟨a, rfl, h⟩

/-- A sequence that fails does so at its first step or behind it. -/
theorem error_or_exists_of_bind_eq_error {e : ε} (h : x >>= f = .error e) :
    x = .error e ∨ ∃ a, x = .ok a ∧ f a = .error e := by
  cases x with
  | error e' =>
    cases h
    exact .inl rfl
  | ok a => exact .inr ⟨a, rfl, h⟩

theorem map_eq_ok_iff {g : α → β} {b : β} :
    g <$> x = .ok b ↔ ∃ a, x = .ok a ∧ g a = b := by
  cases x <;> simp [Functor.map, Except.map]

theorem map_eq_error_iff {g : α → β} {e : ε} :
    g <$> x = .error e ↔ x = .error e := by
  cases x <;> simp [Functor.map, Except.map]

end Except

section OnlyDamage

variable {α β : Type}

theorem onlyDamage_ok (a : α) : OnlyDamage (.ok a) := nofun

theorem onlyDamage_corrupted (damage : Damage) :
    OnlyDamage (.error (.corrupted damage) : Except Error α) := by
  intro e h
  cases h
  exact ⟨damage, rfl⟩

theorem OnlyDamage.bind {x : Except Error α} {f : α → Except Error β}
    (h : OnlyDamage x) (hf : ∀ a, OnlyDamage (f a)) : OnlyDamage (x >>= f) := by
  intro e he
  rcases error_or_exists_of_bind_eq_error he with he | ⟨a, -, he⟩
  · exact h e he
  · exact hf a e he

theorem OnlyDamage.ne_notFound {x : Except Error α} (h : OnlyDamage x) :
    x ≠ .error .notFound := by
  intro he
  obtain ⟨damage, hdamage⟩ := h _ he
  cases hdamage

end OnlyDamage

/-! ## Two results -/

section EndsAlike

variable {α β γ δ : Type} {R : α → β → Prop} {S : γ → δ → Prop} {x : Except Error α}
  {y : Except Error β}

/-- Both end in one error, or in values that are related. -/
inductive EndsAlike (R : α → β → Prop) : Except Error α → Except Error β → Prop where
  | failed (e : Error) : EndsAlike R (.error e) (.error e)
  | ended {a : α} {b : β} (related : R a b) : EndsAlike R (.ok a) (.ok b)

namespace EndsAlike

theorem refl (x : Except Error α) : EndsAlike Eq x x := by
  cases x with
  | error e => exact .failed e
  | ok a => exact .ended rfl

theorem eq {x y : Except Error α} (h : EndsAlike Eq x y) : x = y := by
  cases h with
  | failed e => rfl
  | ended related => rw [related]

theorem error_or_ok (h : EndsAlike R x y) :
    (∃ e, x = .error e ∧ y = .error e) ∨ ∃ a b, x = .ok a ∧ y = .ok b ∧ R a b := by
  cases h with
  | failed e => exact .inl ⟨e, rfl, rfl⟩
  | ended related => exact .inr ⟨_, _, rfl, rfl, related⟩

theorem error_iff (h : EndsAlike R x y) {e : Error} : x = .error e ↔ y = .error e := by
  cases h with
  | failed e' => simp
  | ended related => simp

theorem exists_of_ok {a : α} (h : EndsAlike R (.ok a) y) : ∃ b, y = .ok b ∧ R a b := by
  cases h with
  | ended related => exact ⟨_, rfl, related⟩

theorem exists_of_ok_right {b : β} (h : EndsAlike R x y) (hb : y = .ok b) :
    ∃ a, x = .ok a ∧ R a b := by
  cases h with
  | failed e => cases hb
  | ended related =>
    cases hb
    exact ⟨_, rfl, related⟩

theorem bind_of_ok {f : α → Except Error γ} {g : β → Except Error δ} (h : EndsAlike R x y)
    (hnext : ∀ a b, x = .ok a → R a b → EndsAlike S (f a) (g b)) :
    EndsAlike S (x.bind f) (y.bind g) := by
  cases h with
  | failed e => exact .failed e
  | ended related => exact hnext _ _ rfl related

theorem mono {R' : α → β → Prop} (h : EndsAlike R x y)
    (himp : ∀ a b, x = .ok a → R a b → R' a b) : EndsAlike R' x y := by
  cases h with
  | failed e => exact .failed e
  | ended related => exact .ended (himp _ _ rfl related)

end EndsAlike

end EndsAlike

/-! ## Results of runs -/

namespace Run

variable {α β : Type}

instance : LawfulMonadLift (Except Error) Run where
  monadLift_pure _ := rfl
  monadLift_bind x f := by
    cases x <;> rfl

@[simp] theorem result_bind (r : Run α) (next : α → Run β) :
    (r >>= next).result = r.result.bind fun a => (next a).result := by
  cases h : r.result with
  | error e => rw [bind_of_error h]; rfl
  | ok a => rw [bind_of_ok h]; rfl

@[simp] theorem result_ofExcept (x : Except Error α) :
    (ofExcept x).result = x := rfl

@[simp] theorem result_liftM (x : Except Error α) :
    (liftM x : Run α).result = x := rfl

@[simp] theorem result_fail (e : Error) : (fail e : Run α).result = .error e := rfl

@[simp] theorem result_attempt (r : Run α) : r.attempt.result = .ok r.result := rfl

@[simp] theorem result_note (n : Notice) : (note n).result = .ok () := rfl

/-- An error at the front of a sequence is the error of the whole. -/
theorem result_bind_of_error {r : Run α} {e : Error} (h : r.result = .error e)
    (next : α → Run β) : (r >>= next).result = .error e := by
  rw [result_bind, h]
  rfl

theorem result_bind_of_ok {r : Run α} {a : α} (h : r.result = .ok a)
    (next : α → Run β) : (r >>= next).result = (next a).result := by
  rw [result_bind, h]
  rfl

end Run

end HfsPlus
