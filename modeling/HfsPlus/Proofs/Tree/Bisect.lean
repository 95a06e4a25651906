import HfsPlus.Tree.Bisect

/-!
# Bisection finds what a scan finds

`bisect` sees the records of a node through probes alone. Where the answers
are those of records in ascending order, first `lt`, then at most one `eq`,
then `gt`, the place it ends at is the place a scan from the front would name:
the record that is equal if there is one, and otherwise the gap between the
smaller records and the greater ones.

The invariant has two sides, one for each end of the interval that is still
open: every record in front of `lo` is smaller and every record from `hi` on
is greater. A probe in the middle that is not equal moves one end, and
`Ascends.splits` carries its answer over to all records on that side.

A scan keeps the first half of the invariant only. No more than one place
satisfies both halves, so the two searches agree (`Ascends.bisect_eq_scan`).
-/

namespace HfsPlus

variable {ε : Type} {probe : Nat → Except ε Ordering} {n : Nat}

/-- The answers that `n` records in ascending order give: of any two records
the one in front is smaller than what is looked for, or the one behind is
greater. -/
structure Ascends (probe : Nat → Except ε Ordering) (n : Nat) : Prop where
  /-- Every record answers. -/
  answers : ∀ i < n, ∃ c, probe i = .ok c
  /-- Nothing lies between two records on both sides at once. -/
  splits : ∀ i j, i < j → j < n → probe i = .ok .lt ∨ probe j = .ok .gt

/-- The position that a scan of `n` records would name. -/
def Position.Locates (probe : Nat → Except ε Ordering) (n : Nat) :
    Position → Prop
  | .found index => index < n ∧ probe index = .ok .eq
  | .gap smaller =>
    smaller ≤ n ∧ (∀ i < smaller, probe i = .ok .lt) ∧
      ∀ i, smaller ≤ i → i < n → probe i = .ok .gt

/-- All records in front of one that is not greater are smaller. -/
theorem Ascends.lt_of_ne_gt (h : Ascends probe n) {i j : Nat} (hij : i < j)
    (hj : j < n) (hne : probe j ≠ .ok .gt) : probe i = .ok .lt :=
  (h.splits i j hij hj).resolve_right hne

/-- All records behind one that is not smaller are greater. -/
theorem Ascends.gt_of_ne_lt (h : Ascends probe n) {i j : Nat} (hij : i < j)
    (hj : j < n) (hne : probe i ≠ .ok .lt) : probe j = .ok .gt :=
  (h.splits i j hij hj).resolve_left hne

/-- At most one record is equal. -/
theorem Ascends.eq_of_eq (h : Ascends probe n) {i j : Nat} (hi : i < n)
    (hj : j < n) (hieq : probe i = .ok .eq) (hjeq : probe j = .ok .eq) : i = j := by
  rcases Nat.lt_trichotomy i j with hlt | heq | hlt
  · exact absurd (h.splits i j hlt hj) (by rw [hieq, hjeq]; simp)
  · exact heq
  · exact absurd (h.splits j i hlt hi) (by rw [hieq, hjeq]; simp)

/-- It is enough to look at neighbours: an answer that is not `lt` makes the
next one `gt`, and so all that follow. -/
theorem Ascends.of_neighbours (answers : ∀ i < n, ∃ c, probe i = .ok c)
    (step : ∀ i, i + 1 < n → probe i = .ok .lt ∨ probe (i + 1) = .ok .gt) :
    Ascends probe n where
  answers := answers
  splits i j hij hj := by
    induction j with
    | zero => exact absurd hij (Nat.not_lt_zero i)
    | succ j ih =>
      rcases Nat.lt_succ_iff_lt_or_eq.mp hij with hlt | rfl
      · rcases ih hlt (by omega) with hi | hgt
        · exact .inl hi
        · exact .inr ((step j hj).resolve_left (by rw [hgt]; simp))
      · exact step i hj

/-- As long as records are open, bisection is one probe and what it leads to. -/
theorem bisect_of_lt {lo hi : Nat} (hlt : lo < hi) :
    bisect probe lo hi = (do
      match ← probe ((lo + hi - 1) / 2) with
      | .lt => bisect probe ((lo + hi - 1) / 2 + 1) hi
      | .gt => bisect probe lo ((lo + hi - 1) / 2)
      | .eq => .ok (.found ((lo + hi - 1) / 2))) := by
  rw [bisect, if_pos hlt]
  simp only []
  cases probe ((lo + hi - 1) / 2) with
  | error e => rfl
  | ok answer => cases answer <;> rfl

theorem bisect_self (probe : Nat → Except ε Ordering) (i : Nat) :
    bisect probe i i = .ok (.gap i) := by
  rw [bisect, if_neg (Nat.lt_irrefl i)]

theorem Ascends.bisect_of_bounds (h : Ascends probe n) {lo hi : Nat}
    (hle : lo ≤ hi) (hn : hi ≤ n) (hbelow : ∀ i < lo, probe i = .ok .lt)
    (habove : ∀ i, hi ≤ i → i < n → probe i = .ok .gt) :
    ∃ p, bisect probe lo hi = .ok p ∧ p.Locates probe n := by
  induction lo, hi using bisect.induct probe with
  | case1 lo hi hlt mid hmid ih =>
    have hrange : lo ≤ mid ∧ mid < hi := by omega
    rw [bisect_of_lt hlt, hmid]
    refine ih (by omega) hn (fun i hi' => ?_) habove
    rcases Nat.lt_succ_iff_lt_or_eq.mp hi' with hi' | rfl
    · exact h.lt_of_ne_gt hi' (by omega) (by rw [hmid]; simp)
    · exact hmid
  | case2 lo hi hlt mid hmid ih =>
    have hrange : lo ≤ mid ∧ mid < hi := by omega
    rw [bisect_of_lt hlt, hmid]
    refine ih hrange.1 (by omega) hbelow (fun i hi' hin => ?_)
    rcases Nat.lt_or_eq_of_le hi' with hi' | rfl
    · exact h.gt_of_ne_lt hi' hin (by rw [hmid]; simp)
    · exact hmid
  | case3 lo hi hlt mid hmid =>
    rw [bisect_of_lt hlt, hmid]
    exact ⟨.found mid, rfl, by omega, hmid⟩
  | case4 lo hi hlt mid e hmid =>
    obtain ⟨c, hc⟩ := h.answers mid (by omega)
    rw [hmid] at hc
    cases hc
  | case5 lo hi hlt =>
    obtain rfl : lo = hi := by omega
    rw [bisect_self]
    exact ⟨.gap lo, rfl, hn, hbelow, habove⟩

/-- Over records in ascending order bisection ends where a scan would. -/
theorem Ascends.bisect_locates (h : Ascends probe n) :
    ∃ p, bisect probe 0 n = .ok p ∧ p.Locates probe n :=
  h.bisect_of_bounds (Nat.zero_le n) (Nat.le_refl n)
    (fun i hi => absurd hi (Nat.not_lt_zero i))
    (fun _ hi hin => absurd hin (Nat.not_lt.mpr hi))

/-! ## The scan -/

/-- Looks at the records from `i` up to, and without, `n`, one after the other,
until one is not smaller. -/
def scan (probe : Nat → Except ε Ordering) (i n : Nat) : Except ε Position :=
  if i < n then
    match probe i with
    | .ok .lt => scan probe (i + 1) n
    | .ok .gt => .ok (.gap i)
    | .ok .eq => .ok (.found i)
    | .error e => .error e
  else
    .ok (.gap i)
termination_by n - i

theorem Ascends.scan_of_bound (h : Ascends probe n) {i : Nat} (hle : i ≤ n)
    (hbelow : ∀ j < i, probe j = .ok .lt) :
    ∃ p, scan probe i n = .ok p ∧ p.Locates probe n := by
  fun_induction scan probe i n with
  | case1 i hlt hless ih =>
    refine ih hlt fun j hj => ?_
    rcases Nat.lt_succ_iff_lt_or_eq.mp hj with hj | rfl
    · exact hbelow j hj
    · exact hless
  | case2 i hlt hgreater =>
    refine ⟨.gap i, rfl, hle, hbelow, fun j hj hjn => ?_⟩
    rcases Nat.lt_or_eq_of_le hj with hj | rfl
    · exact h.gt_of_ne_lt hj hjn (by simp [hgreater])
    · exact hgreater
  | case3 i hlt hequal => exact ⟨.found i, rfl, hlt, hequal⟩
  | case4 i hlt e hfails =>
    obtain ⟨c, hc⟩ := h.answers i hlt
    simp [hfails] at hc
  | case5 i hlt =>
    exact ⟨.gap i, rfl, hle, hbelow, fun j hj hjn => absurd (Nat.lt_of_le_of_lt hj hjn) hlt⟩

theorem Position.Locates.probe_ne_eq {smaller i : Nat} (h : (Position.gap smaller).Locates probe n)
    (hi : i < n) : probe i ≠ .ok .eq := by
  obtain ⟨-, hlt, hgt⟩ := h
  rcases Nat.lt_or_ge i smaller with hi' | hi'
  · simp [hlt i hi']
  · simp [hgt i hi' hi]

/-- A record between two gaps would be smaller for the one and greater for the
other. -/
theorem Position.Locates.le_of_gap {s t : Nat} (hs : (Position.gap s).Locates probe n)
    (ht : (Position.gap t).Locates probe n) : s ≤ t := by
  obtain ⟨hsn, hlt, -⟩ := hs
  obtain ⟨-, -, hgt⟩ := ht
  refine Nat.not_lt.mp fun hts => ?_
  have hboth := (hlt t hts).symm.trans (hgt t (Nat.le_refl t) (by omega))
  simp at hboth

theorem Ascends.locates_unique (h : Ascends probe n) {p q : Position}
    (hp : p.Locates probe n) (hq : q.Locates probe n) : p = q := by
  cases p with
  | found i =>
    cases q with
    | found j => rw [h.eq_of_eq hp.1 hq.1 hp.2 hq.2]
    | gap t => exact absurd hp.2 (hq.probe_ne_eq hp.1)
  | gap s =>
    cases q with
    | found j => exact absurd hq.2 (hp.probe_ne_eq hq.1)
    | gap t => rw [Nat.le_antisymm (hp.le_of_gap hq) (hq.le_of_gap hp)]

theorem Ascends.bisect_eq_scan (h : Ascends probe n) : bisect probe 0 n = scan probe 0 n := by
  obtain ⟨p, hp, hbisect⟩ := h.bisect_locates
  obtain ⟨q, hq, hscan⟩ :=
    h.scan_of_bound (Nat.zero_le n) fun j hj => absurd hj (Nat.not_lt_zero j)
  rw [hp, hq, h.locates_unique hbisect hscan]

/-! ## Records in any order -/

/-- Whatever the records are, bisection fails with the answer of one of them. -/
theorem exists_of_bisect_eq_error {e : ε} {lo hi : Nat}
    (h : bisect probe lo hi = .error e) : ∃ i < hi, probe i = .error e := by
  fun_induction bisect probe lo hi with
  | case1 lo hi hlt mid hmid ih => exact ih h
  | case2 lo hi hlt mid hmid ih =>
    obtain ⟨i, hi', hprobe⟩ := ih h
    exact ⟨i, by omega, hprobe⟩
  | case3 lo hi hlt mid hmid => cases h
  | case4 lo hi hlt mid e' hmid =>
    cases h
    exact ⟨mid, by omega, hmid⟩
  | case5 lo hi hlt => cases h

/-- Whatever the records are, one that bisection finds is in range and equal. -/
theorem equal_of_bisect {lo hi index : Nat}
    (h : bisect probe lo hi = .ok (.found index)) : index < hi ∧ probe index = .ok .eq := by
  fun_induction bisect probe lo hi with
  | case1 lo hi hlt mid hmid ih => exact ih h
  | case2 lo hi hlt mid hmid ih =>
    obtain ⟨hindex, heq⟩ := ih h
    exact ⟨by omega, heq⟩
  | case3 lo hi hlt mid hmid =>
    have hindex : mid = index := by
      injection h with h
      injection h
    rw [← hindex]
    exact ⟨by omega, hmid⟩
  | case4 lo hi hlt mid e hmid => cases h
  | case5 lo hi hlt => cases h

/-- Whatever the records are, a gap is behind no more of them than there are. -/
theorem le_of_bisect_eq_gap {lo hi smaller : Nat} (hle : lo ≤ hi)
    (h : bisect probe lo hi = .ok (.gap smaller)) : smaller ≤ hi := by
  fun_induction bisect probe lo hi with
  | case1 lo hi hlt mid hmid ih => exact ih (by omega) h
  | case2 lo hi hlt mid hmid ih =>
    have hsmaller := ih (by omega) h
    omega
  | case3 lo hi hlt mid hmid => cases h
  | case4 lo hi hlt mid e hmid => cases h
  | case5 lo hi hlt =>
    cases h
    exact hle

end HfsPlus
