import HfsPlus.Proofs.Volume.Ends

/-!
# Where a cursor stands

A step of a cursor changes its position and nothing else, and the position only
if there is an entry: by one, as a number and not as a word. A word can run
over, and any word may be asked for, the last one too. But whoever finds an
entry at a position has gone on over so many records, and no search goes on
over as many as there are words (`next_of_result_ok`).

So after any number of steps, failed ones among them, the cursor stands as many
places on as entries were shown (`exists_shows_after`): failed steps are as if
they had not been made, and behind the first of them all others fail as well.
-/

namespace HfsPlus

namespace Cursor

variable {v : Volume} {c last : Cursor} {shown : List Entry} {e : Error}

/-- The cursor after so many steps, whatever came of them. -/
def after (v : Volume) : (steps : Nat) → Cursor → Cursor
  | 0, c => c
  | steps + 1, c => after v steps (c.next v).2

/-! ## One step -/

theorem folder_next (v : Volume) (c : Cursor) : (c.next v).2.folder = c.folder := by
  rw [next]
  split <;> rfl

theorem next_of_result_error (h : (c.next v).1.result = .error e) : (c.next v).2 = c := by
  rw [fst_next] at h
  exact (next_of_error h).2

/-- A record that lies so far on has a position behind it. -/
theorem position_lt_of_search {order : KeyedRecord → Except Error Ordering} {hit : Hit}
    (h : (v.catalog.search v.device order c.position.toNat).result = .ok hit) :
    c.position.toNat + 1 < UInt64.size :=
  Nat.lt_of_le_of_lt (Tree.skip_lt_of_search h) v.maxEntries_lt

/-! ## Many steps -/

theorem Shows.position_eq (h : c.Shows v shown last) :
    last.folder = c.folder ∧ last.position.toNat = c.position.toNat + shown.length := by
  induction h with
  | nil => exact ⟨rfl, rfl⟩
  | @cons c last entry shown next behind ih =>
    obtain ⟨hfolder, hposition⟩ := ih
    obtain ⟨-, hstep⟩ := next_of_result_ok next
    refine ⟨hfolder.trans (folder_next v c), ?_⟩
    rw [hposition, hstep, List.length_cons]
    omega

theorem after_of_error (h : (c.next v).1.result = .error e) (steps : Nat) :
    c.after v steps = c := by
  induction steps with
  | zero => rfl
  | succ steps ih => rw [after, next_of_result_error h, ih]

/-- The steps show entries up to the first that fails, if one of them does. -/
theorem exists_shows_after (v : Volume) (steps : Nat) (c : Cursor) :
    ∃ shown, c.Shows v shown (c.after v steps) ∧ shown.length ≤ steps ∧
      (shown.length < steps → ∃ e, ((c.after v steps).next v).1.result = .error e) := by
  induction steps generalizing c with
  | zero => exact ⟨[], .nil, Nat.le_refl _, fun h => by cases h⟩
  | succ steps ih =>
    cases hnext : (c.next v).1.result with
    | error e =>
      refine ⟨[], ?_, Nat.zero_le _, fun _ => ⟨e, ?_⟩⟩
      · rw [after_of_error hnext]
        exact .nil
      · rw [after_of_error hnext, hnext]
    | ok entry =>
      obtain ⟨shown, hshows, hle, hfails⟩ := ih (c.next v).2
      exact ⟨entry :: shown, .cons hnext hshows, Nat.succ_le_succ hle,
        fun hlt => hfails (Nat.lt_of_succ_lt_succ hlt)⟩

/-- A step that fails leaves the cursor as it is, and a step that shows an entry moves
its position by exactly one: a search that finds a record at a position has a position
behind it. Any number of steps moves it by the number of entries they have shown, which
are all the steps, or those up to one that fails. -/
theorem moves_by_entries (v : Volume) (c : Cursor) :
    (∀ e, (c.next v).1.result = .error e → (c.next v).2 = c) ∧
    (∀ entry, (c.next v).1.result = .ok entry →
      (c.next v).2.folder = c.folder ∧
      (c.next v).2.position.toNat = c.position.toNat + 1) ∧
    (∀ order hit, (v.catalog.search v.device order c.position.toNat).result = .ok hit →
      c.position.toNat + 1 < UInt64.size) ∧
    ∀ steps, ∃ shown, c.Shows v shown (c.after v steps) ∧
      (c.after v steps).folder = c.folder ∧
      (c.after v steps).position.toNat = c.position.toNat + shown.length ∧
      shown.length ≤ steps ∧
      (shown.length < steps → ∃ e, ((c.after v steps).next v).1.result = .error e) := by
  refine ⟨fun e h => next_of_result_error h,
    fun entry h => ⟨folder_next v c, (next_of_result_ok h).2⟩,
    fun order hit h => position_lt_of_search h, fun steps => ?_⟩
  obtain ⟨shown, hshows, hle, hfails⟩ := exists_shows_after v steps c
  obtain ⟨hfolder, hposition⟩ := hshows.position_eq
  exact ⟨shown, hshows, hfolder, hposition, hle, hfails⟩

/-! ### A sample

The root folder of `Volume.sampleVolume` has three entries. -/

theorem sample_entryAt (p : Nat) : (Volume.sampleVolume.entryAt .root p).result =
    report (entriesOf Volume.sampleRows 2)[p]? :=
  Volume.sampleVolume_hasRows.result_entryAt ⟨Volume.sampleRows[0], by decide, rfl⟩ p

/-- The last entry moves the cursor, and the last position there is does not. -/
theorem sample_moves :
    ((⟨.root, 2⟩ : Cursor).next Volume.sampleVolume).2.position.toNat = 3 ∧
    ((⟨.root, 18446744073709551615⟩ : Cursor).next Volume.sampleVolume).2.position.toNat =
      18446744073709551615 := by
  have hentry : ((⟨.root, 2⟩ : Cursor).next Volume.sampleVolume).1.result =
      .ok { id := 0, parentId := 2, name := [0x62], kind := .unknown } :=
    (fst_next _ _).symm ▸ sample_entryAt 2
  have hnone : ((⟨.root, 18446744073709551615⟩ : Cursor).next Volume.sampleVolume).1.result =
      .error .notFound :=
    (fst_next _ _).symm ▸ sample_entryAt 18446744073709551615
  obtain ⟨-, hmoves, -⟩ := moves_by_entries Volume.sampleVolume ⟨.root, 2⟩
  obtain ⟨hstays, -⟩ := moves_by_entries Volume.sampleVolume ⟨.root, 18446744073709551615⟩
  refine ⟨(hmoves _ hentry).2, ?_⟩
  rw [hstays _ hnone]
  rfl

end Cursor

end HfsPlus
