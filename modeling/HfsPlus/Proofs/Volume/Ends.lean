import HfsPlus.Proofs.Tree.Circle
import HfsPlus.Proofs.Volume.Enumerate

/-!
# Going through a folder ends

Whoever lists a folder asks for the entry at one position after another until
there is an error, and has no bound of his own. On a volume of which nothing is
known that still ends. The entry at a position is a search that goes on over
that many records, and such a search fails from some count on, whatever the
tree looks like (`Tree.skip_lt_of_search`). So each entry that is shown leaves
one less to come (`Cursor.next_of_result_ok`), and the positions do not run over
before the last.
-/

namespace HfsPlus

variable {v : Volume}

/-- The entries that come one after another from a cursor on, and the cursor
behind the last of them. -/
inductive Cursor.Shows (v : Volume) : Cursor → List Entry → Cursor → Prop where
  | nil {c : Cursor} : Shows v c [] c
  | cons {c last : Cursor} {entry : Entry} {shown : List Entry}
      (next : (c.next v).1.result = .ok entry) (behind : Shows v (c.next v).2 shown last) :
      Shows v c (entry :: shown) last

namespace Volume

theorem entryAt_lt {folder entry : Entry} {position : Nat}
    (h : (v.entryAt folder position).result = .ok entry) : position < v.maxEntries := by
  rw [entryAt, Run.result_bind] at h
  obtain ⟨hit, hsearch, -⟩ := exists_of_bind_eq_ok h
  exact Tree.skip_lt_of_search hsearch

theorem maxEntries_lt (v : Volume) : v.maxEntries < UInt64.size := by
  have htotal := v.catalog.totalNodes.toNat_lt
  rw [maxEntries, UInt64.size]
  omega

end Volume

namespace Cursor

/-! ## One step -/

theorem next_of_result_ok {c : Cursor} {entry : Entry} (h : (c.next v).1.result = .ok entry) :
    c.position.toNat < v.maxEntries ∧
      (c.next v).2.position.toNat = c.position.toNat + 1 := by
  cases hat : (v.entryAt c.folder c.position.toNat).result with
  | error e =>
    rw [(next_of_error hat).1] at h
    cases h
  | ok found =>
    have hlt := Volume.entryAt_lt hat
    have hmax := v.maxEntries_lt
    refine ⟨hlt, ?_⟩
    rw [(next_of_ok hat).2, UInt64.toNat_add]
    exact Nat.mod_eq_of_lt (Nat.lt_of_le_of_lt hlt hmax)

theorem result_list_of_error {c : Cursor} {limit : Nat} {e : Error}
    (h : (c.next v).1.result = .error e) :
    (c.list v (limit + 1)).result = .ok {
      entries := []
      ending := if e = .notFound then .complete else .failed e
      cursor := c } := by
  by_cases he : e = .notFound
  · rw [if_pos he]
    exact result_list_of_notFound (he ▸ h)
  · rw [list, Run.result_bind_of_ok (Run.result_attempt _), h, if_neg he]
    cases e <;> first | rfl | exact absurd rfl he

/-! ## The way to the error -/

theorem Shows.length_add_le {c last : Cursor} {shown : List Entry} (h : c.Shows v shown last) :
    shown = [] ∨ c.position.toNat + shown.length ≤ v.maxEntries := by
  induction h with
  | nil => exact .inl rfl
  | @cons c last entry shown next behind ih =>
    obtain ⟨hlt, hposition⟩ := next_of_result_ok next
    rw [List.length_cons]
    rcases ih with rfl | hle
    · exact .inr hlt
    · exact .inr (by omega)

/-- From the start of a folder there are no more of them than that. -/
theorem Shows.length_le {folder : Entry} {last : Cursor} {shown : List Entry}
    (h : ({ folder } : Cursor).Shows v shown last) : shown.length ≤ v.maxEntries := by
  rcases h.length_add_le with rfl | hle
  · exact Nat.zero_le _
  · exact Nat.le_trans (Nat.le_add_left _ _) hle

/-- From every cursor entries come until there is an error. -/
theorem exists_error (v : Volume) (c : Cursor) :
    ∃ shown last e, c.Shows v shown last ∧ (last.next v).1.result = .error e := by
  -- An entry lies below the bound, and the cursor behind it is one closer.
  induction hn : v.maxEntries - c.position.toNat using Nat.strongRecOn generalizing c with
  | ind n ih =>
    cases hnext : (c.next v).1.result with
    | error e => exact ⟨[], c, e, .nil, hnext⟩
    | ok entry =>
      obtain ⟨hlt, hposition⟩ := next_of_result_ok hnext
      obtain ⟨shown, last, e, hshows, he⟩ := ih _ (by omega) (c.next v).2 rfl
      exact ⟨entry :: shown, last, e, .cons hnext hshows, he⟩

theorem result_list_of_shows {c last : Cursor} {shown : List Entry} (h : c.Shows v shown last)
    {e : Error} (he : (last.next v).1.result = .error e) : ∀ {limit : Nat},
    shown.length < limit →
    (c.list v limit).result = .ok {
      entries := shown
      ending := if e = .notFound then .complete else .failed e
      cursor := last } := by
  induction h with
  | nil =>
    intro limit hlimit
    obtain ⟨limit, rfl⟩ := Nat.exists_eq_add_one_of_ne_zero (Nat.ne_of_gt hlimit)
    exact result_list_of_error he
  | cons next behind ih =>
    intro limit hlimit
    obtain ⟨limit, rfl⟩ := Nat.exists_eq_add_one_of_ne_zero (Nat.ne_zero_of_lt hlimit)
    rw [result_list_of_ok next, ih he (Nat.lt_of_succ_lt_succ hlimit)]
    rfl

end Cursor

namespace Volume

theorem result_entries_of_shows {folder : Entry} {shown : List Entry} {last : Cursor}
    (h : ({ folder } : Cursor).Shows v shown last) {e : Error}
    (he : (last.next v).1.result = .error e) (hle : shown.length ≤ v.maxEntries) :
    (v.entries folder).result = if e = .notFound then .ok shown else .error e := by
  rw [entries, Run.result_bind_of_ok
    (Cursor.result_list_of_shows h he (Nat.lt_succ_of_le hle))]
  by_cases hnone : e = .notFound
  · rw [if_pos hnone, if_pos hnone]
    rfl
  · rw [if_neg hnone, if_neg hnone]
    rfl

/-- In a well-formed catalog that holds the folder's thread record, the entries of the
folder are those of its rows. -/
theorem HasRows.result_entries {leaves : List Node} {rows : List CatalogRow}
    (h : v.HasRows leaves rows) {folder : Entry}
    (hthread : ∃ row ∈ rows, row.key = .firstChild folder.id) :
    (v.entries folder).result = .ok (entriesOf rows folder.id) := by
  have hrows := h.length_le
  have hfilter : (rowsOf rows folder.id).length ≤ rows.length := List.length_filter_le _ rows
  have hreach : (entriesOf rows folder.id).length < 0 + (v.maxEntries + 1) := by
    rw [entriesOf, List.length_map, maxEntries]
    omega
  have hlist : (Cursor.list v (v.maxEntries + 1) { folder }).result = .ok {
      entries := entriesOf rows folder.id
      ending := .complete
      cursor := ⟨folder, UInt64.ofNat (entriesOf rows folder.id).length⟩ } :=
    Cursor.result_list (h.result_entryAt hthread) (h.length_entriesOf_lt folder.id)
      (Nat.zero_le _) hreach
  rw [entries, Run.result_bind_of_ok hlist]
  rfl

/-- Every search ends: it loads at most 16 nodes on its way down, and along the
leaves at most as many as the tree has besides one, and does not succeed if it
is to go on over more records than these can have. So does every enumeration:
after no more entries than that there is an error. -/
theorem walks_end :
    (∀ (dev : Device) (tree : Tree) (order : KeyedRecord → Except Error Ordering) (skip : Nat),
      (tree.search dev order skip).nodes <+:
        tree.loadsDown dev order ++ tree.loadsAlong dev order skip ∧
      (tree.loadsDown dev order).length ≤ 16 ∧
      (tree.loadsAlong dev order skip).length ≤ max tree.totalNodes.toNat 1 - 1 ∧
      (65535 * max tree.totalNodes.toNat 1 ≤ skip →
        ∀ hit, (tree.search dev order skip).result ≠ .ok hit)) ∧
    ∀ (v : Volume) (folder : Entry), ∃ (shown : List Entry) (last : Cursor) (e : Error),
      ({ folder } : Cursor).Shows v shown last ∧
      (last.next v).1.result = .error e ∧
      shown.length ≤ 65535 * max v.catalog.totalNodes.toNat 1 ∧
      (v.entries folder).result = if e = .notFound then .ok shown else .error e := by
  refine ⟨fun dev tree order skip => ⟨?_, tree.length_loadsDown_le dev order, ?_, ?_⟩,
    fun v folder => ?_⟩
  · rw [← Tree.loads_eq]
    exact tree.nodes_search dev order skip
  · have := tree.length_loadsAlong_le dev order skip
    omega
  · intro hskip hit hsearch
    have := Tree.skip_lt_of_search hsearch
    omega
  · obtain ⟨shown, last, e, hshows, he⟩ := Cursor.exists_error v { folder }
    have hle : shown.length ≤ v.maxEntries := by
      rcases hshows.length_add_le with rfl | hle
      · exact Nat.zero_le _
      · exact Nat.le_trans (Nat.le_add_left _ _) hle
    exact ⟨shown, last, e, hshows, he, hle, result_entries_of_shows hshows he hle⟩

/-- A folder in leaves that run in a circle. -/
def circleVolume : Volume := ⟨Tree.circleDevice, sampleHeader, Tree.circleTree⟩

theorem circle_ends :
    (∀ hit, (Tree.circleSearch 262140).result ≠ .ok hit) ∧
    ∃ (shown : List Entry) (last : Cursor) (e : Error),
      (⟨.root, 0⟩ : Cursor).Shows circleVolume shown last ∧
      (last.next circleVolume).1.result = .error e ∧ shown.length ≤ 262140 := by
  obtain ⟨-, -, -, hfar⟩ := walks_end.1 Tree.circleDevice Tree.circleTree
    (CatalogKey.firstChild 2).orderRecord 262140
  obtain ⟨shown, last, e, hshows, he, hle, -⟩ := walks_end.2 circleVolume .root
  exact ⟨hfar (by decide), shown, last, e, hshows, he, hle⟩

end Volume

end HfsPlus
