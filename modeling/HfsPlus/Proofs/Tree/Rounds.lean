import HfsPlus.Proofs.Checked.Search
import HfsPlus.Proofs.Tree.Packed
import Mathlib.Data.Nat.Size

/-!
# The rounds of a search in a node

The loop of a search keeps the first and the last of the records that are still
open, both included, and so the last one is in front of the first when there are
none: `−1` where all records are greater. In each round it probes the record half
way between. `Rounds` is that loop, with the indices that it probes and with its
ending, and nothing in it says that there is an ending, or that the indices are
those of records.

Both are true whatever the records answer (`SearchesNode`): bisection is one way
through the rounds and there is no other, each probe lies between the bounds, and
each round leaves no more than half of what was open. If the answers are those of
records in ascending order, the ending is that of a scan, and its upper bound is the
record that is equal, or the last one that is smaller (`EndsAsScan`).
-/

namespace HfsPlus

/-! ## The loop -/

section Rounds

variable {ε : Type} {probe : Nat → Except ε Ordering} {lo hi : Int} {probed : List Int}
  {ending : Except ε (Bool × Int)}

/-- The index half way between two, rounded towards zero. -/
def middle (lo hi : Int) : Int := (lo + hi).tdiv 2

/-- The loop of a search, from a round in which the records from `lo` to `hi` are open:
the indices that it probes, one after the other, and how it ends. The ending is whether
a record was found equal, and the upper bound, which is then the index of that record. -/
inductive Rounds (probe : Nat → Except ε Ordering) :
    (lo hi : Int) → (probed : List Int) → (ending : Except ε (Bool × Int)) → Prop where
  | closed {lo hi : Int} (none_open : hi < lo) : Rounds probe lo hi [] (.ok (false, hi))
  | equal {lo hi : Int} (some_open : lo ≤ hi)
      (answer : probe (middle lo hi).toNat = .ok .eq) :
      Rounds probe lo hi [middle lo hi] (.ok (true, middle lo hi))
  | failed {lo hi : Int} {e : ε} (some_open : lo ≤ hi)
      (answer : probe (middle lo hi).toNat = .error e) :
      Rounds probe lo hi [middle lo hi] (.error e)
  | less {lo hi : Int} {probed : List Int} {ending : Except ε (Bool × Int)}
      (some_open : lo ≤ hi) (answer : probe (middle lo hi).toNat = .ok .lt)
      (rest : Rounds probe (middle lo hi + 1) hi probed ending) :
      Rounds probe lo hi (middle lo hi :: probed) ending
  | greater {lo hi : Int} {probed : List Int} {ending : Except ε (Bool × Int)}
      (some_open : lo ≤ hi) (answer : probe (middle lo hi).toNat = .ok .gt)
      (rest : Rounds probe lo (middle lo hi - 1) probed ending) :
      Rounds probe lo hi (middle lo hi :: probed) ending

theorem middle_eq (hlo : 0 ≤ lo) (h : lo ≤ hi) : middle lo hi = (lo + hi) / 2 :=
  Int.tdiv_eq_ediv_of_nonneg (by omega)

theorem middle_natCast {lo hi : Nat} (h : lo < hi) :
    middle lo (hi - 1) = ((lo + hi - 1) / 2 : Nat) := by
  rw [middle_eq (by omega) (by omega)]
  omega

theorem probe_middle (probe : Nat → Except ε Ordering) {lo hi : Nat} (h : lo < hi) :
    probe (middle lo (hi - 1)).toNat = probe ((lo + hi - 1) / 2) := by
  rw [middle_natCast h, Int.toNat_natCast]

namespace Rounds

/-- Between bounds that are not negative every probe is between the bounds. -/
theorem inside (h : Rounds probe lo hi probed ending) (hlo : 0 ≤ lo) :
    ∀ i ∈ probed, lo ≤ i ∧ i ≤ hi := by
  induction h with
  | closed _ => simp
  | equal hopen _ | failed hopen _ =>
    have hmid := middle_eq hlo hopen
    intro i hi
    rw [List.mem_singleton.mp hi]
    omega
  | less hopen _ _ ih | greater hopen _ _ ih =>
    have hmid := middle_eq hlo hopen
    intro i hi
    rcases List.mem_cons.mp hi with rfl | hi
    · omega
    · have hbounds := ih (by omega) i hi
      omega

/-- What is open after a round is no more than half of what was, so its number has one
binary digit less. -/
theorem length_le (h : Rounds probe lo hi probed ending) (hlo : 0 ≤ lo) {k : Nat}
    (hk : (hi + 1 - lo).toNat.size ≤ k) : probed.length ≤ k := by
  induction h generalizing k with
  | closed _ => simp
  | equal hopen _ | failed hopen _ =>
    exact Nat.lt_of_lt_of_le (Nat.size_pos.mpr (by omega)) hk
  | less hopen _ _ ih | greater hopen _ _ ih =>
    have hmid := middle_eq hlo hopen
    cases k with
    | zero => exact absurd (Nat.size_pos.mpr (by omega)) (Nat.not_lt.mpr hk)
    | succ k =>
      rw [Nat.size_le, Nat.pow_succ] at hk
      have hrest := ih (by omega) (Nat.size_le.mpr (by omega) : _ ≤ k)
      simpa using hrest

/-- The answers decide each round, so there is one way through. -/
theorem unique {probed' : List Int} {ending' : Except ε (Bool × Int)}
    (h : Rounds probe lo hi probed ending) (h' : Rounds probe lo hi probed' ending') :
    probed' = probed ∧ ending' = ending := by
  induction h generalizing probed' with
  | closed hclosed =>
    cases h' with
    | closed _ => simp
    | equal hopen _ | failed hopen _ | less hopen _ _ | greater hopen _ _ => omega
  | equal _ hanswer =>
    cases h' with
    | equal _ _ => simp
    | closed hclosed => omega
    | failed _ hanswer' | less _ hanswer' _ | greater _ hanswer' _ => simp [hanswer] at hanswer'
  | failed _ hanswer =>
    cases h' with
    | failed _ hanswer' => simpa [hanswer, eq_comm] using hanswer'
    | closed hclosed => omega
    | equal _ hanswer' | less _ hanswer' _ | greater _ hanswer' _ => simp [hanswer] at hanswer'
  | less _ hanswer _ ih =>
    cases h' with
    | less _ _ hrest => simpa using ih hrest
    | closed hclosed => omega
    | equal _ hanswer' | failed _ hanswer' | greater _ hanswer' _ => simp [hanswer] at hanswer'
  | greater _ hanswer _ ih =>
    cases h' with
    | greater _ _ hrest => simpa using ih hrest
    | closed hclosed => omega
    | equal _ hanswer' | failed _ hanswer' | less _ hanswer' _ => simp [hanswer] at hanswer'

theorem congr {probe' : Nat → Except ε Ordering} (h : Rounds probe lo hi probed ending)
    (hsame : ∀ i ∈ probed, probe' i.toNat = probe i.toNat) :
    Rounds probe' lo hi probed ending := by
  induction h with
  | closed hclosed => exact .closed hclosed
  | equal hopen hanswer => exact .equal hopen ((hsame _ (by simp)).trans hanswer)
  | failed hopen hanswer => exact .failed hopen ((hsame _ (by simp)).trans hanswer)
  | less hopen hanswer _ ih =>
    exact .less hopen ((hsame _ (by simp)).trans hanswer)
      (ih fun i hi => hsame i (List.mem_cons_of_mem _ hi))
  | greater hopen hanswer _ ih =>
    exact .greater hopen ((hsame _ (by simp)).trans hanswer)
      (ih fun i hi => hsame i (List.mem_cons_of_mem _ hi))

end Rounds

/-- Bisection goes through the rounds, and ends as they do. -/
theorem exists_rounds (probe : Nat → Except ε Ordering) {lo hi : Nat} (hle : lo ≤ hi) :
    ∃ probed, Rounds probe lo (hi - 1) probed (Position.last <$> bisect probe lo hi) := by
  induction lo, hi using bisect.induct probe with
  | case1 lo hi hlt mid hanswer ih =>
    obtain ⟨probed, hrest⟩ := ih (by omega)
    rw [bisect_of_lt hlt, hanswer]
    refine ⟨_ :: probed, .less (by omega) ((probe_middle probe hlt).trans hanswer) ?_⟩
    rw [middle_natCast hlt]
    exact hrest
  | case2 lo hi hlt mid hanswer ih =>
    obtain ⟨probed, hrest⟩ := ih (by omega)
    rw [bisect_of_lt hlt, hanswer]
    refine ⟨_ :: probed, .greater (by omega) ((probe_middle probe hlt).trans hanswer) ?_⟩
    rw [middle_natCast hlt]
    exact hrest
  | case3 lo hi hlt mid hanswer =>
    rw [bisect_of_lt hlt, hanswer]
    show ∃ probed, Rounds probe lo (hi - 1) probed (.ok (true, (mid : Int)))
    rw [← middle_natCast hlt]
    exact ⟨_, .equal (by omega) ((probe_middle probe hlt).trans hanswer)⟩
  | case4 lo hi hlt mid e hanswer =>
    rw [bisect_of_lt hlt, hanswer]
    exact ⟨_, .failed (by omega) ((probe_middle probe hlt).trans hanswer)⟩
  | case5 lo hi hlt =>
    obtain rfl : lo = hi := by omega
    rw [bisect_self]
    exact ⟨[], .closed (by omega)⟩

end Rounds

/-! ## Answers in ascending order -/

section Answers

variable {ε : Type} {probe : Nat → Except ε Ordering} {n : Nat} {answers : List Ordering}

/-- The answers of records in ascending order: some are smaller, no more than one is
equal, and the others are greater. -/
def AscendingAnswers (answers : List Ordering) : Prop :=
  ∃ less equal greater, equal ≤ 1 ∧ answers =
    List.replicate less .lt ++ List.replicate equal .eq ++ List.replicate greater .gt

/-- The ending is that of a scan from the front: the bound is the record that is equal,
or the last of those that are smaller. -/
structure EndsAsScan (probe : Nat → Except ε Ordering) (n : Nat) (answers : List Ordering)
    (ending : Except ε (Bool × Int)) : Prop where
  scan_eq : Position.last <$> scan probe 0 n = ending
  equal : ∀ i : Nat, answers[i]? = some .eq → ending = .ok (true, i)
  not_equal : .eq ∉ answers → ∃ last, ending = .ok (false, last) ∧
    last + 1 = answers.count .lt ∧ (last = -1 ↔ answers.head? = some .gt)

theorem AscendingAnswers.pairwise (h : AscendingAnswers answers) :
    answers.Pairwise fun a b => a = .lt ∨ b = .gt := by
  obtain ⟨less, equal, greater, hequal, rfl⟩ := h
  simp [List.pairwise_append, List.pairwise_replicate]
  omega

variable (hanswers : (List.range n).map probe = answers.map .ok)
include hanswers

theorem length_answers : answers.length = n := by
  simpa using (congrArg List.length hanswers).symm

theorem probe_of_answers {i : Nat} {answer : Ordering} :
    answers[i]? = some answer ↔ i < n ∧ probe i = .ok answer := by
  have hlength := length_answers hanswers
  have hplace : ((List.range n).map probe)[i]? = (answers.map .ok)[i]? := by rw [hanswers]
  rcases Nat.lt_or_ge i n with hi | hi
  · rw [List.getElem?_map, List.getElem?_range hi, List.getElem?_map] at hplace
    obtain ⟨found, hfound, heq⟩ := Option.map_eq_some_iff.mp hplace.symm
    simp [hfound, ← heq, hi]
  · simp [List.getElem?_eq_none (by omega : answers.length ≤ i), Nat.not_lt.mpr hi]

theorem probe_eq_getElem {i : Nat} (hi : i < answers.length) : probe i = .ok answers[i] :=
  ((probe_of_answers hanswers).mp (List.getElem?_eq_getElem hi)).2

theorem AscendingAnswers.ascends (h : AscendingAnswers answers) : Ascends probe n where
  answers i hi := by
    rw [← length_answers hanswers] at hi
    exact ⟨answers[i], probe_eq_getElem hanswers hi⟩
  splits i j hij hj := by
    rw [← length_answers hanswers] at hj
    have hi := Nat.lt_trans hij hj
    rw [probe_eq_getElem hanswers hi, probe_eq_getElem hanswers hj]
    simpa using List.pairwise_iff_getElem.mp h.pairwise i j hi hj hij

/-- The records in front of a gap are those that are smaller. -/
theorem count_lt_of_locates {smaller : Nat} (h : (Position.gap smaller).Locates probe n) :
    answers.count .lt = smaller := by
  obtain ⟨hle, hlt, hgt⟩ := h
  have hlength := length_answers hanswers
  have hfront : (answers.take smaller).count .lt = (answers.take smaller).length := by
    refine List.count_eq_length.mpr fun answer hmem => ?_
    obtain ⟨i, hi⟩ := List.mem_iff_getElem?.mp hmem
    rw [List.getElem?_take] at hi
    split at hi
    · next hsmaller =>
      have hsmall := hlt i hsmaller
      rw [((probe_of_answers hanswers).mp hi).2] at hsmall
      simpa [eq_comm] using hsmall
    · cases hi
  have hback : (answers.drop smaller).count .lt = 0 := by
    refine List.count_eq_zero.mpr fun hmem => ?_
    obtain ⟨i, hi⟩ := List.mem_iff_getElem?.mp hmem
    rw [List.getElem?_drop, probe_of_answers hanswers] at hi
    have hgreater := hgt (smaller + i) (Nat.le_add_right _ _) hi.1
    simp [hi.2] at hgreater
  rw [← List.take_append_drop smaller answers, List.count_append, hfront, hback, List.length_take]
  omega

theorem AscendingAnswers.endsAsScan (h : AscendingAnswers answers) (hn : 0 < n) :
    EndsAsScan probe n answers (Position.last <$> bisect probe 0 n) := by
  have hascends := h.ascends hanswers
  obtain ⟨p, hp, hlocates⟩ := hascends.bisect_locates
  constructor
  · rw [hascends.bisect_eq_scan]
  · intro i hi
    have hfound : (Position.found i).Locates probe n := (probe_of_answers hanswers).mp hi
    rw [hp, hascends.locates_unique hlocates hfound]
    rfl
  · intro hne
    cases p with
    | found i =>
      exact absurd (List.mem_of_getElem? ((probe_of_answers hanswers).mpr hlocates)) hne
    | gap smaller =>
      refine ⟨smaller - 1, by rw [hp]; rfl, ?_, ?_⟩
      · rw [count_lt_of_locates hanswers hlocates]
        omega
      · rw [List.head?_eq_getElem?, probe_of_answers hanswers]
        obtain ⟨-, hlt, hgt⟩ := hlocates
        constructor
        · intro hlast
          exact ⟨hn, hgt 0 (by omega) hn⟩
        · rintro ⟨-, hgreater⟩
          rcases Nat.eq_zero_or_pos smaller with rfl | hpos
          · rfl
          · simp [hlt 0 hpos] at hgreater

end Answers

/-! ## In a node -/

namespace Tree

variable {order : KeyedRecord → Except Error Ordering} {node : Node}

theorem turn_index_eq_last (number : UInt32) (hkind : node.kind = .ok .index)
    (hpos : 0 < node.recordCount) :
    turn order number node =
      (Position.last <$> bisect (probe order node) 0 node.recordCount) >>= fun (_, last) =>
        if last < 0 then .error .notFound else Turn.down <$> childAt node last.toNat := by
  rw [turn_index number hkind (Nat.ne_of_gt hpos)]
  cases bisect (probe order node) 0 node.recordCount with
  | error e => rfl
  | ok position =>
    have below : ∀ (i : Nat) (last : Int), last = i → Turn.down <$> childAt node i =
        if last < 0 then .error .notFound else Turn.down <$> childAt node last.toNat := by
      rintro i last rfl
      rw [if_neg (by omega), Int.toNat_natCast]
    rcases position with i | _ | i
    · exact below i i rfl
    · rfl
    · exact below i ((i + 1 : Nat) - 1) (by omega)

section Descent

variable {load : UInt32 → Run Node} {id : CatalogId} {levels : Nat} {number : UInt32}
  (hload : (load number).result = .ok node)
include hload

/-- At a leaf the search ends with the record at the bound, if it is equal. -/
theorem result_descend_of_leaf (hkind : node.kind = .ok .leaf) :
    (descend load order id (levels + 1) number).result =
      (Position.last <$> bisect (probe order node) 0 node.recordCount).bind
        fun (equal, last) => if equal then .ok ⟨node, last.toNat⟩ else .error .notFound := by
  rw [result_descend_of_load hload, turn_leaf number hkind]
  cases bisect (probe order node) 0 node.recordCount with
  | error e => rfl
  | ok position => cases position <;> rfl

/-- At an index node the search goes on below the record at the bound, if there is one. -/
theorem result_descend_of_index (hkind : node.kind = .ok .index) (hpos : 0 < node.recordCount) :
    (descend load order id (levels + 1) number).result =
      (Position.last <$> bisect (probe order node) 0 node.recordCount).bind fun (_, last) =>
        if last < 0 then .error .notFound
        else (childAt node last.toNat).bind fun child =>
          (descend load order id levels child).result := by
  rw [result_descend_of_load hload, turn_index_eq_last number hkind hpos]
  generalize Position.last <$> bisect (probe order node) 0 node.recordCount = ending
  cases ending with
  | error e => rfl
  | ok stop =>
    obtain ⟨equal, last⟩ := stop
    show (if last < 0 then _ else Turn.down <$> childAt node last.toNat).bind _ =
      if last < 0 then _ else _
    split
    · rfl
    · cases childAt node last.toNat <;> rfl

end Descent

/-- The search in a node, whatever its records answer: the indices it probes, how its
loop ends, and where it goes from there. -/
structure SearchesNode (order : KeyedRecord → Except Error Ordering) (node : Node)
    (probed : List Int) (ending : Except Error (Bool × Int)) : Prop where
  /-- The loop ends, and in one way only. -/
  rounds : ∀ {probed' ending'},
    Rounds (probe order node) 0 (node.recordCount - 1) probed' ending' ↔
      probed' = probed ∧ ending' = ending
  inside : ∀ i ∈ probed, 0 ≤ i ∧ i < node.recordCount
  /-- There are no more probes than the number of the records has binary digits. -/
  few : probed.length ≤ node.recordCount.size
  /-- No bound is too large for a word, nor is a sum of two. -/
  words : Checked.bisect (fun i => liftM (probe order node i)) (node.recordCount + 1) 0
    (node.recordCount - 1) = liftM ending
  /-- Bisection ends as the loop does, and would if all that is not probed answered
  otherwise. -/
  bisect_eq : ∀ {probe' : Nat → Except Error Ordering},
    (∀ i ∈ probed, probe' i.toNat = probe order node i.toNat) →
    Position.last <$> bisect probe' 0 node.recordCount = ending
  leaf : ∀ {load id levels number}, node.kind = .ok .leaf → (load number).result = .ok node →
    (descend load order id (levels + 1) number).result =
      ending.bind fun (equal, last) =>
        if equal then .ok ⟨node, last.toNat⟩ else .error .notFound
  index : ∀ {load id levels number}, node.kind = .ok .index → 0 < node.recordCount →
    (load number).result = .ok node →
    (descend load order id (levels + 1) number).result =
      ending.bind fun (_, last) =>
        if last < 0 then .error .notFound
        else (childAt node last.toNat).bind fun child =>
          (descend load order id levels child).result

theorem exists_searchesNode (order : KeyedRecord → Except Error Ordering) (node : Node) :
    ∃ probed, SearchesNode order node probed
      (Position.last <$> bisect (probe order node) 0 node.recordCount) := by
  have hcount : node.recordCount < 65536 := node.descriptor.recordCount.toNat_lt
  obtain ⟨probed, hrounds⟩ := exists_rounds (probe order node) (Nat.zero_le node.recordCount)
  refine ⟨probed, ?_⟩
  constructor
  case rounds =>
    intro probed' ending'
    constructor
    · exact hrounds.unique
    · rintro ⟨rfl, rfl⟩
      exact hrounds
  case inside =>
    intro i hi
    have hbounds := hrounds.inside (Int.le_refl 0) i hi
    omega
  case few =>
    have hopen : ((node.recordCount : Int) - 1 + 1 - (0 : Nat)).toNat = node.recordCount := by
      omega
    exact hrounds.length_le (Int.le_refl 0) (Nat.le_of_eq (by rw [hopen]))
  case words => exact Checked.bisect_eq (fun _ => rfl) (Nat.zero_le _) (by omega) (by omega)
  case bisect_eq =>
    intro probe' hsame
    obtain ⟨probed', hrounds'⟩ := exists_rounds probe' (Nat.zero_le node.recordCount)
    exact ((hrounds.congr hsame).unique hrounds').2
  case leaf =>
    intro load id levels number hkind hload
    exact result_descend_of_leaf hload hkind
  case index =>
    intro load id levels number hkind hpos hload
    exact result_descend_of_index hload hkind hpos

theorem map_probe_of_records {records : List KeyedRecord} {answers : List Ordering}
    (hrecords : node.hits.map Hit.keyedRecord = records.map .ok)
    (hanswers : records.map order = answers.map .ok) :
    (List.range node.recordCount).map (probe order node) = answers.map .ok :=
  calc (List.range node.recordCount).map (probe order node)
    _ = (node.hits.map Hit.keyedRecord).map (· >>= order) := by
      simp only [Node.hits, List.map_map]
      rfl
    _ = records.map order := by
      rw [hrecords, List.map_map]
      rfl
    _ = answers.map .ok := hanswers

/-- The loop of a search in a node ends, whatever the comparison of its records with the key
answers, and probes records of the node only. Where the records can be compared and are in
ascending order, it ends as a scan of them does. -/
theorem rounds_end_as_scan (order : KeyedRecord → Except Error Ordering) (node : Node) :
    ∃ probed ending, SearchesNode order node probed ending ∧
      ∀ (records : List KeyedRecord) (answers : List Ordering), 0 < node.recordCount →
        node.hits.map Hit.keyedRecord = records.map .ok →
        records.map order = answers.map .ok → AscendingAnswers answers →
        EndsAsScan (probe order node) node.recordCount answers ending := by
  obtain ⟨probed, hsearches⟩ := exists_searchesNode order node
  refine ⟨probed, _, hsearches, fun records answers hpos hrecords hanswers hascending => ?_⟩
  exact hascending.endsAsScan (map_probe_of_records hrecords hanswers) hpos

/-! ### A sample

An index node with seven records, the odd numbers from 1 to 13, each with itself for a
child. -/

def oddNode : Node :=
  NodeContents.node {
    forwardLink := 0
    backwardLink := 0
    kind := .index
    height := 2
    reserved := 0
    records := [1, 3, 5, 7, 9, 11, 13].map fun k => [0, 1, k, 0, 0, 0, k]
    free := [] } 1

def oddRecords : List KeyedRecord := [1, 3, 5, 7, 9, 11, 13].map fun k => ⟨[k], [0, 0, 0, k]⟩

theorem odd_keyedRecords : oddNode.hits.map Hit.keyedRecord = oddRecords.map .ok :=
  (NodeContents.map_keyedRecord_node _ (by decide) 1).trans (by decide)

theorem recordCount_oddNode : oddNode.recordCount = 7 := by decide

theorem odd_probe (key : Bytes) {i : Nat} {answer : Ordering}
    (h : (oddRecords.map fun r => compare r.key key)[i]? = some answer) :
    probe (byBytes.order key) oddNode i = .ok answer :=
  ((probe_of_answers (map_probe_of_records odd_keyedRecords (by rw [List.map_map]; rfl))).mp h).2

/-- A search for 11 probes 7 and then 11, where it stops. One for 0 probes 7, 3 and 1, and
stops in front of all records. -/
theorem odd_rounds :
    SearchesNode (byBytes.order [11]) oddNode [3, 5] (.ok (true, 5)) ∧
    EndsAsScan (probe (byBytes.order [11]) oddNode) oddNode.recordCount
      [.lt, .lt, .lt, .lt, .lt, .eq, .gt] (.ok (true, 5)) ∧
    SearchesNode (byBytes.order [0]) oddNode [3, 1, 0] (.ok (false, -1)) ∧
    EndsAsScan (probe (byBytes.order [0]) oddNode) oddNode.recordCount
      [.gt, .gt, .gt, .gt, .gt, .gt, .gt] (.ok (false, -1)) := by
  have hlast : (oddNode.recordCount : Int) - 1 = 6 := by rw [recordCount_oddNode]; rfl
  obtain ⟨probed, ending, hfound, hscanned⟩ :=
    rounds_end_as_scan (byBytes.order [11]) oddNode
  have hrounds : Rounds (probe (byBytes.order [11]) oddNode) 0 6 [3, 5] (.ok (true, 5)) :=
    .less (by decide) (odd_probe _ rfl) (.equal (by decide) (odd_probe _ rfl))
  obtain ⟨rfl, rfl⟩ := hfound.rounds.mp (hlast ▸ hrounds)
  obtain ⟨probed', ending', hmissed, hscanned'⟩ :=
    rounds_end_as_scan (byBytes.order [0]) oddNode
  have hrounds' : Rounds (probe (byBytes.order [0]) oddNode) 0 6 [3, 1, 0] (.ok (false, -1)) :=
    .greater (by decide) (odd_probe _ rfl) (.greater (by decide) (odd_probe _ rfl)
      (.greater (by decide) (odd_probe _ rfl) (.closed (by decide))))
  obtain ⟨rfl, rfl⟩ := hmissed.rounds.mp (hlast ▸ hrounds')
  exact ⟨hfound,
    hscanned oddRecords _ (by decide) odd_keyedRecords (by decide) ⟨5, 1, 1, by decide, rfl⟩,
    hmissed,
    hscanned' oddRecords _ (by decide) odd_keyedRecords (by decide) ⟨0, 0, 7, by decide, rfl⟩⟩

end Tree

end HfsPlus
