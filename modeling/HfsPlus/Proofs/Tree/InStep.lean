import HfsPlus.Proofs.Tree.Absence

/-!
# Searches in step

A search has its nodes from a loader, and does little besides: it looks at what
it has loaded, tells where it goes down, and ends in an error of its own or in a
hit. `Run.InStep` says of two runs that they do all this side by side, each with
a loader of its own, and `inStep_searchWith` that two searches do, if their loaders
give nodes that a search treats alike. This is the one place where the two walks
are gone through. What is to be shown of searches is shown of runs in step, by an
induction with one case for each thing that a run may do.

For a single search there is `Run.Loads`, which is a run in step with itself. The
errors that a run has of its own are known by a property, and `Absence` is there to
say when one of them is that nothing was found.
-/

namespace HfsPlus

/-! ## Runs that load nodes -/

namespace Run

variable {α β γ : Type} {load load' : UInt32 → Run Node} {R : Node → Node → Prop}
  {E : Error → Prop} {Q : α → β → Prop} {r : Run α} {r' : Run β}

/-- A run that has to do with nodes only by loading them, that tells of its way down
and of nothing else, and that has no errors of its own but some with `E`. -/
inductive Loads (load : UInt32 → Run Node) (E : Error → Prop) : {α : Type} → Run α → Prop where
  | ofExcept {α : Type} {x : Except Error α} (own : ∀ e, x = .error e → E e) :
      Loads load E (Run.ofExcept x)
  | descending (id : CatalogId) (child : UInt32) :
      Loads load E (Run.note (.descending id child))
  | load (number : UInt32) : Loads load E (load number)
  | bind {α β : Type} {r : Run α} {next : α → Run β} (first : Loads load E r)
      (behind : ∀ a, r.result = .ok a → Loads load E (next a)) : Loads load E (r >>= next)

/-- Two such runs with a loader each. They load the same nodes and give the same
notices; the nodes of one number correspond, and with these the errors are the same
and so do the values. -/
inductive InStep (load load' : UInt32 → Run Node) (R : Node → Node → Prop) (E : Error → Prop) :
    {α β : Type} → (α → β → Prop) → Run α → Run β → Prop where
  | ofExcept {α β : Type} {Q : α → β → Prop} {x : Except Error α} {y : Except Error β}
      (alike : EndsAlike Q x y) (own : ∀ e, x = .error e → E e) :
      InStep load load' R E Q (Run.ofExcept x) (Run.ofExcept y)
  | descending (id : CatalogId) (child : UInt32) :
      InStep load load' R E Eq (Run.note (.descending id child)) (Run.note (.descending id child))
  | load (number : UInt32) : InStep load load' R E R (load number) (load' number)
  | bind {α β γ δ : Type} {Q : α → β → Prop} {S : γ → δ → Prop} {r : Run α} {r' : Run β}
      {next : α → Run γ} {next' : β → Run δ} (first : InStep load load' R E Q r r')
      (behind : ∀ a b, r.result = .ok a → Q a b → InStep load load' R E S (next a) (next' b)) :
      InStep load load' R E S (r >>= next) (r' >>= next')

namespace InStep

theorem pure {a : α} {b : β} (h : Q a b) :
    InStep load load' R E Q (Pure.pure a) (Pure.pure b) :=
  .ofExcept (.ended h) nofun

theorem fail {e : Error} (h : E e) :
    InStep load load' R E Q (Run.fail e : Run α) (Run.fail e : Run β) := by
  refine .ofExcept (.failed e) fun e' he => ?_
  cases he
  exact h

theorem endsAlike (h : InStep load load' R E Q r r')
    (hload : ∀ number, EndsAlike R (load number).result (load' number).result) :
    EndsAlike Q r.result r'.result := by
  induction h with
  | ofExcept alike _ => exact alike
  | descending id child => exact .ended rfl
  | load number => exact hload number
  | bind _ _ ih ihbehind =>
    rw [result_bind, result_bind]
    exact ih.bind_of_ok ihbehind

theorem result_eq {r r' : Run α} (h : InStep load load' Eq E Eq r r')
    (hload : ∀ number, (load number).result = (load' number).result) :
    r.result = r'.result :=
  (h.endsAlike fun number => hload number ▸ .refl _).eq

/-- The second of two runs in step. -/
theorem loads (h : InStep load load' R E Q r r')
    (hload : ∀ number, EndsAlike R (load number).result (load' number).result) :
    Loads load' E r' := by
  induction h with
  | ofExcept alike own => exact .ofExcept fun e he => own e (alike.error_iff.mpr he)
  | descending id child => exact .descending id child
  | load number => exact .load number
  | bind first _ ih ihbehind =>
    refine .bind ih fun b hb => ?_
    obtain ⟨a, ha, hab⟩ := (first.endsAlike hload).exists_of_ok_right hb
    exact ihbehind a b ha hab

/-- What is read off the single events is the same in both, if it is for loads. -/
theorem filterMap_events (h : InStep load load' R E Q r r')
    (hload : ∀ number, EndsAlike R (load number).result (load' number).result)
    {f : Event → Option γ} (hevents : ∀ number,
      (load' number).events.filterMap f = (load number).events.filterMap f) :
    r'.events.filterMap f = r.events.filterMap f := by
  induction h with
  | ofExcept _ _ => rfl
  | descending id child => rfl
  | load number => exact hevents number
  | bind first _ ih ihbehind =>
    rcases (first.endsAlike hload).error_or_ok with ⟨e, hr, hr'⟩ | ⟨a, b, hr, hr', hab⟩
    · rw [bind_of_error hr, bind_of_error hr']
      exact ih
    · rw [bind_of_ok hr, bind_of_ok hr', List.filterMap_append, List.filterMap_append, ih,
        ihbehind a b hr hab]

end InStep

end Run

/-! ## The two walks -/

namespace Tree

variable {load load' : UInt32 → Run Node} {R : Node → Node → Prop} {E : Error → Prop}
  {order : KeyedRecord → Except Error Ordering} {tree : Tree}

/-- Records at one index, of nodes that correspond. -/
structure HitsAlike (R : Node → Node → Prop) (hit hit' : Hit) : Prop where
  node : R hit.node hit'.node
  index_eq : hit'.index = hit.index

theorem HitsAlike.eq {hit hit' : Hit} (h : HitsAlike Eq hit hit') : hit = hit' := by
  obtain ⟨node, index⟩ := hit
  obtain ⟨node', index'⟩ := hit'
  rw [Hit.mk.injEq]
  exact ⟨h.node, h.index_eq.symm⟩

/-- If a node that corresponds to another gives the same turn, both ways down go in
step. Their own errors are those of the nodes that they come to, and damage. -/
theorem inStep_descend (id : CatalogId)
    (hturn : ∀ {node node' : Node}, R node node' → ∀ number,
      turn order number node' = turn order number node)
    (hdamage : ∀ damage, E (.corrupted damage)) : ∀ {levels : Nat} {number : UInt32},
    (∀ last e, Reaches load order levels number last → NodeError order last e → E e) →
    Run.InStep load load' R E (HitsAlike R) (descend load order id levels number)
      (descend load' order id levels number) := by
  intro levels
  induction levels with
  | zero =>
    intro number _
    exact .fail (hdamage _)
  | succ levels ih =>
    intro number hown
    rw [descend_succ, descend_succ]
    refine (Run.InStep.load number).bind fun node node' hnode halike => ?_
    rw [hturn halike]
    refine Run.InStep.bind (.ofExcept (.refl _) fun e he =>
      hown node e (.here hnode) (error_of_turn he)) fun t t' ht hsame => ?_
    cases hsame
    cases t with
    | hit index => exact .pure ⟨halike, rfl⟩
    | down child =>
      exact (Run.InStep.descending id child).bind fun _ _ _ _ =>
        ih fun last e hlast => hown last e (.down hnode ht hlast)

theorem inStep_readSibling (hdamage : ∀ damage, E (.corrupted damage)) (next : UInt32) :
    Run.InStep load load' Eq E Eq (readSibling load next) (readSibling load' next) := by
  refine (Run.InStep.load next).bind fun sibling sibling' _ hsame => ?_
  cases hsame
  refine Run.InStep.bind (.ofExcept (.refl _) fun e he => ?_) fun kind kind' _ hsame => ?_
  · obtain ⟨damage, rfl⟩ := sibling.onlyDamage_kind e he
    exact hdamage damage
  · cases hsame
    split
    · exact .fail (hdamage _)
    · split
      · exact .fail (hdamage _)
      · exact .pure rfl

theorem inStep_advance (hdamage : ∀ damage, E (.corrupted damage)) :
    ∀ {hops : Nat} {node : Node} {index skip : Nat},
    (PassesEnd load node index skip → E .notFound) →
    Run.InStep load load' Eq E Eq (advance load tree hops node index skip)
      (advance load' tree hops node index skip) := by
  intro hops
  induction hops with
  | zero =>
    intro node index skip hend
    rw [advance_eq, advance_eq]
    split
    · exact .pure rfl
    · next hshort =>
      split
      · next hlink => exact .fail (hend (.last (Nat.not_lt.mp hshort) hlink))
      · split <;> exact .fail (hdamage _)
  | succ hops ih =>
    intro node index skip hend
    rw [advance_eq, advance_eq]
    split
    · exact .pure rfl
    · next hshort =>
      split
      · next hlink => exact .fail (hend (.last (Nat.not_lt.mp hshort) hlink))
      · split
        · exact .fail (hdamage _)
        · refine (inStep_readSibling hdamage _).bind fun sibling sibling' hsibling hsame => ?_
          cases hsame
          exact ih fun hpasses => hend (.next (Nat.not_lt.mp hshort) hsibling hpasses)

/-- Two searches go in step, whatever their loaders are. They find nothing where the
record is not there, and what other errors there are of their own are damage and
those of the order. -/
theorem inStep_searchWith {skip : Nat} (hdamage : ∀ damage, E (.corrupted damage))
    (habsence : Absence load tree order skip → E .notFound)
    (horder : ∀ r e, e ≠ .notFound → order r = .error e → E e) :
    Run.InStep load load' Eq E Eq (searchWith load tree order skip)
      (searchWith load' tree order skip) := by
  rw [searchWith, searchWith]
  split
  · next hroot => exact .fail (habsence (.emptyTree hroot))
  · refine (inStep_descend tree.id ?_ hdamage fun last e hlast he => ?_).bind
      fun hit hit' hhit halike => ?_
    · rintro node _ rfl number
      rfl
    · cases he with
      | damage damage => exact hdamage damage
      | absent lacks => exact habsence (.noKey hlast lacks)
      | refused ne_notFound answer => exact horder _ _ ne_notFound answer
    · cases halike.eq
      exact inStep_advance hdamage fun hpasses => habsence (.noMore hhit hpasses)

/-- A search with a loader that answers as `load` does. -/
theorem loads_searchWith {skip : Nat} (hload : ∀ number, (load number).result =
      (load' number).result) (hdamage : ∀ damage, E (.corrupted damage))
    (habsence : Absence load tree order skip → E .notFound)
    (horder : ∀ r e, e ≠ .notFound → order r = .error e → E e) :
    Run.Loads load' E (searchWith load' tree order skip) :=
  (inStep_searchWith hdamage habsence horder).loads fun number => hload number ▸ .refl _

/-! With no question asked of the errors: -/

theorem inStep_any (load load' : UInt32 → Run Node) (tree : Tree)
    (order : KeyedRecord → Except Error Ordering) (skip : Nat) :
    Run.InStep load load' Eq (fun _ => True) Eq (searchWith load tree order skip)
      (searchWith load' tree order skip) :=
  inStep_searchWith (fun _ => trivial) (fun _ => trivial) fun _ _ _ _ => trivial

theorem loads_any (load : UInt32 → Run Node) (tree : Tree)
    (order : KeyedRecord → Except Error Ordering) (skip : Nat) :
    Run.Loads load (fun _ => True) (searchWith load tree order skip) :=
  (inStep_any load load tree order skip).loads fun _ => .refl _

end Tree

end HfsPlus
