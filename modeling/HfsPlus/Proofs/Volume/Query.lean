import HfsPlus.Proofs.Tree.Blocks
import HfsPlus.Volume.Contents
import HfsPlus.Volume.Path

/-!
# What can be asked of a mounted volume

A `Query` is one question to a mounted volume, and a `Plan` is a client that asks
one after another, each chosen by what came of those before.

All that a query has from the device are blocks of one fork: of the catalog's,
or of an entry's own when the entry is read (`Query.reads`). Nothing that lies on
the volume can make it reach outside, and so nothing outside can make a
difference to it (`Query.run_congr`). Plans inherit this query by query.
-/

namespace HfsPlus

namespace Volume

variable {v : Volume} {dev' : Device}

/-! ## The blocks of each operation -/

theorem reads_entryOf (dev : Device) (P : Nat → Prop) (hit : Hit) :
    Run.Reads dev P (entryOf hit) := by
  rw [entryOf]
  refine (Run.Reads.liftM _).bind fun r _ => (Run.Reads.liftM _).bind fun key _ =>
    (Run.Reads.liftM _).bind fun record _ => ?_
  split
  · exact (Run.Reads.note _).bind fun _ _ => .pure _
  · exact (Run.Reads.pure _).bind fun _ _ => .pure _

theorem reads_lookup (v : Volume) (folder : Entry) (name : Name) :
    Run.Reads v.device v.catalog.fork.extents.Covers (v.lookup folder name) := by
  simp only [lookup]
  split
  · exact (Tree.reads_search v.device v.catalog _ _).bind fun hit _ =>
      (reads_entryOf v.device _ hit).bind fun entry _ => (Run.Reads.note _).bind fun _ _ => .pure _
  · exact .fail _

theorem reads_entryAt (v : Volume) (folder : Entry) (position : Nat) :
    Run.Reads v.device v.catalog.fork.extents.Covers (v.entryAt folder position) := by
  refine (Tree.reads_search v.device v.catalog _ _).bind fun hit _ =>
    (Run.Reads.liftM _).bind fun r _ => (Run.Reads.liftM _).bind fun found _ => ?_
  split
  · exact reads_entryOf v.device _ hit
  · exact (Run.Reads.note _).bind fun _ _ => .fail _

theorem reads_next (v : Volume) (c : Cursor) :
    Run.Reads v.device v.catalog.fork.extents.Covers (c.next v).1 := by
  have hread := reads_entryAt v c.folder c.position.toNat
  rw [Cursor.next]
  split <;> exact hread

theorem reads_walk (v : Volume) (names : List Name) : ∀ start : Entry,
    Run.Reads v.device v.catalog.fork.extents.Covers (v.walk start names) := by
  induction names with
  | nil =>
    intro start
    exact .pure _
  | cons name rest ih =>
    intro start
    rw [walk, List.foldlM_cons]
    refine Run.Reads.bind ?_ fun entry _ => ih entry
    rw [enter]
    split
    · exact reads_lookup v start name
    · exact .fail _

theorem reads_read (v : Volume) (entry : Entry) (pos len : Nat) :
    Run.Reads v.device entry.dataFork.extents.Covers (v.read entry pos len) := by
  rw [read]
  split
  · exact .fail _
  · exact Fork.reads_readAt v.device entry.dataFork pos len

theorem reads_readLink (v : Volume) (entry : Entry) :
    Run.Reads v.device entry.dataFork.extents.Covers (v.readLink entry) := by
  rw [readLink]
  split
  · exact .pure _
  · exact Fork.reads_readWhole v.device entry.dataFork _
  · exact .fail _

/-! ## What each depends on

Of a volume on another device the same is read if the devices agree where it
matters. -/

section Congr

variable (h : Device.Agree v.catalog.fork.extents.Covers v.device dev')
include h

theorem lookup_congr (folder : Entry) (name : Name) :
    ({ v with device := dev' } : Volume).lookup folder name = v.lookup folder name := by
  simp only [lookup, Tree.search_congr h]

theorem next_congr (c : Cursor) : c.next { v with device := dev' } = c.next v := by
  simp only [Cursor.next, entryAt, Tree.search_congr h]

theorem lookupPath_congr (path : String) :
    ({ v with device := dev' } : Volume).lookupPath path = v.lookupPath path := by
  have henter : enter { v with device := dev' } = v.enter := by
    funext entry name
    simp only [enter, lookup_congr h]
  rw [lookupPath, lookupPath, walk, walk, henter]

end Congr

theorem read_congr {entry : Entry}
    (h : Device.Agree entry.dataFork.extents.Covers v.device dev') (pos len : Nat) :
    ({ v with device := dev' } : Volume).read entry pos len = v.read entry pos len := by
  simp only [read, Fork.readAt_congr h]

theorem readLink_congr {entry : Entry}
    (h : Device.Agree entry.dataFork.extents.Covers v.device dev') :
    ({ v with device := dev' } : Volume).readLink entry = v.readLink entry := by
  simp only [readLink, Fork.readWhole_congr h]

end Volume

/-! ## Queries -/

/-- A question to a mounted volume, by the type of its answer. -/
inductive Query : Type → Type where
  | readNode (number : UInt32) : Query Node
  | search (order : KeyedRecord → Except Error Ordering) (skip : Nat) : Query Hit
  | lookup (folder : Entry) (name : Name) : Query Entry
  | next (c : Cursor) : Query (Entry × Cursor)
  | lookupPath (path : String) : Query Entry
  | read (entry : Entry) (pos len : Nat) : Query Bytes
  | readLink (entry : Entry) : Query Bytes

namespace Query

variable {α : Type} {v : Volume} {dev' : Device}

/-- What the volume does to answer. -/
def run (v : Volume) : Query α → Run α
  | .readNode number => v.catalog.readNode v.device number
  | .search order skip => v.catalog.search v.device order skip
  | .lookup folder name => v.lookup folder name
  | .next c => (·, (c.next v).2) <$> (c.next v).1
  | .lookupPath path => v.lookupPath path
  | .read entry pos len => v.read entry pos len
  | .readLink entry => v.readLink entry

/-- Where the fork lies that the question is about: the catalog, or what the entry holds. -/
def extents (v : Volume) : Query α → ExtentRecord
  | .readNode _ | .search _ _ | .lookup _ _ | .next _ | .lookupPath _ => v.catalog.fork.extents
  | .read entry _ _ | .readLink entry => entry.dataFork.extents

theorem reads (v : Volume) (q : Query α) :
    Run.Reads v.device (q.extents v).Covers (q.run v) := by
  cases q with
  | readNode number => exact Tree.reads_readNode v.device v.catalog number
  | search order skip => exact Tree.reads_search v.device v.catalog order skip
  | lookup folder name => exact Volume.reads_lookup v folder name
  | next c => exact (Volume.reads_next v c).map _
  | lookupPath path => exact Volume.reads_walk v _ .root
  | read entry pos len => exact Volume.reads_read v entry pos len
  | readLink entry => exact Volume.reads_readLink v entry

theorem run_congr (q : Query α) (h : Device.Agree (q.extents v).Covers v.device dev') :
    q.run { v with device := dev' } = q.run v := by
  cases q with
  | readNode number => exact Tree.readNode_congr h number
  | search order skip => exact Tree.search_congr h order skip
  | lookup folder name => exact Volume.lookup_congr h folder name
  | next c => simp only [run, Volume.next_congr h]
  | lookupPath path => exact Volume.lookupPath_congr h path
  | read entry pos len => exact Volume.read_congr h pos len
  | readLink entry => exact Volume.readLink_congr h

end Query

/-! ## Plans -/

/-- A client of a volume. It is told what came of a query, and asks the next. -/
inductive Plan (β : Type) : Type 1 where
  | done (b : β) : Plan β
  | ask {α : Type} (q : Query α) (next : Except Error α → Plan β) : Plan β

namespace Plan

variable {β : Type} {v : Volume} {dev' : Device} {P : Nat → Prop}

/-- Asks until the client is done. An error is an answer, and ends nothing. -/
def run (v : Volume) : Plan β → Run β
  | .done b => pure b
  | .ask q next => do
    let answer ← (q.run v).attempt
    (next answer).run v

/-- What the client asks of this volume is about forks in blocks with `P`. -/
inductive Within (v : Volume) (P : Nat → Prop) : Plan β → Prop where
  | done (b : β) : Within v P (.done b)
  | ask {α : Type} {q : Query α} {next : Except Error α → Plan β}
      (covered : ∀ block, (q.extents v).Covers block → P block)
      (rest : Within v P (next (q.run v).result)) : Within v P (.ask q next)

theorem Within.run_congr {plan : Plan β} (h : plan.Within v P)
    (hagree : Device.Agree P v.device dev') :
    plan.run { v with device := dev' } = plan.run v := by
  induction h with
  | done b => rfl
  | @ask α q next covered rest ih =>
    rw [run, run, q.run_congr (hagree.mono covered)]
    refine Run.bind_congr_of_ok fun answer hanswer => ?_
    cases hanswer
    exact ih

end Plan

end HfsPlus
