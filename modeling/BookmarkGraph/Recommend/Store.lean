import BookmarkGraph.Error
import BookmarkGraph.Recommend.Scores

/-!
# The store of recommendations

Strategies hand their results over as writes. A store keeps, for every profile ever written, the
listings inserted since the last time the profile was cleared, and counts the writes of both kinds.

A `Sink` is a store behind a gate that can refuse one write, told by its number; all other writes
reach the store.
-/

namespace BookmarkGraph

/-- A write to a store of recommendations. -/
inductive Write where
  /-- Forget all listings of a profile. -/
  | clear (profile : ElementId)
  /-- Append a listing to those of a profile. -/
  | insert (profile : ElementId) (entry : ScoredListing)
deriving DecidableEq, Repr

/-- The writes that put a ranked list in the place of what a profile had. -/
def RankedList.writes (list : RankedList) : List Write :=
  .clear list.profile :: list.listings.map (.insert list.profile)

/-- The listings of profiles, kept in memory. -/
structure Store where
  /-- Listings by profile, the profile written first at the head. -/
  rows : Table ElementId (List ScoredListing)
  /-- The number of times that a profile was cleared. -/
  deletes : Nat
  /-- The number of listings inserted. -/
  inserts : Nat
deriving DecidableEq, Repr

namespace Store

def empty : Store := ⟨.empty, 0, 0⟩

instance : Inhabited Store := ⟨empty⟩

/-- Forgets the listings of a profile, which keeps its place among the profiles. -/
def deleteAll (s : Store) (profile : ElementId) : Store :=
  { s with rows := s.rows.update profile fun _ ↦ [], deletes := s.deletes + 1 }

/-- Appends a listing to those of a profile. -/
def insert (s : Store) (profile : ElementId) (entry : ScoredListing) : Store :=
  { s with
    rows := s.rows.update profile fun listings ↦ listings.getD [] ++ [entry]
    inserts := s.inserts + 1 }

def apply (s : Store) : Write → Store
  | .clear profile => s.deleteAll profile
  | .insert profile entry => s.insert profile entry

/-- The stored listings of a profile, in the order of insertion. -/
def recommendationsFor (s : Store) (profile : ElementId) : List ScoredListing :=
  (s.rows.get? profile).getD []

/-- Every profile that has listings, in the order in which the profiles were first written. -/
def contents (s : Store) : List RankedList :=
  (s.rows.rows.filter fun row ↦ !row.2.isEmpty).map fun row ↦ ⟨row.1, row.2⟩

/-- The number of writes of either kind. -/
def writes (s : Store) : Nat := s.deletes + s.inserts

end Store

/-- A store behind a gate that can refuse one write. -/
structure Sink where
  /-- The store. -/
  store : Store
  /-- The number of the write to refuse, counted from zero. -/
  refuses : Option Nat
  /-- How many writes were asked for. -/
  asked : Nat
deriving DecidableEq, Repr

namespace Sink

/-- A gate in front of a store, through which nothing has gone. -/
def ofStore (store : Store) (refuses : Option Nat) : Sink := ⟨store, refuses, 0⟩

/-- Asks for a write. A refused write counts and changes nothing else. -/
def write (sink : Sink) (w : Write) : Except GraphError Unit × Sink :=
  let next := { sink with asked := sink.asked + 1 }
  if sink.refuses = some sink.asked then (.error (.store "write refused"), next)
  else (.ok (), { next with store := sink.store.apply w })

/-- Asks for writes one after the other, up to the first that is refused. -/
def writeAll (sink : Sink) : List Write → Except GraphError Unit × Sink
  | [] => (.ok (), sink)
  | w :: rest =>
    match sink.write w with
    | (.error e, sink) => (.error e, sink)
    | (.ok (), sink) => sink.writeAll rest

end Sink

end BookmarkGraph
