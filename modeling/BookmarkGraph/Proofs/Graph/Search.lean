import BookmarkGraph.Proofs.Naming
import Mathlib.Algebra.Ring.Nat

/-!
# The search for a free number ends

A graph that is to pick a number tries one number after the other, and nothing in the loop says how
often. `Search` is that loop, with no bound to it. It ends because every number behind the counter
is taken: the numbers that it passes are taken too, and a row of taken numbers that starts at one is
no longer than there are vertices. The same count keeps the counter small, whatever numbers are
given from outside.

The invariant needs the arena to have room. A vertex that is refused for want of room uses up a
number that nobody has.
-/

namespace BookmarkGraph.Graph

/-! ## The loop -/

/-- The search from a candidate on. The counter moves behind every candidate that is tried;
`counters` lists what it comes to, counted without a limit. -/
inductive Search (g : Graph) : UInt64 → List Nat → UInt64 → Prop where
  /-- A candidate that the index does not have is found. -/
  | free {candidate : UInt64} (h : g.hasId (.number candidate) = false) :
      Search g candidate [candidate.toNat + 1] candidate
  /-- Behind a candidate that is taken the search goes on. -/
  | taken {candidate found : UInt64} {counters : List Nat}
      (h : g.hasId (.number candidate) = true) (hrest : Search g (candidate + 1) counters found) :
      Search g candidate ((candidate.toNat + 1) :: counters) found

variable {g : Graph} {candidate : UInt64}

theorem Search.unique {found found' : UInt64} {counters counters' : List Nat}
    (h : g.Search candidate counters found) (h' : g.Search candidate counters' found') :
    counters' = counters ∧ found' = found := by
  induction h generalizing counters' with
  | free hfree =>
    cases h' with
    | free => exact ⟨rfl, rfl⟩
    | taken htaken => exact absurd htaken (Bool.eq_false_iff.mp hfree)
  | taken htaken _ ih =>
    cases h' with
    | free hfree => exact absurd htaken (Bool.eq_false_iff.mp hfree)
    | taken _ hrest =>
      obtain ⟨rfl, rfl⟩ := ih hrest
      exact ⟨rfl, rfl⟩

/-- The search passes numbers that are taken and ends on the first one that is free. The counter
comes to every number behind a candidate on the way. -/
theorem search_of_first_free {i : Nat} (hword : candidate.toNat + i < UInt64.size)
    (htaken : ∀ j < i, g.hasId (.number (candidate + UInt64.ofNat j)) = true)
    (hfree : g.hasId (.number (candidate + UInt64.ofNat i)) = false) :
    g.Search candidate (List.range' (candidate.toNat + 1) (i + 1))
      (candidate + UInt64.ofNat i) := by
  have hzero : ∀ number : UInt64, number + UInt64.ofNat 0 = number := UInt64.add_zero
  induction i generalizing candidate with
  | zero =>
    rw [hzero] at hfree ⊢
    exact .free hfree
  | succ i ih =>
    have hnext : (candidate + 1).toNat = candidate.toNat + 1 := by
      rw [UInt64.toNat_add, UInt64.toNat_one, Nat.mod_eq_of_lt]
      exact Nat.lt_of_le_of_lt (by omega) hword
    have hfirst : g.hasId (.number candidate) = true := hzero candidate ▸ htaken 0 (Nat.succ_pos i)
    have hrest : g.Search (candidate + 1) (List.range' ((candidate + 1).toNat + 1) (i + 1))
        (candidate + 1 + UInt64.ofNat i) := by
      refine ih (by omega) (fun j hj ↦ ?_) ?_
      · rw [add_one_add_ofNat]
        exact htaken (j + 1) (Nat.succ_lt_succ hj)
      · rwa [add_one_add_ofNat]
    rw [add_one_add_ofNat, hnext] at hrest
    exact .taken hfirst hrest

/-! ## Room in the arena -/

/-- No vertex of the history was refused because the arena was full. -/
def NeverFull (history : List Insertion) : Prop :=
  ∀ before label properties id, before ++ [.vertex label properties id] <+: history →
    ((grown before).addVertex label properties id).answer ≠ .error (.invalidState .arenaFull)

theorem size_grown_le (history : List Insertion) :
    (grown history).vertices.size ≤ history.length := by
  induction history using List.reverseRecOn with
  | nil => exact Nat.le_refl 0
  | append_singleton history insertion ih =>
    rw [grown_append, List.length_append]
    rcases (grown history).size_insert insertion with hsize | hsize <;>
      rw [hsize, List.length_singleton] <;> omega

theorem neverFull_of_length_le {history : List Insertion} (h : history.length ≤ arenaCapacity) :
    NeverFull history := by
  intro before label properties id hbefore hfull
  have hlength := hbefore.length_le
  rw [List.length_append, List.length_singleton] at hlength
  have hroom : (grown before).vertices.size < arenaCapacity :=
    Nat.lt_of_le_of_lt (size_grown_le before) (by omega)
  cases id with
  | none =>
    rw [addVertex_unnamed, if_pos hroom] at hfull
    cases hfull
  | some id =>
    rw [addVertex] at hfull
    split at hfull
    · cases hfull
    · rw [appendVertex, if_pos hroom] at hfull
      cases hfull

/-- As long as no vertex is refused for want of room, every number behind the search is taken. -/
theorem NeverFull.exists_numbered {history : List Insertion} (h : NeverFull history) :
    ∃ last, (grown history).Numbered last := by
  induction history using List.reverseRecOn with
  | nil => exact ⟨0, numbered_empty⟩
  | append_singleton history insertion ih =>
    obtain ⟨last, hlast⟩ := ih fun before label properties id hbefore ↦
      h before label properties id (hbefore.trans (List.prefix_append history [insertion]))
    rw [grown_append]
    by_cases hunnamed : insertion.Unnamed
    · obtain ⟨label, properties, rfl⟩ := hunnamed
      have hroom : (grown history).vertices.size < arenaCapacity := by
        by_contra hfull
        refine h history label properties none List.prefix_rfl ?_
        rw [addVertex_unnamed, if_neg hfull]
      obtain ⟨n, -, -, hn⟩ := hlast.addVertex (size_index_grown history) hroom label properties
      exact ⟨n, hn⟩
    · obtain ⟨hnext, hids⟩ := (grown history).kept_of_named hunnamed
      exact ⟨last, hlast.mono hnext hids⟩

/-! ## The bound -/

/-- **The search for a free number ends.** Take a graph that grew by a history in which no vertex
was refused for want of room. Every number from one up to the counter belongs to a vertex, so the
counter is at most one ahead of the number of vertices. A search from there tries at most one number
more than there are vertices, it can go one way only, and on the way the counter comes to no more
than two beyond the capacity of the arena. The number that is found is the one that a vertex is
inserted under. -/
theorem grown_search_ends {history : List Insertion} (h : NeverFull history) :
    (∀ k, 0 < k → k < (grown history).nextNumber → (grown history).Knows (.number k)) ∧
      (grown history).nextNumber.toNat ≤ (grown history).vertexCount + 1 ∧
      ∃ counters found, (grown history).Search (grown history).nextNumber counters found ∧
        (∀ counters' found', (grown history).Search (grown history).nextNumber counters' found' →
          counters' = counters ∧ found' = found) ∧
        counters.length ≤ (grown history).vertexCount + 1 ∧
        (∀ counter ∈ counters, counter ≤ 2 ^ 32 + 2) ∧
        ∀ label properties, (grown history).addVertex label properties none
          = { grown history with nextNumber := found + 1 }.appendVertex (.number found) label
              properties := by
  have hg := (reachable_grown history).indexed
  have hsize := hg.vertices_le
  have hindex := hg.size_index
  obtain ⟨last, hlast⟩ := h.exists_numbered
  have hnext := hlast.next
  have hcapacity : arenaCapacity + arenaCapacity + 1 < UInt64.size := by decide
  obtain ⟨i, hi, heq, htaken, hfree⟩ :=
    exists_freeNumber (g := grown history) (by omega) (grown history).nextNumber
  have hbehind := hlast.le_size
  have hcount := hlast.add_le_size (by omega) htaken
  have hsearch := search_of_first_free (by omega) htaken hfree
  refine ⟨fun k hpos hlt ↦ ?_, ?_, _, _, hsearch, fun _ _ ↦ hsearch.unique, ?_, ?_, ?_⟩
  · rw [knows_iff_hasId hg]
    rw [UInt64.lt_iff_toNat_lt, hnext] at hlt
    exact hlast.taken k hpos (UInt64.le_iff_toNat_le.mpr (Nat.lt_succ_iff.mp hlt))
  · rw [vertexCount]
    omega
  · rw [List.length_range', vertexCount]
    omega
  · intro counter hcounter
    have hbound := (List.mem_range'_1.mp hcounter).2
    have hpower : arenaCapacity = 2 ^ 32 := rfl
    omega
  · intro label properties
    rw [addVertex, heq]

/-- The numbers behind the first one that is picked are given from outside, and so is the largest
one of all. -/
def crowded : List Insertion :=
  [.vertex "n" .empty none, .vertex "n" .empty (some (.number 3)),
    .vertex "n" .empty (some (.number 18446744073709551615)), .edge "e" ⟨0⟩ ⟨2⟩ .empty,
    .vertex "n" .empty (some (.number 2)), .vertex "n" .empty (some (.number 3))]

/-- The search passes two numbers and finds the third. -/
theorem grown_search_ends_crowded :
    NeverFull crowded ∧ (grown crowded).hasId (.number 18446744073709551615) = true ∧
      (grown crowded).Knows (.number 1) ∧ (grown crowded).Search 2 [3, 4, 5] 4 ∧
      (∀ counters found, (grown crowded).Search 2 counters found →
        counters = [3, 4, 5] ∧ found = 4) ∧
      ([3, 4, 5] : List Nat).length ≤ (grown crowded).vertexCount + 1 ∧
      (grown crowded).addVertex "n" .empty none
        = { grown crowded with nextNumber := 5 }.appendVertex (.number 4) "n" .empty := by
  have hnever : NeverFull crowded := neverFull_of_length_le (by decide)
  have hnext : (grown crowded).nextNumber = 2 := by decide +kernel
  have hpasses : (grown crowded).Search 2 [3, 4, 5] 4 :=
    .taken (by decide +kernel) (.taken (by decide +kernel) (.free (by decide +kernel)))
  obtain ⟨hknown, -, counters, found, -, honly, hlength, -, hadd⟩ := grown_search_ends hnever
  rw [hnext] at hknown honly
  obtain ⟨rfl, rfl⟩ := honly _ _ hpasses
  exact ⟨hnever, by decide +kernel, hknown 1 (by decide) (by decide), hpasses, honly, hlength,
    hadd "n" .empty⟩

end BookmarkGraph.Graph
