import BookmarkGraph.Pipe.Stage

/-!
# Pulling elements through a chain of pipes

A pipe is a stage with room for one element computed ahead. A chain is a list of pipes, the last
one first, over an origin: a source of elements, or nothing. One request travels up the chain only
as far as it must; `pull` is that request.

A stage may ask for elements again and again before it can answer, so `pull` is not recursive in
the list of pipes alone. What bounds it is `weight`, an upper bound on the elements that a chain can
still deliver: it shrinks with every element delivered, which the result of `pull` carries as a
proof.

## Contents

* `Source`, `Origin`, `LookAhead`, `Pipe`;
* `weight`: how much a chain can still deliver;
* `pull` and `next`: one request to the last pipe of a chain.
-/

namespace BookmarkGraph

/-! ## Sources -/

/-- A list of elements that is handed out one by one and can be rewound. -/
structure Source where
  /-- The whole list. -/
  items : List Element
  /-- What has not been handed out. -/
  rest : List Element
deriving DecidableEq, Repr

namespace Source

/-- A source that has handed out nothing. -/
def ofList (items : List Element) : Source := ⟨items, items⟩

def hasNext (source : Source) : Bool := !source.rest.isEmpty

/-- The next element, and the source without it. -/
def next (source : Source) : Option Element × Source :=
  match source.rest with
  | [] => (none, source)
  | x :: rest => (some x, { source with rest })

/-- The source from its beginning. -/
def rewind (source : Source) : Source := ofList source.items

def size (source : Source) : Nat := source.items.length

end Source

/-- What the first pipe of a chain reads from. -/
inductive Origin where
  /-- Nothing is bound; pulling fails. -/
  | unbound
  /-- A source of elements. -/
  | source (source : Source)
deriving DecidableEq, Repr

namespace Origin

def remaining : Origin → Nat
  | unbound => 0
  | source s => s.rest.length

def isBound : Origin → Bool
  | unbound => false
  | source _ => true

/-- The origin from its beginning. -/
def rewind : Origin → Origin
  | unbound => unbound
  | source s => source s.rewind

end Origin

/-! ## Pipes -/

/-- What a pipe has computed ahead of its consumer. -/
inductive LookAhead where
  /-- Nothing. -/
  | empty
  /-- One element that has not been taken. -/
  | buffered (element : Element)
  /-- The end of the sequence. -/
  | exhausted
deriving DecidableEq, Repr

/-- A stage with what it has computed ahead. -/
structure Pipe where
  /-- The step in progress. -/
  stage : Stage
  /-- What was computed ahead of the consumer. -/
  ahead : LookAhead
deriving DecidableEq, Repr

/-- A pipe at the beginning of a run. -/
def Step.pipe (step : Step) : Pipe := ⟨step.start, .empty⟩

namespace Pipe

def name (pipe : Pipe) : String := pipe.stage.step.name

/-- The pipe at the beginning of a run. -/
def reset (pipe : Pipe) : Pipe := ⟨pipe.stage.reset, .empty⟩

/-- The elements that a pipe can deliver without asking its feed. -/
def held (pipe : Pipe) : Nat :=
  match pipe.ahead with
  | .buffered _ => pipe.stage.pending + 1
  | .empty | .exhausted => pipe.stage.pending

end Pipe

/-- An upper bound on the elements that a chain can still deliver: what its last pipe holds, and for
every element from its feed as many as a hop can make of it. -/
def weight (g : Graph) : List Pipe → Origin → Nat
  | [], origin => origin.remaining
  | pipe :: rest, origin =>
    pipe.held + (1 + pipe.stage.fanout g) * weight g rest origin + 1

/-! ## Outcomes of a request -/

/-- The outcome of one request: the result, `none` at the end of the sequence; the chain after it;
and the elements shown to observers on the way. -/
structure Pulled where
  /-- An element, an error in the place of one, or the end of the sequence. -/
  result : Option (Except GraphError Element)
  /-- The pipes afterwards. -/
  pipes : List Pipe
  /-- The origin afterwards. -/
  origin : Origin
  /-- What observers saw, in the order of passing. -/
  seen : List Element

/-- A request that delivers an element leaves a chain that can deliver less. -/
def Pulled.Lighter (g : Graph) (pipes : List Pipe) (origin : Origin) (p : Pulled) : Prop :=
  ∀ x, p.result = some (.ok x) → weight g p.pipes p.origin < weight g pipes origin

/-- One request to an origin. -/
def Origin.pull (origin : Origin) : Pulled :=
  match origin with
  | unbound => ⟨some (.error (.invalidState .unboundStarts)), [], unbound, []⟩
  | source s =>
    match s.next with
    | (none, s) => ⟨none, [], source s, []⟩
    | (some x, s) => ⟨some (.ok x), [], source s, []⟩

private theorem origin_pull_lighter (g : Graph) (origin : Origin) :
    origin.pull.Lighter g [] origin := by
  intro x h
  cases origin with
  | unbound => simp [Origin.pull] at h
  | source s =>
    obtain ⟨items, rest⟩ := s
    cases rest with
    | nil => simp [Origin.pull, Source.next] at h
    | cons y rest => simp [Origin.pull, Source.next, weight, Origin.remaining]

private theorem le_foldr_max {n : Nat} {ns : List Nat} (h : n ∈ ns) : n ≤ ns.foldr max 0 := by
  induction ns with
  | nil => simp at h
  | cons m ns ih =>
    rw [List.foldr_cons]
    rcases List.mem_cons.mp h with rfl | h
    · exact Nat.le_max_left ..
    · exact Nat.le_trans (ih h) (Nat.le_max_right ..)

theorem Hop.length_edgesOf_le {g : Graph} {hop : Hop} {index : VertexIndex}
    {edges : List EdgeIndex} (h : g.edgesOf index hop.direction hop.labels = .ok edges) :
    edges.length ≤ hop.fanout g := by
  unfold Graph.edgesOf Graph.vertex at h
  cases hv : g.vertices[index.position.toNat]? with
  | none => simp [hv, bind, Except.bind] at h
  | some v =>
    have hmem : v ∈ g.vertices.toList := Array.mem_toList_iff.mpr (Array.mem_of_getElem? hv)
    have hle := le_foldr_max (List.mem_map_of_mem
      (f := fun v : Vertex ↦ (v.outgoing.select hop.labels).length
        + (v.incoming.select hop.labels).length) hmem)
    refine Nat.le_trans ?_ hle
    cases hd : hop.direction <;>
      simp [hv, hd, bind, Except.bind, pure, Except.pure] at h <;> subst h <;> simp

/-- A hop walks at most `fanout` edges from one element. -/
theorem Hop.length_start_le {g : Graph} {hop : Hop} {x : Element}
    {walks : List (VertexIndex × EdgeIndex)} (h : hop.start g x = .ok walks) :
    walks.length ≤ hop.fanout g := by
  unfold Hop.start at h
  split at h
  · rename_i index
    cases he : g.edgesOf index hop.direction hop.labels with
    | error e => simp [he, bind, Except.bind] at h
    | ok edges =>
      simp only [he, bind, Except.bind, pure, Except.pure, Except.ok.injEq] at h
      subst h
      simpa using Hop.length_edgesOf_le he
  · simp [throw, throwThe, MonadExceptOf.throw] at h

namespace Stage

theorem poll_give {g : Graph} {stage stage' : Stage} {item : Except GraphError Element}
    (h : stage.poll g = .give item stage') :
    stage'.pending < stage.pending ∧ stage'.fanout g = stage.fanout g := by
  cases stage with
  | hop hop pending =>
    cases pending with
    | nil => simp [poll] at h
    | cons walk pending =>
      simp only [poll, Reply.give.injEq] at h
      obtain ⟨_, rfl⟩ := h
      simp [Stage.pending, Stage.fanout]
  | limit bound passed => simp only [poll] at h; split at h <;> simp at h
  | element _ | distinct _ => simp [poll] at h

theorem poll_ask {g : Graph} {stage stage' : Stage} (h : stage.poll g = .ask stage') :
    stage' = stage := by
  cases stage with
  | hop hop pending => cases pending <;> simp_all [poll]
  | limit bound passed => simp only [poll] at h; split at h <;> simp_all
  | element _ | distinct _ => simp_all [poll]

theorem receive_give {g : Graph} {x : Element} {stage stage' : Stage}
    {item : Except GraphError Element} (h : stage.receive g x = .give item stage') :
    stage'.pending ≤ stage.pending ∧ stage'.fanout g = stage.fanout g := by
  cases stage with
  | element step =>
    simp only [receive] at h
    split at h <;> simp at h <;> simp [← h.2, Stage.pending, Stage.fanout]
  | hop hop pending =>
    simp only [receive] at h
    split at h <;> simp at h
    simp [← h.2, Stage.pending, Stage.fanout]
  | limit bound passed =>
    simp only [receive, Reply.give.injEq] at h
    simp [← h.2, Stage.pending, Stage.fanout]
  | distinct seen =>
    simp only [receive] at h
    split at h <;> simp at h
    simp [← h.2, Stage.pending, Stage.fanout]

theorem receive_ask {g : Graph} {x : Element} {stage stage' : Stage}
    (h : stage.receive g x = .ask stage') :
    stage'.pending ≤ stage.fanout g ∧ stage'.fanout g = stage.fanout g := by
  cases stage with
  | element step =>
    simp only [receive] at h
    split at h <;> simp at h
    simp [← h, Stage.pending, Stage.fanout]
  | hop hop pending =>
    simp only [receive] at h
    split at h <;> simp at h
    rename_i hs
    subst h
    simpa [Stage.pending, Stage.fanout] using Hop.length_start_le hs
  | limit bound passed => simp [receive] at h
  | distinct seen =>
    simp only [receive] at h
    split at h <;> simp at h
    simp [← h, Stage.pending, Stage.fanout]

end Stage

/-! ## One request -/

private theorem weight_rest_lt (g : Graph) (pipe : Pipe) (rest : List Pipe) (origin : Origin) :
    weight g rest origin < weight g (pipe :: rest) origin := by
  rw [weight]
  have := Nat.le_mul_of_pos_left (weight g rest origin)
    (show 0 < 1 + pipe.stage.fanout g by omega)
  omega

private theorem weight_again_lt {g : Graph} {pipe : Pipe} {stage : Stage} {x : Element}
    {rest rest' : List Pipe} {origin origin' : Origin}
    (hr : pipe.stage.receive g x = .ask stage)
    (hlt : weight g rest' origin' < weight g rest origin) :
    weight g (⟨stage, .empty⟩ :: rest') origin' < weight g (pipe :: rest) origin := by
  obtain ⟨hp, hf⟩ := Stage.receive_ask hr
  simp only [weight, Pipe.held, hf]
  have := Nat.mul_le_mul_left (1 + pipe.stage.fanout g) (Nat.succ_le_of_lt hlt)
  rw [Nat.mul_succ] at this
  omega

private theorem weight_given_lt {g : Graph} {pipe : Pipe} {stage : Stage} {x : Element}
    {item : Except GraphError Element} {rest rest' : List Pipe} {origin origin' : Origin}
    (hr : pipe.stage.receive g x = .give item stage)
    (hlt : weight g rest' origin' < weight g rest origin) :
    weight g (⟨stage, .empty⟩ :: rest') origin' < weight g (pipe :: rest) origin := by
  obtain ⟨hp, hf⟩ := Stage.receive_give hr
  have hheld : pipe.stage.pending ≤ pipe.held := by unfold Pipe.held; split <;> omega
  simp only [weight, hf]
  have := Nat.mul_le_mul_left (1 + pipe.stage.fanout g) (Nat.succ_le_of_lt hlt)
  rw [Nat.mul_succ] at this
  simp only [Pipe.held] at *
  omega

/-- One request to the last pipe of a chain, or to the origin if there is no pipe. What was computed
ahead is taken first. Otherwise the stage answers from what it holds, or takes elements from
its feed until it can answer. -/
def pull (g : Graph) (pipes : List Pipe) (origin : Origin) :
    { p : Pulled // p.Lighter g pipes origin } :=
  match pipes with
  | [] => ⟨origin.pull, origin_pull_lighter g origin⟩
  | pipe :: rest =>
    match ha : pipe.ahead with
    | .buffered x =>
      ⟨⟨some (.ok x), { pipe with ahead := .empty } :: rest, origin, []⟩, by
        intro _ _; simp [weight, Pipe.held, ha]⟩
    | .exhausted => ⟨⟨none, pipe :: rest, origin, []⟩, by intro _ h; simp at h⟩
    | .empty =>
      match hp : pipe.stage.poll g with
      | .finish =>
        ⟨⟨none, { pipe with ahead := .exhausted } :: rest, origin, []⟩, by intro _ h; simp at h⟩
      | .give item stage =>
        ⟨⟨some item, { pipe with stage } :: rest, origin, []⟩, by
          intro _ _
          obtain ⟨hlt, hf⟩ := Stage.poll_give hp
          simp only [weight, Pipe.held, ha, hf]
          omega⟩
      | .ask _ =>
        let up := pull g rest origin
        match hu : up.val.result with
        | none =>
          ⟨⟨none, { pipe with ahead := .exhausted } :: up.val.pipes, up.val.origin, up.val.seen⟩,
            by intro _ h; simp at h⟩
        | some (.error e) =>
          ⟨⟨some (.error e), pipe :: up.val.pipes, up.val.origin, up.val.seen⟩, by
            intro _ h; simp at h⟩
        | some (.ok x) =>
          let seen := if pipe.stage.observes then up.val.seen ++ [x] else up.val.seen
          match hr : pipe.stage.receive g x with
          | .finish =>
            ⟨⟨none, { pipe with ahead := .exhausted } :: up.val.pipes, up.val.origin, seen⟩, by
              intro _ h; simp at h⟩
          | .give item stage =>
            ⟨⟨some item, ⟨stage, .empty⟩ :: up.val.pipes, up.val.origin, seen⟩, fun _ _ ↦
              weight_given_lt hr (up.property x hu)⟩
          | .ask stage =>
            let again := pull g (⟨stage, .empty⟩ :: up.val.pipes) up.val.origin
            ⟨{ again.val with seen := seen ++ again.val.seen }, fun y hy ↦
              Nat.lt_trans (again.property y hy) (weight_again_lt hr (up.property x hu))⟩
termination_by weight g pipes origin
decreasing_by
  · exact weight_rest_lt g pipe rest origin
  · exact weight_again_lt hr (up.property x hu)


end BookmarkGraph
