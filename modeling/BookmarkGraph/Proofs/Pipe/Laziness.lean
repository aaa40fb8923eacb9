import BookmarkGraph.Proofs.Pipe.Reset
import BookmarkGraph.Proofs.Pipe.Trace

/-!
# No more than is asked for

A consumer takes results one by one or asks whether there is another one. At every moment the chain
has done precisely what the results obtained so far make necessary. The yardstick is the trace: its
shortest initial part with these results, or all of it once the end has been reported.

## The argument

A turn of the consumer plays a piece of the coming events, and whatever it hands over stands at the
end of this piece. The only exceptions are an element that is kept in hand, which is the very next
event then, and the end, after which no event is left. So the pieces played so far, with the element
in hand, end with a result, and an initial part of the trace that ends with its last result is the
shortest one with as many results.
-/

namespace BookmarkGraph

/-! ## The shortest initial part with some results -/

/-- The events up to and including the `n`-th result. -/
def through : Nat → List Event → List Event
  | 0, _ => []
  | _ + 1, [] => []
  | n + 1, .shown x :: rest => .shown x :: through (n + 1) rest
  | n + 1, .given item :: rest => .given item :: through n rest

theorem through_zero (events : List Event) : through 0 events = [] := by
  cases events <;> rfl

/-- It is contained in every initial part with so many results. -/
theorem through_least {n : Nat} {events other : List Event} (h : other <+: events)
    (hn : n ≤ (givenIn other).length) : through n events <+: other := by
  fun_induction through n events generalizing other with
  | case1 events => exact List.nil_prefix
  | case2 n =>
    rw [List.prefix_nil.mp h] at hn
    simp [givenIn] at hn
  | case3 n x rest ih =>
    rcases List.prefix_cons_iff.mp h with rfl | ⟨other, rfl, hrest⟩
    · simp [givenIn] at hn
    · exact List.cons_prefix_cons.mpr ⟨rfl, ih hrest hn⟩
  | case4 n item rest ih =>
    rcases List.prefix_cons_iff.mp h with rfl | ⟨other, rfl, hrest⟩
    · simp [givenIn] at hn
    · exact List.cons_prefix_cons.mpr ⟨rfl, ih hrest (Nat.le_of_succ_le_succ hn)⟩

/-- The shortest initial part of a trace with the given results, which takes the whole trace when
the end has to be reported, too. -/
def shortestRun (events : List Event) (results : List Item) (ended : Bool) : List Event :=
  if ended then events else through results.length events

/-- Events that are empty or end with a result. -/
def EndsGiven (events : List Event) : Prop :=
  events = [] ∨ ∃ front item, events = front ++ [.given item]

theorem through_append {run rest : List Event} (h : EndsGiven run) :
    through (givenIn run).length (run ++ rest) = run := by
  rcases h with rfl | ⟨front, item, rfl⟩
  · exact through_zero _
  · have hlength : (givenIn (front ++ [.given item])).length = (givenIn front).length + 1 := by
      rw [givenIn_append, List.length_append]
      rfl
    rw [hlength]
    induction front with
    | nil => exact congrArg (Event.given item :: ·) (through_zero rest)
    | cons event front ih =>
      have ih := ih (by rw [givenIn_append, List.length_append]; rfl)
      cases event with
      | shown x => exact congrArg (Event.shown x :: ·) ih
      | given i => exact congrArg (Event.given i :: ·) ih

/-! ## Turns of a consumer -/

/-- What a consumer does in one turn. -/
inductive Turn where
  /-- Asks whether there is another element. -/
  | ask
  /-- Takes a result. -/
  | take
deriving DecidableEq, Repr

def Turn.demand : Turn → Demand
  | ask => .hasNext
  | take => .next

/-- Whether an answer reports the end. -/
def Answer.isEnd : Answer → Bool
  | .found (.ok false) | .element (.ok none) => true
  | _ => false

/-- How far a run has come. -/
structure Progress where
  /-- The elements handed over, and the errors raised in the place of one. -/
  results : List Item
  /-- Whether the end was reported. -/
  ended : Bool
  /-- What observers have seen, in the order of passing. -/
  log : List Element
  /-- The pipeline as it is now. -/
  pipeline : Pipeline

namespace Pipeline

/-- How far a pipeline comes in a sequence of turns. -/
def progress (g : Graph) (p : Pipeline) : List Turn → Progress
  | [] => ⟨[], false, [], p⟩
  | turn :: turns =>
    let served := p.serve g turn.demand
    let later := served.2.progress g turns
    ⟨served.1.results ++ later.results, served.1.isEnd || later.ended,
      p.seenIn g turn.demand ++ later.log, later.pipeline⟩

def inHand (p : Pipeline) : List Item :=
  match p.lookAhead with
  | .buffered x => [.ok x]
  | _ => []

end Pipeline

/-- The results obtained so far: those handed over, and the one in hand. -/
def Progress.obtained (progress : Progress) : List Item :=
  progress.results ++ progress.pipeline.inHand

/-! ## One turn -/

namespace Pipeline

variable {g : Graph} {p : Pipeline}

def coming (g : Graph) (p : Pipeline) : List Event := comingEvents g p.pipes p.origin

theorem coming_of_exhausted (h : p.lookAhead = .exhausted) : p.coming g = [] := by
  obtain ⟨pipes, origin⟩ := p
  cases pipes with
  | nil => simp [lookAhead] at h
  | cons pipe rest =>
    obtain ⟨stage, ahead⟩ := pipe
    obtain rfl : ahead = .exhausted := h
    rfl

/-- A request plays the coming events through the first result. -/
theorem coming_pullEnd (h : p.ready = .ok ()) :
    p.coming g = (p.pullEnd g).seen.map .shown
      ++ ((Answer.element (p.pullEnd g).answer).results.map .given
        ++ (p.pullEnd g).pipeline.coming g) := by
  obtain ⟨-, -, hsplit⟩ := (pulls_pull g p.pipes p.origin).trace_split (ready_eq_ok.mp h).2
  rw [coming, hsplit, answer_pullEnd]
  have hresults : (Answer.element (answerOf (pull g p.pipes p.origin).val.result)).results
      = (pull g p.pipes p.origin).val.result.toList := by
    rcases (pull g p.pipes p.origin).val.result with _ | _ | _ <;> rfl
  rw [hresults]
  rfl

theorem coming_of_buffered {x : Element} (h : p.lookAhead = .buffered x)
    (hready : p.ready = .ok ()) :
    p.coming g = .given (.ok x) :: (p.pullEnd g).pipeline.coming g := by
  obtain ⟨-, hanswer, hseen⟩ := pullEnd_of_buffered (g := g) h
  rw [coming_pullEnd hready, hanswer, hseen]
  rfl

/-- What a turn plays, what it tells, and how it leaves the last pipe. -/
structure Plays (g : Graph) (p : Pipeline) (turn : Turn) (played : List Event) : Prop where
  /-- The events that were played were the first of those to come. -/
  coming_eq : p.coming g = played ++ (p.serve g turn.demand).2.coming g
  /-- Observers see what was shown. -/
  shown_eq : shownIn played = p.seenIn g turn.demand
  /-- The consumer is handed what was given. -/
  given_eq : givenIn played = (p.serve g turn.demand).1.results
  /-- The pipeline can go on. -/
  ready : (p.serve g turn.demand).2.ready = .ok ()
  /-- The end is reported when it was met. -/
  isEnd_iff : (p.serve g turn.demand).1.isEnd = true ↔
    (p.serve g turn.demand).2.lookAhead = .exhausted
  /-- Short of the end, the last thing that happened was a result, or there is one in hand. -/
  sharp : (p.serve g turn.demand).1.isEnd = false →
    (∃ front item, played = front ++ [.given item]) ∨ (p.serve g turn.demand).2.inHand ≠ []

theorem serve_take (h : p.ready = .ok ()) :
    p.serve g Turn.take.demand = (.element (p.pullEnd g).answer, (p.pullEnd g).pipeline) := by
  rw [Turn.demand, serve, next_of_ready h]

theorem seenIn_take (h : p.ready = .ok ()) :
    p.seenIn g Turn.take.demand = (p.pullEnd g).seen := by
  rw [Turn.demand, seenIn, next_of_ready h]

theorem serve_ask (h : p.ready = .ok ()) :
    p.serve g Turn.ask.demand = (.found (p.peekEnd g).answer, (p.peekEnd g).pipeline) := by
  rw [Turn.demand, serve, hasNext_of_ready h]

theorem seenIn_ask (h : p.ready = .ok ()) :
    p.seenIn g Turn.ask.demand = (p.peekEnd g).seen := by
  rw [Turn.demand, seenIn, hasNext_of_ready h]

theorem lookAhead_pullEnd (h : p.ready = .ok ()) : (p.pullEnd g).pipeline.lookAhead
    = if (pull g p.pipes p.origin).val.result.isSome then .empty else .exhausted := by
  obtain ⟨stage, rest, hlast⟩ := (pulls_pull g p.pipes p.origin).ahead (ready_eq_ok.mp h).1
  rw [lookAhead, pullEnd, hlast]

theorem plays_take (h : p.ready = .ok ()) :
    p.Plays g .take ((p.pullEnd g).seen.map .shown
      ++ (Answer.element (p.pullEnd g).answer).results.map .given) where
  coming_eq := by rw [serve_take h, List.append_assoc, ← coming_pullEnd h]
  shown_eq := by
    rw [seenIn_take h, shownIn_append, shownIn_map_shown, shownIn_map_given, List.append_nil]
  given_eq := by
    rw [serve_take h, givenIn_append, givenIn_map_shown, givenIn_map_given, List.nil_append]
  ready := by
    rw [serve_take h]
    exact ready_pullEnd h
  isEnd_iff := by
    rw [serve_take h, lookAhead_pullEnd h, answer_pullEnd]
    rcases (pull g p.pipes p.origin).val.result with _ | _ | _ <;> simp [answerOf, Answer.isEnd]
  sharp := by
    rw [serve_take h, answer_pullEnd]
    intro hend
    cases hresult : (pull g p.pipes p.origin).val.result with
    | none =>
      rw [hresult] at hend
      simp [answerOf, Answer.isEnd] at hend
    | some item =>
      refine .inl ⟨(p.pullEnd g).seen.map .shown, item, ?_⟩
      cases item <;> rfl

/-- An element that is kept in hand has not happened yet, only what was shown on the way to it. -/
theorem plays_ask_found (h : p.ready = .ok ()) {x : Element}
    (hpeek : (p.peekEnd g).answer = .ok true) (hpull : (p.pullEnd g).answer = .ok (some x))
    (hahead : (p.peekEnd g).pipeline.lookAhead = .buffered x)
    (hafter : ((p.peekEnd g).pipeline.pullEnd g).pipeline = (p.pullEnd g).pipeline)
    (hseen : (p.peekEnd g).seen = (p.pullEnd g).seen) :
    p.Plays g .ask ((p.peekEnd g).seen.map .shown) where
  coming_eq := by
    rw [coming_pullEnd h, serve_ask h, coming_of_buffered hahead (ready_peekEnd h), hafter, hpull,
      hseen]
    rfl
  shown_eq := by rw [seenIn_ask h, shownIn_map_shown]
  given_eq := by
    rw [serve_ask h, givenIn_map_shown, hpeek]
    rfl
  ready := by
    rw [serve_ask h]
    exact ready_peekEnd h
  isEnd_iff := by
    rw [serve_ask h, hpeek, hahead]
    simp [Answer.isEnd]
  sharp := by
    rw [serve_ask h, inHand, hahead]
    exact fun _ ↦ .inr (List.cons_ne_nil _ _)

theorem plays_ask_end (h : p.ready = .ok ()) (hpeek : (p.peekEnd g).answer = .ok false)
    (hpull : (p.pullEnd g).answer = .ok none)
    (hahead : (p.peekEnd g).pipeline.lookAhead = .exhausted)
    (hafter : (p.peekEnd g).pipeline = (p.pullEnd g).pipeline)
    (hseen : (p.peekEnd g).seen = (p.pullEnd g).seen) :
    p.Plays g .ask ((p.peekEnd g).seen.map .shown) where
  coming_eq := by
    rw [coming_pullEnd h, serve_ask h, hafter, hpull, hseen]
    rfl
  shown_eq := by rw [seenIn_ask h, shownIn_map_shown]
  given_eq := by
    rw [serve_ask h, givenIn_map_shown, hpeek]
    rfl
  ready := by
    rw [serve_ask h]
    exact ready_peekEnd h
  isEnd_iff := by
    rw [serve_ask h, hpeek, hahead]
    simp [Answer.isEnd]
  sharp := by
    rw [serve_ask h, hpeek]
    simp [Answer.isEnd]

theorem plays_ask_error (h : p.ready = .ok ()) {e : GraphError}
    (hpeek : (p.peekEnd g).answer = .error e) (hpull : (p.pullEnd g).answer = .error e)
    (hafter : (p.peekEnd g).pipeline = (p.pullEnd g).pipeline)
    (hseen : (p.peekEnd g).seen = (p.pullEnd g).seen) :
    p.Plays g .ask ((p.peekEnd g).seen.map .shown ++ [.given (.error e)]) where
  coming_eq := by
    rw [coming_pullEnd h, serve_ask h, hafter, hpull, hseen, List.append_assoc]
    rfl
  shown_eq := by
    rw [seenIn_ask h, shownIn_append, shownIn_map_shown]
    exact List.append_nil _
  given_eq := by
    rw [serve_ask h, givenIn_append, givenIn_map_shown, hpeek]
    rfl
  ready := by
    rw [serve_ask h]
    exact ready_peekEnd h
  isEnd_iff := by
    have hresult : (pull g p.pipes p.origin).val.result.isSome = true := by
      rw [answer_pullEnd] at hpull
      rcases hsome : (pull g p.pipes p.origin).val.result with _ | _ | _ <;>
        simp [hsome, answerOf] at hpull ⊢
    rw [serve_ask h, hpeek, hafter, lookAhead_pullEnd h, hresult]
    simp [Answer.isEnd]
  sharp _ := .inl ⟨_, _, rfl⟩

theorem exists_plays (h : p.ready = .ok ()) (turn : Turn) : ∃ played, p.Plays g turn played := by
  cases turn with
  | take => exact ⟨_, plays_take h⟩
  | ask =>
    rcases peekEnd_cases (g := g) (ready_eq_ok.mp h).1 with
      ⟨x, hpeek, hpull, hahead, hafter, hseen⟩ |
        ⟨hafter, hseen, ⟨hpeek, hpull, hahead⟩ | ⟨e, hpeek, hpull⟩⟩
    · exact ⟨_, plays_ask_found h hpeek hpull hahead hafter hseen⟩
    · exact ⟨_, plays_ask_end h hpeek hpull hahead hafter hseen⟩
    · exact ⟨_, plays_ask_error h hpeek hpull hafter hseen⟩

/-! ## A sequence of turns -/

theorem exhausted_progress (h : p.ready = .ok ()) (hend : p.lookAhead = .exhausted)
    (turns : List Turn) : (p.progress g turns).pipeline = p := by
  induction turns with
  | nil => rfl
  | cons turn turns ih =>
    have hserve : (p.serve g turn.demand).2 = p := by
      cases turn with
      | ask =>
        rw [Turn.demand, serve, hasNext_of_ready h, peekEnd, hend]
      | take =>
        rw [Turn.demand, serve, next_of_ready h, pullEnd_of_exhausted hend]
    rw [progress, hserve]
    exact ih

/-- What has happened in a sequence of turns: the first of the events that were to come. Short of
the end, the last of them was a result, or there is one in hand. -/
theorem progress_spec (h : p.ready = .ok ()) (turns : List Turn) :
    ∃ played, p.coming g = played ++ (p.progress g turns).pipeline.coming g ∧
      shownIn played = (p.progress g turns).log ∧ givenIn played = (p.progress g turns).results ∧
      (p.progress g turns).pipeline.ready = .ok () ∧
      ((p.progress g turns).ended = true → (p.progress g turns).pipeline.lookAhead = .exhausted) ∧
      ((p.progress g turns).ended = false → turns ≠ [] →
        (∃ front item, played = front ++ [.given item]) ∨
          (p.progress g turns).pipeline.inHand ≠ []) := by
  induction turns generalizing p with
  | nil => exact ⟨[], rfl, rfl, rfl, h, by simp [progress], by simp⟩
  | cons turn turns ih =>
    obtain ⟨first, hfirst⟩ := exists_plays (g := g) h turn
    obtain ⟨later, hcoming, hshown, hgiven, hready, hended, hsharp⟩ := ih hfirst.ready
    refine ⟨first ++ later, ?_, ?_, ?_, hready, fun hend ↦ ?_, fun hend _ ↦ ?_⟩
    · rw [hfirst.coming_eq, hcoming, List.append_assoc]
      rfl
    · rw [shownIn_append, hfirst.shown_eq, hshown]
      rfl
    · rw [givenIn_append, hfirst.given_eq, hgiven]
      rfl
    · rcases Bool.or_eq_true_iff.mp hend with hend | hend
      · -- the end does not go away
        have hexhausted := hfirst.isEnd_iff.mp hend
        change ((p.serve g turn.demand).2.progress g turns).pipeline.lookAhead = _
        rw [exhausted_progress hfirst.ready hexhausted]
        exact hexhausted
      · exact hended hend
    · obtain ⟨hfirstEnd, hlaterEnd⟩ := Bool.or_eq_false_iff.mp hend
      by_cases hturns : turns = []
      · subst hturns
        have hnone : later = [] := by
          have hsame : (p.serve g turn.demand).2.coming g
              = later ++ (p.serve g turn.demand).2.coming g := hcoming
          exact List.self_eq_append_left.mp hsame
        rw [hnone, List.append_nil]
        exact hfirst.sharp hfirstEnd
      · rcases hsharp hlaterEnd hturns with ⟨front, item, rfl⟩ | hhand
        · exact .inl ⟨first ++ front, item, (List.append_assoc _ _ _).symm⟩
        · exact .inr hhand

/-! ## Limits that are spent -/

end Pipeline

/-- The pipes of a chain that has a limit in it, which has passed so many elements of its feed. -/
def HasLimit (bound passed : Nat) (feed pipes : List Pipe) : Prop :=
  ∃ front ahead, pipes = front ++ ⟨.limit bound passed, ahead⟩ :: feed

theorem HasLimit.cons {bound passed : Nat} {feed pipes : List Pipe}
    (h : HasLimit bound passed feed pipes) (pipe : Pipe) :
    HasLimit bound passed feed (pipe :: pipes) := by
  obtain ⟨front, ahead, rfl⟩ := h
  exact ⟨pipe :: front, ahead, rfl⟩

/-- Either the limit is the last pipe, or it is in the feed of the last pipe. -/
theorem HasLimit.cases {bound passed : Nat} {feed rest : List Pipe} {pipe : Pipe}
    (h : HasLimit bound passed feed (pipe :: rest)) :
    pipe.stage = .limit bound passed ∧ rest = feed ∨ HasLimit bound passed feed rest := by
  obtain ⟨front, ahead, h⟩ := h
  cases front with
  | nil =>
    obtain ⟨rfl, rfl⟩ := List.cons.inj h
    exact .inl ⟨rfl, rfl⟩
  | cons first front => exact .inr ⟨front, ahead, (List.cons.inj h).2⟩

/-- A request does not get past a limit that has passed all of its elements. -/
theorem Pulls.hasLimit {g : Graph} {pipes feed : List Pipe} {origin : Origin} {r : Pulled}
    {bound passed : Nat} (h : Pulls g pipes origin r) (hspent : bound ≤ passed)
    (hlimit : HasLimit bound passed feed pipes) :
    r.origin = origin ∧ HasLimit bound passed feed r.pipes := by
  have hpoll : (Stage.limit bound passed).poll g = .finish := if_pos hspent
  -- a spent limit answers on its own, so it is not the one that asks
  have hasks : ∀ {stage : Stage} {rest : List Pipe}, stage.poll g = .ask stage →
      HasLimit bound passed feed (⟨stage, .empty⟩ :: rest) → HasLimit bound passed feed rest := by
    intro stage rest hask hlimit
    refine hlimit.cases.resolve_left ?_
    rintro ⟨rfl, -⟩
    rw [hpoll] at hask
    simp at hask
  induction h with
  | origin origin =>
    obtain ⟨front, ahead, hnil⟩ := hlimit
    simp at hnil
  | buffered stage x rest origin | exhausted stage rest origin | finish rest origin _ =>
    refine ⟨rfl, ?_⟩
    rcases hlimit.cases with ⟨rfl, rfl⟩ | hrest
    · exact ⟨[], _, rfl⟩
    · exact hrest.cons _
  | give rest origin hgive =>
    refine ⟨rfl, ?_⟩
    rcases hlimit.cases with ⟨rfl, rfl⟩ | hrest
    · rw [hpoll] at hgive
      simp at hgive
    · exact hrest.cons _
  | ended hask _ ih | failed hask _ ih =>
    obtain ⟨horigin, hrest⟩ := ih (hasks hask hlimit)
    exact ⟨horigin, hrest.cons _⟩
  | answered hask _ _ ih =>
    obtain ⟨horigin, hrest⟩ := ih (hasks hask hlimit)
    exact ⟨horigin, hrest.cons _⟩
  | again hask _ _ _ ih ihagain =>
    obtain ⟨horigin, hrest⟩ := ih (hasks hask hlimit)
    obtain ⟨horigin', hrest'⟩ := ihagain (hrest.cons _)
    exact ⟨horigin'.trans horigin, hrest'⟩

theorem HasLimit.buffer {bound passed : Nat} {feed pipes : List Pipe}
    (h : HasLimit bound passed feed pipes) (x : Element) :
    HasLimit bound passed feed (Pipeline.buffer x pipes) := by
  cases pipes with
  | nil => exact h
  | cons pipe rest =>
    rcases h.cases with ⟨hstage, rfl⟩ | hrest
    · exact ⟨[], .buffered x, by rw [Pipeline.buffer, hstage]; rfl⟩
    · exact hrest.cons _

namespace Pipeline

variable {g : Graph} {p : Pipeline}

/-- The pipeline reads from an origin through a limit, of which the feed and the state are given. -/
def Behind (bound passed : Nat) (feed : List Pipe) (origin : Origin) (p : Pipeline) : Prop :=
  p.origin = origin ∧ HasLimit bound passed feed p.pipes

section Behind

variable {bound passed : Nat} {feed : List Pipe} {origin : Origin}

theorem Behind.pullEnd (hspent : bound ≤ passed) (h : p.Behind bound passed feed origin) :
    (p.pullEnd g).pipeline.Behind bound passed feed origin := by
  obtain ⟨horigin, hlimit⟩ := (pulls_pull g p.pipes p.origin).hasLimit hspent h.2
  exact ⟨horigin.trans h.1, hlimit⟩

theorem Behind.peekEnd (hspent : bound ≤ passed) (h : p.Behind bound passed feed origin) :
    (p.peekEnd g).pipeline.Behind bound passed feed origin := by
  have hpull : (p.pullEnd g).pipeline.Behind bound passed feed origin := h.pullEnd hspent
  exact peekEnd_keeps h hpull fun x _ _ ↦ ⟨hpull.1, hpull.2.buffer x⟩

/-- The pipes in front of a spent limit, and the source, are never touched again. -/
theorem Behind.progress (hspent : bound ≤ passed) (h : p.Behind bound passed feed origin)
    (turns : List Turn) : (p.progress g turns).pipeline.Behind bound passed feed origin := by
  induction turns generalizing p with
  | nil => exact h
  | cons turn turns ih =>
    cases turn with
    | ask => exact ih (guarded_keeps _ (fun _ hq ↦ hq.peekEnd hspent) h)
    | take => exact ih (guarded_keeps _ (fun _ hq ↦ hq.pullEnd hspent) h)

end Behind

/-! ## From the beginning -/

theorem coming_addStep (p : Pipeline) (step : Step) :
    (p.addStep step).coming g = step.events g (p.coming g) := by
  have hstart : ∀ feed, step.start.events g feed = step.events g feed := by
    intro feed
    cases step <;> rfl
  exact hstart (p.coming g)

theorem coming_ofSteps (g : Graph) (steps : List Step) (source : List Element) :
    (ofSteps steps source).coming g = trace g steps source := by
  have hfold : ∀ p : Pipeline, (steps.foldl addStep p).coming g
      = steps.foldl (fun events step ↦ step.events g events) (p.coming g) := by
    induction steps with
    | nil => exact fun p ↦ rfl
    | cons step steps ih =>
      intro p
      rw [List.foldl_cons, List.foldl_cons, ih, coming_addStep]
  rw [ofSteps, hfold, trace]
  refine congrArg (steps.foldl _ ·) ?_
  change (source.map Except.ok).map Event.given = _
  rw [List.map_map]
  rfl

theorem lookAhead_ofSteps (steps : List Step) (source : List Element) :
    (ofSteps steps source).lookAhead = .empty := by
  rw [ofSteps, pipes_foldl_addStep, lookAhead]
  split
  · rfl
  · rename_i pipe rest hpipes
    have hmem : pipe ∈ (steps.map Step.pipe).reverse ++ [] := by
      rw [show (steps.map Step.pipe).reverse ++ [] = pipe :: rest from hpipes]
      exact List.mem_cons_self
    rw [List.append_nil, List.mem_reverse] at hmem
    obtain ⟨step, -, rfl⟩ := List.mem_map.mp hmem
    rfl

theorem inHand_cases (p : Pipeline) : p.inHand = [] ∨ ∃ x, p.inHand = [.ok x] := by
  rw [inHand]
  split
  · exact .inr ⟨_, rfl⟩
  · exact .inl rfl

theorem exists_coming_eq (h : p.ready = .ok ()) :
    ∃ rest, p.coming g = p.inHand.map .given ++ rest := by
  rw [inHand]
  split
  · rename_i x hahead
    exact ⟨_, coming_of_buffered hahead h⟩
  · exact ⟨_, rfl⟩

/-- Short of the end, what has happened ends with a result, the one in hand included. -/
theorem endsGiven_of_sharp {played : List Event} {hand : List Item}
    (hhand : hand = [] ∨ ∃ x, hand = [.ok x])
    (h : (∃ front item, played = front ++ [.given item]) ∨ hand ≠ []) :
    EndsGiven (played ++ hand.map .given) := by
  rcases hhand with rfl | ⟨x, rfl⟩
  · rw [List.map_nil, List.append_nil]
    exact .inr (h.resolve_right (· rfl))
  · exact .inr ⟨played, .ok x, rfl⟩

/-- What has happened is the shortest run with the results obtained. -/
theorem log_progress {steps : List Step} (hsteps : steps ≠ []) (source : List Element)
    (turns : List Turn) :
    let progress := (ofSteps steps source).progress g turns
    let run := shortestRun (trace g steps source) progress.obtained progress.ended
    progress.log = shownIn run ∧ givenIn run = progress.obtained := by
  intro progress run
  obtain ⟨played, hcoming, hshown, hgiven, hready, hended, hsharp⟩ :=
    progress_spec (g := g) (ready_ofSteps hsteps source) turns
  have hstart := coming_ofSteps g steps source
  cases hend : progress.ended with
  | true =>
    -- after the end nothing is still to come, so everything has happened
    have hexhausted := hended hend
    have hrun : run = played := by
      rw [coming_of_exhausted hexhausted, List.append_nil, hstart] at hcoming
      rw [← hcoming]
      exact if_pos hend
    have hhand : progress.pipeline.inHand = [] := by rw [inHand, hexhausted]
    rw [hrun, Progress.obtained, hhand, List.append_nil]
    exact ⟨hshown.symm, hgiven⟩
  | false =>
    have hends : EndsGiven (played ++ progress.pipeline.inHand.map .given) := by
      by_cases hturns : turns = []
      · subst hturns
        have hplayed : played = [] := List.self_eq_append_left.mp hcoming
        have hhand : progress.pipeline.inHand = [] := by
          change (ofSteps steps source).inHand = []
          rw [inHand, lookAhead_ofSteps]
        rw [hplayed, hhand]
        exact .inl rfl
      · exact endsGiven_of_sharp (inHand_cases _) (hsharp hend hturns)
    have hobtained : givenIn (played ++ progress.pipeline.inHand.map .given)
        = progress.obtained := by
      rw [givenIn_append, givenIn_map_given, hgiven, Progress.obtained]
    have hrun : run = played ++ progress.pipeline.inHand.map .given := by
      obtain ⟨rest, hrest⟩ := exists_coming_eq (g := g) hready
      have hshort : run = through progress.obtained.length (trace g steps source) :=
        if_neg (by simp [hend])
      rw [hshort, ← hobtained, ← hstart, hcoming, hrest, ← List.append_assoc]
      exact through_append hends
    rw [hrun, hobtained, shownIn_append, shownIn_map_given, List.append_nil]
    exact ⟨hshown.symm, rfl⟩

/-- **No more than is asked for.** Let a consumer of a fresh chain ask and take in any order, and
look at any moment. What observers have seen is what they see in the shortest run that obtains the
results obtained so far, with the end if it was reported: no initial part of the trace has these
results and is shorter, and there is no other order of turns that obtains them and shows less. The
results of the trace are what the traversal means. A hop leaves its feed alone while it has edges
in hand, and what stands in front of a limit that has passed all of its elements is never touched
again. -/
theorem demand_minimal (g : Graph) {steps : List Step} (hsteps : steps ≠ [])
    (source : List Element) (turns : List Turn) :
    let events := trace g steps source
    let progress := (ofSteps steps source).progress g turns
    let run := shortestRun events progress.obtained progress.ended
    givenIn events = denote g steps source ∧
    progress.log = shownIn run ∧ givenIn run = progress.obtained ∧
    (∀ other, other <+: events → givenIn other = progress.obtained →
      progress.ended = false → run <+: other) ∧
    (∀ others, ((ofSteps steps source).progress g others).obtained = progress.obtained →
      ((ofSteps steps source).progress g others).ended = progress.ended →
      ((ofSteps steps source).progress g others).log = progress.log) ∧
    (∀ hop walk pending feed origin,
      (pull g (⟨.hop hop (walk :: pending), .empty⟩ :: feed) origin).val
        = ⟨some (hop.arrive g walk), ⟨.hop hop pending, .empty⟩ :: feed, origin, []⟩) ∧
    ∀ bound passed feed (p : Pipeline) (others : List Turn), bound ≤ passed →
      HasLimit bound passed feed p.pipes →
      (p.progress g others).pipeline.origin = p.origin ∧
        HasLimit bound passed feed (p.progress g others).pipeline.pipes := by
  intro events progress run
  obtain ⟨hlog, hgiven⟩ := log_progress (g := g) hsteps source turns
  refine ⟨givenIn_trace g steps source, hlog, hgiven, ?_, ?_, ?_, ?_⟩
  · intro other hother hsame hend
    have hrun : run = through progress.obtained.length events := if_neg (by simp [hend])
    rw [hrun]
    exact through_least hother (Nat.le_of_eq (congrArg List.length hsame.symm))
  · intro others hobtained hended
    have hother := (log_progress (g := g) hsteps source others).1
    rw [hobtained, hended] at hother
    exact hother.trans hlog.symm
  · intro hop walk pending feed origin
    rw [pull_cons]
    rfl
  · intro bound passed feed p others hspent hlimit
    exact Behind.progress hspent ⟨rfl, hlimit⟩ others

theorem demand_minimal_tangled :
    let steps : List Step := [.sideEffect, .out ["links"], .sideEffect, .limit 2]
    let source : List Element := [.vertex ⟨0⟩, .vertex ⟨0⟩]
    let progress := (ofSteps steps source).progress .tangled
    steps ≠ [] ∧
      (progress [.ask, .ask]).obtained = [.ok (.vertex ⟨1⟩)] ∧
      (progress [.ask, .ask]).log = [.vertex ⟨0⟩, .vertex ⟨1⟩] ∧
      (progress [.ask, .take, .take, .take]).ended = true ∧
      (progress [.ask, .take, .take, .take]).log = [.vertex ⟨0⟩, .vertex ⟨1⟩, .vertex ⟨0⟩] := by
  intro steps source progress
  have hsteps : steps ≠ [] := List.cons_ne_nil _ _
  obtain ⟨-, hasked, -⟩ := demand_minimal .tangled hsteps source [.ask, .ask]
  obtain ⟨-, hdrained, -⟩ := demand_minimal .tangled hsteps source [.ask, .take, .take, .take]
  exact ⟨hsteps, by decide +kernel, hasked.trans (by decide +kernel), by decide +kernel,
    hdrained.trans (by decide +kernel)⟩

end Pipeline

end BookmarkGraph
