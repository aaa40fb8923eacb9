import BookmarkGraph.Proofs.Pipe.Denotation

/-!
# What happens in a run, in order

The meaning of a traversal says which results there are, not what observers see on the way to each
of them. A trace says both: it is the list of everything that happens when a chain is drained to the
end, where an observer seeing an element and a result being handed over are events of equal rank.

Like the meaning, the trace is computed step by step on finite lists and knows nothing of requests.
What observers of earlier steps have seen stays where it is and only results are replaced, so the
edges of a vertex stand in front of whatever happens before the next vertex arrives. A limit cuts
the trace off behind its last element, observers included.

A machine in the middle of a run has a trace still in front of it, and `Pulls.trace_split` says that
a request plays this trace up to and including its first result.
-/

namespace BookmarkGraph

/-- Something that happens in a run. -/
inductive Event where
  /-- An observer sees an element. -/
  | shown (x : Element)
  /-- An element is handed over, or an error in the place of one. -/
  | given (item : Item)
deriving DecidableEq

def shownIn (events : List Event) : List Element :=
  events.filterMap fun
    | .shown x => some x
    | .given _ => none

def givenIn (events : List Event) : List Item :=
  events.filterMap fun
    | .shown _ => none
    | .given item => some item

/-! ## Steps -/

/-- The elements that a step shows when it receives one. -/
def ElementStep.shows (x : Element) : ElementStep → List Element
  | .sideEffect => [x]
  | _ => []

/-- What becomes of one event. An observer sees an element just before it is handed on. -/
def ElementStep.events (g : Graph) (step : ElementStep) : Event → List Event
  | .shown x => [.shown x]
  | .given (.error e) => [.given (.error e)]
  | .given (.ok x) => (step.shows x).map .shown ++ (step.items g (.ok x)).map .given

def Hop.events (g : Graph) (hop : Hop) : Event → List Event
  | .shown x => [.shown x]
  | .given item => (hop.items g item).map .given

/-- Everything up to the `n`-th element that is handed over, and nothing after it. -/
def limitEvents : Nat → List Event → List Event
  | 0, _ => []
  | _ + 1, [] => []
  | n + 1, .shown x :: rest => .shown x :: limitEvents (n + 1) rest
  | n + 1, .given (.error e) :: rest => .given (.error e) :: limitEvents (n + 1) rest
  | n + 1, .given (.ok x) :: rest => .given (.ok x) :: limitEvents n rest

/-- The events without the elements that were handed over before or are in `seen`. -/
def distinctEvents (seen : List Element) : List Event → List Event
  | [] => []
  | .shown x :: rest => .shown x :: distinctEvents seen rest
  | .given (.error e) :: rest => .given (.error e) :: distinctEvents seen rest
  | .given (.ok x) :: rest =>
    if x ∈ seen then distinctEvents seen rest
    else .given (.ok x) :: distinctEvents (x :: seen) rest

def Step.events (g : Graph) (step : Step) (events : List Event) : List Event :=
  match step with
  | element step => events.flatMap (step.events g)
  | hop h => events.flatMap (h.events g)
  | limit bound => limitEvents bound events
  | distinct => distinctEvents [] events

/-- Everything that happens when a chain of steps over a source is drained to the end. -/
def trace (g : Graph) (steps : List Step) (source : List Element) : List Event :=
  steps.foldl (fun events step ↦ step.events g events) (source.map fun x ↦ .given (.ok x))

/-! ## Results of a trace -/

section Results

variable {g : Graph} {xs : List Element} {items : List Item} {left right : List Event}

theorem shownIn_append : shownIn (left ++ right) = shownIn left ++ shownIn right :=
  List.filterMap_append

theorem givenIn_append : givenIn (left ++ right) = givenIn left ++ givenIn right :=
  List.filterMap_append

theorem shownIn_map_shown : shownIn (xs.map .shown) = xs := by
  rw [shownIn, List.filterMap_map]
  exact List.filterMap_some

theorem shownIn_map_given : shownIn (items.map .given) = [] := by
  rw [shownIn, List.filterMap_map]
  exact List.filterMap_eq_nil_iff.mpr fun _ _ ↦ rfl

theorem givenIn_map_shown : givenIn (xs.map .shown) = [] := by
  rw [givenIn, List.filterMap_map]
  exact List.filterMap_eq_nil_iff.mpr fun _ _ ↦ rfl

theorem givenIn_map_given : givenIn (items.map .given) = items := by
  rw [givenIn, List.filterMap_map]
  exact List.filterMap_some

theorem givenIn_flatMap {f : Event → List Event} {f' : Item → List Item}
    (hshown : ∀ x, givenIn (f (.shown x)) = []) (hgiven : ∀ i, givenIn (f (.given i)) = f' i)
    (events : List Event) : givenIn (events.flatMap f) = (givenIn events).flatMap f' := by
  induction events with
  | nil => rfl
  | cons event rest ih =>
    rw [List.flatMap_cons, givenIn_append, ih]
    cases event with
    | shown x =>
      rw [hshown]
      rfl
    | given item =>
      rw [hgiven]
      rfl

theorem givenIn_limitEvents (n : Nat) (events : List Event) :
    givenIn (limitEvents n events) = limitItems n (givenIn events) := by
  fun_induction limitEvents n events with
  | case1 => exact (limitItems.eq_1 _).symm
  | case2 => rfl
  | case3 n x rest ih => exact ih
  | case4 n e rest ih => exact congrArg (Except.error e :: ·) ih
  | case5 n x rest ih => exact congrArg (Except.ok x :: ·) ih

theorem givenIn_distinctEvents (seen : List Element) (events : List Event) :
    givenIn (distinctEvents seen events) = distinctItems seen (givenIn events) := by
  fun_induction distinctEvents seen events with
  | case1 => rfl
  | case2 seen x rest ih => exact ih
  | case3 seen e rest ih => exact congrArg (Except.error e :: ·) ih
  | case4 seen x rest hold ih => exact ih.trans (if_pos hold).symm
  | case5 seen x rest hnew ih =>
    exact (congrArg (Except.ok x :: ·) ih).trans (if_neg hnew).symm

/-- A step makes of the results of a trace what it means on lists. -/
theorem givenIn_step_events (step : Step) (events : List Event) :
    givenIn (step.events g events) = step.items g (givenIn events) := by
  cases step with
  | element step =>
    refine givenIn_flatMap (fun x ↦ rfl) (fun item ↦ ?_) events
    cases item with
    | error e => rfl
    | ok x =>
      rw [ElementStep.events, givenIn_append, givenIn_map_shown, givenIn_map_given]
      rfl
  | hop h => exact givenIn_flatMap (fun x ↦ rfl) (fun item ↦ givenIn_map_given) events
  | limit bound => exact givenIn_limitEvents bound events
  | distinct => exact givenIn_distinctEvents [] events

theorem givenIn_trace (g : Graph) (steps : List Step) (source : List Element) :
    givenIn (trace g steps source) = denote g steps source := by
  have hfold : ∀ events : List Event,
      givenIn (steps.foldl (fun events step ↦ step.events g events) events)
        = steps.foldl (fun items step ↦ step.items g items) (givenIn events) := by
    induction steps with
    | nil => exact fun events ↦ rfl
    | cons step steps ih =>
      intro events
      rw [List.foldl_cons, List.foldl_cons, ih, givenIn_step_events]
  have hsource : givenIn (source.map fun x ↦ .given (.ok x)) = source.map .ok := by
    have hmap := @givenIn_map_given (source.map .ok)
    rwa [List.map_map] at hmap
  rw [trace, denote, hfold, hsource]

end Results

/-! ## A stage in the middle of a run -/

namespace Stage

/-- What a stage in the middle of a run makes of the events in front of it. -/
def events (g : Graph) (stage : Stage) (feed : List Event) : List Event :=
  match stage with
  | element step => feed.flatMap (step.events g)
  | hop h pending => (pending.map (h.arrive g)).map .given ++ feed.flatMap (h.events g)
  | limit bound passed => limitEvents (bound - passed) feed
  | distinct seen => distinctEvents seen feed

variable {g : Graph} {stage stage' : Stage} {feed : List Event}

theorem exists_succ_of_poll_ask {bound passed : Nat}
    (h : (limit bound passed).poll g = .ask (limit bound passed)) :
    ∃ n, bound - passed = n + 1 ∧ bound - (passed + 1) = n := by
  rw [poll] at h
  split at h
  · simp at h
  · exact ⟨bound - (passed + 1), by omega, rfl⟩

theorem pending_of_poll_ask {h : Hop} {pending : List (VertexIndex × EdgeIndex)}
    (hpoll : (hop h pending).poll g = .ask (hop h pending)) : pending = [] := by
  cases pending with
  | nil => rfl
  | cons walk pending => simp [poll] at hpoll

theorem events_of_poll_finish (h : stage.poll g = .finish) : stage.events g feed = [] := by
  cases stage with
  | element step => simp [poll] at h
  | hop h' pending => cases pending <;> simp [poll] at h
  | limit bound passed =>
    rw [poll] at h
    split at h
    · rename_i hle
      rw [events, Nat.sub_eq_zero_of_le hle, limitEvents]
    · simp at h
  | distinct seen => simp [poll] at h

theorem events_of_poll_give {item : Item} (h : stage.poll g = .give item stage') :
    stage.events g feed = .given item :: stage'.events g feed := by
  cases stage with
  | element step => simp [poll] at h
  | hop h' pending =>
    cases pending with
    | nil => simp [poll] at h
    | cons walk pending =>
      obtain ⟨rfl, rfl⟩ := Reply.give.inj h
      rfl
  | limit bound passed =>
    rw [poll] at h
    split at h <;> simp at h
  | distinct seen => simp [poll] at h

theorem events_nil_of_poll_ask (h : stage.poll g = .ask stage) : stage.events g [] = [] := by
  cases stage with
  | element step => rfl
  | hop h' pending =>
    obtain rfl := pending_of_poll_ask h
    rfl
  | limit bound passed =>
    rw [events]
    cases bound - passed <;> rfl
  | distinct seen => rfl

/-- What observers in front of a stage see is none of its business. -/
theorem events_shown_of_poll_ask (h : stage.poll g = .ask stage) (xs : List Element) :
    stage.events g (xs.map .shown ++ feed) = xs.map .shown ++ stage.events g feed := by
  have hone : ∀ x rest, stage.events g (.shown x :: rest) = .shown x :: stage.events g rest := by
    intro x rest
    cases stage with
    | element step => rfl
    | hop h' pending =>
      obtain rfl := pending_of_poll_ask h
      rfl
    | limit bound passed =>
      obtain ⟨n, hn, -⟩ := exists_succ_of_poll_ask h
      rw [events, events, hn, limitEvents]
    | distinct seen => rfl
  induction xs with
  | nil => rfl
  | cons x xs ih => rw [List.map_cons, List.cons_append, hone, ih, List.cons_append]

theorem events_error_of_poll_ask {e : GraphError} (h : stage.poll g = .ask stage) :
    stage.events g (.given (.error e) :: feed) = .given (.error e) :: stage.events g feed := by
  cases stage with
  | element step => rfl
  | hop h' pending =>
    obtain rfl := pending_of_poll_ask h
    rfl
  | limit bound passed =>
    obtain ⟨n, hn, -⟩ := exists_succ_of_poll_ask h
    rw [events, events, hn, limitEvents]
  | distinct seen => rfl

theorem witness_element (step : ElementStep) (x : Element) (seen : List Element) :
    (element step).witness x seen = seen ++ step.shows x := by
  cases step with
  | sideEffect => rfl
  | _ => exact (List.append_nil seen).symm

theorem events_of_receive_give {x : Element} {item : Item} {seen : List Element}
    (hpoll : stage.poll g = .ask stage) (h : stage.receive g x = .give item stage') :
    seen.map .shown ++ stage.events g (.given (.ok x) :: feed)
      = (stage.witness x seen).map .shown ++ .given item :: stage'.events g feed := by
  cases stage with
  | element step =>
    rw [receive] at h
    rw [witness_element, List.map_append, List.append_assoc, events, List.flatMap_cons,
      ElementStep.events, ElementStep.items]
    split at h <;> simp_all <;> obtain ⟨rfl, rfl⟩ := h <;> rfl
  | hop h' pending =>
    obtain rfl := pending_of_poll_ask hpoll
    rw [receive] at h
    split at h
    · rename_i e hstart
      obtain ⟨rfl, rfl⟩ := Reply.give.inj h
      rw [events, List.flatMap_cons, Hop.events, Hop.items, hstart]
      rfl
    · simp at h
  | limit bound passed =>
    obtain ⟨rfl, rfl⟩ := Reply.give.inj h
    obtain ⟨n, hn, hn'⟩ := exists_succ_of_poll_ask hpoll
    rw [events, events, hn, hn', limitEvents]
    rfl
  | distinct old =>
    rw [receive] at h
    split at h
    · simp at h
    · rename_i hnew
      obtain ⟨rfl, rfl⟩ := Reply.give.inj h
      rw [events, events, distinctEvents, if_neg hnew]
      rfl

theorem events_of_receive_ask {x : Element} {seen : List Element}
    (hpoll : stage.poll g = .ask stage) (h : stage.receive g x = .ask stage') :
    seen.map .shown ++ stage.events g (.given (.ok x) :: feed)
      = (stage.witness x seen).map .shown ++ stage'.events g feed := by
  cases stage with
  | element step =>
    rw [receive] at h
    rw [witness_element, List.map_append, List.append_assoc, events, List.flatMap_cons,
      ElementStep.events, ElementStep.items]
    split at h <;> simp_all
    subst h
    rfl
  | hop h' pending =>
    obtain rfl := pending_of_poll_ask hpoll
    rw [receive] at h
    split at h
    · simp at h
    · rename_i walks hstart
      obtain rfl := Reply.ask.inj h
      rw [events, List.flatMap_cons, Hop.events, Hop.items, hstart]
      rfl
  | limit bound passed => simp [receive] at h
  | distinct old =>
    rw [receive] at h
    split at h
    · rename_i hold
      obtain rfl := Reply.ask.inj h
      rw [events, events, distinctEvents, if_pos hold]
      rfl
    · simp at h

end Stage

/-! ## A chain in the middle of a run -/

def Pipe.events (g : Graph) (pipe : Pipe) (feed : List Event) : List Event :=
  match pipe.ahead with
  | .empty => pipe.stage.events g feed
  | .buffered x => .given (.ok x) :: pipe.stage.events g feed
  | .exhausted => []

/-- The events that are still to come at the end of a chain. -/
def comingEvents (g : Graph) : List Pipe → Origin → List Event
  | [], origin => origin.items.map .given
  | pipe :: rest, origin => pipe.events g (comingEvents g rest origin)

theorem comingEvents_of_empty (g : Graph) (stage : Stage) (rest : List Pipe) (origin : Origin) :
    comingEvents g (⟨stage, .empty⟩ :: rest) origin
      = stage.events g (comingEvents g rest origin) := rfl

/-- **One request, with all that happens on the way.** It plays the coming events up to and
including the first result, or all of them if there is none. -/
theorem Pulls.trace_split {g : Graph} {pipes : List Pipe} {origin : Origin} {r : Pulled}
    (h : Pulls g pipes origin r) (hbound : origin.isBound = true) :
    r.origin.isBound = true ∧ (r.result = none → comingEvents g r.pipes r.origin = []) ∧
      comingEvents g pipes origin
        = r.seen.map .shown ++ (r.result.toList.map .given ++ comingEvents g r.pipes r.origin) := by
  induction h with
  | origin origin =>
    cases origin with
    | unbound => simp [Origin.isBound] at hbound
    | source s =>
      obtain ⟨whole, rest⟩ := s
      cases rest with
      | nil => exact ⟨rfl, fun _ ↦ rfl, rfl⟩
      | cons x rest => exact ⟨rfl, by simp [Origin.pull, Source.next], rfl⟩
  | buffered stage x rest origin => exact ⟨hbound, by simp, rfl⟩
  | exhausted stage rest origin => exact ⟨hbound, fun _ ↦ rfl, rfl⟩
  | @finish stage rest origin hpoll =>
    refine ⟨hbound, fun _ ↦ rfl, ?_⟩
    exact Stage.events_of_poll_finish hpoll
  | give rest origin hpoll =>
    refine ⟨hbound, by simp, ?_⟩
    exact Stage.events_of_poll_give hpoll
  | @ended stage rest pipes origin origin' seen hpoll _ ih =>
    obtain ⟨hbound', hend, hsplit⟩ := ih hbound
    refine ⟨hbound', fun _ ↦ rfl, ?_⟩
    rw [comingEvents_of_empty, hsplit, hend rfl, Stage.events_shown_of_poll_ask hpoll]
    exact congrArg (_ ++ ·) (Stage.events_nil_of_poll_ask hpoll)
  | @failed stage rest pipes origin origin' seen e hpoll _ ih =>
    obtain ⟨hbound', -, hsplit⟩ := ih hbound
    refine ⟨hbound', by simp, ?_⟩
    rw [comingEvents_of_empty g stage rest, hsplit, Stage.events_shown_of_poll_ask hpoll]
    exact congrArg (_ ++ ·) (Stage.events_error_of_poll_ask hpoll)
  | @answered stage stage' rest pipes origin origin' seen x item hpoll _ hreceive ih =>
    obtain ⟨hbound', -, hsplit⟩ := ih hbound
    refine ⟨hbound', by simp, ?_⟩
    rw [comingEvents_of_empty g stage rest, hsplit, Stage.events_shown_of_poll_ask hpoll]
    exact Stage.events_of_receive_give hpoll hreceive
  | @again stage stage' rest pipes origin origin' seen x r hpoll _ hreceive _ ih ihagain =>
    obtain ⟨hbound', -, hsplit⟩ := ih hbound
    obtain ⟨hbound'', hend, hagain⟩ := ihagain hbound'
    refine ⟨hbound'', hend, ?_⟩
    -- what the second request shows comes after what the first one has shown
    have hfirst : seen.map Event.shown
        ++ stage.events g (.given (.ok x) :: comingEvents g pipes origin') = _ :=
      Stage.events_of_receive_ask hpoll hreceive
    rw [← comingEvents_of_empty g stage' pipes, hagain, ← List.append_assoc, ← List.map_append]
      at hfirst
    rw [comingEvents_of_empty g stage rest, hsplit, Stage.events_shown_of_poll_ask hpoll]
    exact hfirst

end BookmarkGraph
