import BookmarkGraph.Pipe.Pull

/-!
# The course of one request

`pull` recurses by a weight and carries a proof with its result, which makes it awkward to reason
about. `Pulls` is the same computation as a relation with one rule for every course that a request
can take, so a fact about requests is one induction with named cases.

The rules differ in who answers: what was computed ahead, the last stage on its own, or the feed of
that stage. In the last case the stage passes on an end or an error, answers with what it makes of
the element it receives, or asks once more.
-/

namespace BookmarkGraph

/-- What observers saw after a stage received an element: an observing stage adds it. -/
def Stage.witness (stage : Stage) (x : Element) (seen : List Element) : List Element :=
  if stage.observes then seen ++ [x] else seen

/-- `pull` without the proofs that it carries. -/
theorem pull_cons (g : Graph) (pipe : Pipe) (rest : List Pipe) (origin : Origin) :
    (pull g (pipe :: rest) origin).val =
      match pipe.ahead with
      | .buffered x => ⟨some (.ok x), { pipe with ahead := .empty } :: rest, origin, []⟩
      | .exhausted => ⟨none, pipe :: rest, origin, []⟩
      | .empty =>
        match pipe.stage.poll g with
        | .finish => ⟨none, { pipe with ahead := .exhausted } :: rest, origin, []⟩
        | .give item stage => ⟨some item, { pipe with stage } :: rest, origin, []⟩
        | .ask _ =>
          let up := (pull g rest origin).val
          match up.result with
          | none => ⟨none, { pipe with ahead := .exhausted } :: up.pipes, up.origin, up.seen⟩
          | some (.error e) => ⟨some (.error e), pipe :: up.pipes, up.origin, up.seen⟩
          | some (.ok x) =>
            match pipe.stage.receive g x with
            | .finish =>
              ⟨none, { pipe with ahead := .exhausted } :: up.pipes, up.origin,
                pipe.stage.witness x up.seen⟩
            | .give item stage =>
              ⟨some item, ⟨stage, .empty⟩ :: up.pipes, up.origin, pipe.stage.witness x up.seen⟩
            | .ask stage =>
              let again := (pull g (⟨stage, .empty⟩ :: up.pipes) up.origin).val
              { again with seen := pipe.stage.witness x up.seen ++ again.seen } := by
  rw [pull]
  split <;> rename_i hahead <;> simp only [hahead]
  split <;> rename_i hpoll <;> simp only [hpoll]
  split <;> rename_i hup <;> simp only [hup]
  split <;> rename_i hreceive <;> simp only [hreceive] <;> rfl

/-- The courses that a request to a chain can take, each with its outcome. -/
inductive Pulls (g : Graph) : List Pipe → Origin → Pulled → Prop
  | origin (origin : Origin) : Pulls g [] origin origin.pull
  | buffered (stage : Stage) (x : Element) (rest : List Pipe) (origin : Origin) :
    Pulls g (⟨stage, .buffered x⟩ :: rest) origin
      ⟨some (.ok x), ⟨stage, .empty⟩ :: rest, origin, []⟩
  | exhausted (stage : Stage) (rest : List Pipe) (origin : Origin) :
    Pulls g (⟨stage, .exhausted⟩ :: rest) origin ⟨none, ⟨stage, .exhausted⟩ :: rest, origin, []⟩
  | finish {stage : Stage} (rest : List Pipe) (origin : Origin) (hpoll : stage.poll g = .finish) :
    Pulls g (⟨stage, .empty⟩ :: rest) origin ⟨none, ⟨stage, .exhausted⟩ :: rest, origin, []⟩
  | give {stage stage' : Stage} {item : Except GraphError Element} (rest : List Pipe)
    (origin : Origin) (hpoll : stage.poll g = .give item stage') :
    Pulls g (⟨stage, .empty⟩ :: rest) origin ⟨some item, ⟨stage', .empty⟩ :: rest, origin, []⟩
  | ended {stage : Stage} {rest pipes : List Pipe} {origin origin' : Origin} {seen : List Element}
    (hpoll : stage.poll g = .ask stage) (hfeed : Pulls g rest origin ⟨none, pipes, origin', seen⟩) :
    Pulls g (⟨stage, .empty⟩ :: rest) origin ⟨none, ⟨stage, .exhausted⟩ :: pipes, origin', seen⟩
  | failed {stage : Stage} {rest pipes : List Pipe} {origin origin' : Origin}
    {seen : List Element} {e : GraphError} (hpoll : stage.poll g = .ask stage)
    (hfeed : Pulls g rest origin ⟨some (.error e), pipes, origin', seen⟩) :
    Pulls g (⟨stage, .empty⟩ :: rest) origin
      ⟨some (.error e), ⟨stage, .empty⟩ :: pipes, origin', seen⟩
  | answered {stage stage' : Stage} {rest pipes : List Pipe} {origin origin' : Origin}
    {seen : List Element} {x : Element} {item : Except GraphError Element}
    (hpoll : stage.poll g = .ask stage)
    (hfeed : Pulls g rest origin ⟨some (.ok x), pipes, origin', seen⟩)
    (hreceive : stage.receive g x = .give item stage') :
    Pulls g (⟨stage, .empty⟩ :: rest) origin
      ⟨some item, ⟨stage', .empty⟩ :: pipes, origin', stage.witness x seen⟩
  | again {stage stage' : Stage} {rest pipes : List Pipe} {origin origin' : Origin}
    {seen : List Element} {x : Element} {r : Pulled} (hpoll : stage.poll g = .ask stage)
    (hfeed : Pulls g rest origin ⟨some (.ok x), pipes, origin', seen⟩)
    (hreceive : stage.receive g x = .ask stage')
    (hagain : Pulls g (⟨stage', .empty⟩ :: pipes) origin' r) :
    Pulls g (⟨stage, .empty⟩ :: rest) origin { r with seen := stage.witness x seen ++ r.seen }

theorem Stage.receive_ne_finish (g : Graph) (stage : Stage) (x : Element) :
    stage.receive g x ≠ .finish := by
  cases stage <;> simp only [receive] <;> (try split) <;> simp

/-- A request takes one of the courses. -/
theorem pulls_pull (g : Graph) (pipes : List Pipe) (origin : Origin) :
    Pulls g pipes origin (pull g pipes origin).val := by
  induction pipes, origin using pull.induct g with
  | case1 origin =>
    rw [pull]
    exact .origin origin
  | case2 origin pipe rest x hahead =>
    obtain ⟨stage, ahead⟩ := pipe
    obtain rfl : ahead = .buffered x := hahead
    rw [pull_cons]
    exact .buffered stage x rest origin
  | case3 origin pipe rest hahead =>
    obtain ⟨stage, ahead⟩ := pipe
    obtain rfl : ahead = .exhausted := hahead
    rw [pull_cons]
    exact .exhausted stage rest origin
  | case4 origin pipe rest hahead hpoll =>
    obtain ⟨stage, ahead⟩ := pipe
    obtain rfl : ahead = .empty := hahead
    rw [pull_cons]
    simp only [hpoll]
    exact .finish rest origin hpoll
  | case5 origin pipe rest hahead item stage' hpoll =>
    obtain ⟨stage, ahead⟩ := pipe
    obtain rfl : ahead = .empty := hahead
    rw [pull_cons]
    simp only [hpoll]
    exact .give rest origin hpoll
  | case6 origin pipe rest hahead stage' hpoll up hup ih =>
    obtain ⟨stage, ahead⟩ := pipe
    obtain rfl : ahead = .empty := hahead
    obtain rfl : stage' = stage := Stage.poll_ask hpoll
    rw [pull_cons]
    simp only [hpoll, show (pull g rest origin).val.result = none from hup]
    exact .ended hpoll (hup ▸ ih)
  | case7 origin pipe rest hahead stage' hpoll up e hup ih =>
    obtain ⟨stage, ahead⟩ := pipe
    obtain rfl : ahead = .empty := hahead
    obtain rfl : stage' = stage := Stage.poll_ask hpoll
    rw [pull_cons]
    simp only [hpoll, show (pull g rest origin).val.result = some (.error e) from hup]
    exact .failed hpoll (hup ▸ ih)
  | case8 origin pipe rest hahead stage hpoll up x hup hreceive ih =>
    exact absurd hreceive (Stage.receive_ne_finish g _ x)
  | case9 origin pipe rest hahead stage' hpoll up x hup item stage'' hreceive ih =>
    obtain ⟨stage, ahead⟩ := pipe
    obtain rfl : ahead = .empty := hahead
    obtain rfl : stage' = stage := Stage.poll_ask hpoll
    rw [pull_cons]
    simp only [hpoll, hreceive,
      show (pull g rest origin).val.result = some (.ok x) from hup]
    exact .answered hpoll (hup ▸ ih) hreceive
  | case10 origin pipe rest hahead stage' hpoll up x hup stage'' hreceive ih _ ihagain =>
    obtain ⟨stage, ahead⟩ := pipe
    obtain rfl : ahead = .empty := hahead
    obtain rfl : stage' = stage := Stage.poll_ask hpoll
    rw [pull_cons]
    simp only [hpoll, hreceive,
      show (pull g rest origin).val.result = some (.ok x) from hup]
    exact .again hpoll (hup ▸ ih) hreceive ihagain

/-- A request has one course only. -/
theorem Pulls.pull_eq {g : Graph} {pipes : List Pipe} {origin : Origin} {r : Pulled}
    (h : Pulls g pipes origin r) : (pull g pipes origin).val = r := by
  induction h with
  | origin origin => rw [pull]
  | buffered stage x rest origin => rw [pull_cons]
  | exhausted stage rest origin => rw [pull_cons]
  | finish rest origin hpoll => simp only [pull_cons, hpoll]
  | give rest origin hpoll => simp only [pull_cons, hpoll]
  | ended hpoll _ ih => simp only [pull_cons, hpoll, ih]
  | failed hpoll _ ih => simp only [pull_cons, hpoll, ih]
  | answered hpoll _ hreceive ih => simp only [pull_cons, hpoll, ih, hreceive]
  | again hpoll _ hreceive _ ih ihagain =>
    rw [pull_cons]
    simp only [hpoll, ih, hreceive]
    rw [ih, ihagain]

end BookmarkGraph
