import BookmarkGraph.Pipe.Denotation
import BookmarkGraph.Pipe.Pipeline
import BookmarkGraph.Proofs.Pipe.Request
import Mathlib.Data.List.Basic

/-!
# What a chain still has to deliver

In the middle of a run every stage has walked some edges, passed some elements, and perhaps
computed one ahead. `remaining` gathers all of this into the one list of items that the chain will
deliver from here on, and the single fact `Pulls.head_tail` says that a request hands over the head
of this list and leaves a chain whose list is the tail.

A stage is characterized by two equations per answer: what it does before it is fed
(`Stage.poll`), and what it does with one element (`Stage.receive`). Everything about chains of any
length follows from these, because the list of a chain is the list of its feed run through the last
pipe.
-/

namespace BookmarkGraph

/-! ## One stage -/

namespace Stage

/-- What a stage in the middle of a run makes of the items that its feed still has. -/
def items (g : Graph) (stage : Stage) (feed : List Item) : List Item :=
  match stage with
  | element step => feed.flatMap (step.items g)
  | hop h pending => pending.map (h.arrive g) ++ feed.flatMap (h.items g)
  | limit bound passed => limitItems (bound - passed) feed
  | distinct seen => distinctItems seen feed

variable {g : Graph} {stage stage' : Stage} {feed : List Item}

theorem items_start (step : Step) (feed : List Item) :
    step.start.items g feed = step.items g feed := by
  cases step <;> rfl

theorem items_of_poll_finish (h : stage.poll g = .finish) : stage.items g feed = [] := by
  cases stage with
  | element step => simp [poll] at h
  | hop h' pending => cases pending <;> simp [poll] at h
  | limit bound passed =>
    rw [poll] at h
    split at h
    · rename_i hle
      rw [items, Nat.sub_eq_zero_of_le hle, limitItems]
    · simp at h
  | distinct seen => simp [poll] at h

theorem items_of_poll_give {item : Item} (h : stage.poll g = .give item stage') :
    stage.items g feed = item :: stage'.items g feed := by
  cases stage with
  | element step => simp [poll] at h
  | hop h' pending =>
    cases pending with
    | nil => simp [poll] at h
    | cons walk pending =>
      obtain ⟨rfl, rfl⟩ := Reply.give.inj h
      rfl
  | limit bound passed =>
    rw [poll] at h
    split at h <;> simp at h
  | distinct seen => simp [poll] at h

theorem items_nil_of_poll_ask (h : stage.poll g = .ask stage) : stage.items g [] = [] := by
  cases stage with
  | element step => rfl
  | hop h' pending =>
    cases pending with
    | nil => rfl
    | cons walk pending => simp [poll] at h
  | limit bound passed =>
    rw [items]
    cases bound - passed <;> rfl
  | distinct seen => rfl

theorem items_error_of_poll_ask {e : GraphError} (h : stage.poll g = .ask stage) :
    stage.items g (.error e :: feed) = .error e :: stage.items g feed := by
  cases stage with
  | element step => rfl
  | hop h' pending =>
    cases pending with
    | nil => rfl
    | cons walk pending => simp [poll] at h
  | limit bound passed =>
    rw [poll] at h
    split at h
    · simp at h
    · rename_i hlt
      obtain ⟨n, hn⟩ := Nat.exists_eq_succ_of_ne_zero (Nat.sub_ne_zero_of_lt (Nat.not_le.mp hlt))
      rw [items, items, hn, limitItems]
  | distinct seen => rfl

theorem items_of_receive_give {x : Element} {item : Item} (hpoll : stage.poll g = .ask stage)
    (h : stage.receive g x = .give item stage') :
    stage.items g (.ok x :: feed) = item :: stage'.items g feed := by
  cases stage with
  | element step =>
    rw [receive] at h
    rw [items, List.flatMap_cons, ElementStep.items]
    split at h <;> simp_all <;> obtain ⟨rfl, rfl⟩ := h <;> rfl
  | hop h' pending =>
    cases pending with
    | nil =>
      rw [receive] at h
      rw [items, List.flatMap_cons, Hop.items]
      split at h <;> simp_all
      obtain ⟨rfl, rfl⟩ := h
      rfl
    | cons walk pending => simp [poll] at hpoll
  | limit bound passed =>
    obtain ⟨rfl, rfl⟩ := Reply.give.inj h
    rw [poll] at hpoll
    split at hpoll
    · simp at hpoll
    · rename_i hlt
      have hsucc : bound - passed = bound - (passed + 1) + 1 := by omega
      rw [items, items, hsucc, limitItems]
  | distinct seen =>
    rw [receive] at h
    split at h
    · simp at h
    · rename_i hnew
      obtain ⟨rfl, rfl⟩ := Reply.give.inj h
      rw [items, items, distinctItems, if_neg hnew]

theorem items_of_receive_ask {x : Element} (hpoll : stage.poll g = .ask stage)
    (h : stage.receive g x = .ask stage') :
    stage.items g (.ok x :: feed) = stage'.items g feed := by
  cases stage with
  | element step =>
    rw [receive] at h
    rw [items, List.flatMap_cons, ElementStep.items]
    split at h <;> simp_all
    subst h
    rfl
  | hop h' pending =>
    cases pending with
    | nil =>
      rw [receive] at h
      rw [items, List.flatMap_cons, Hop.items]
      split at h <;> simp_all
      subst h
      rfl
    | cons walk pending => simp [poll] at hpoll
  | limit bound passed => simp [receive] at h
  | distinct seen =>
    rw [receive] at h
    split at h
    · rename_i hold
      obtain rfl := Reply.ask.inj h
      rw [items, items, distinctItems, if_pos hold]
    · simp at h

end Stage

/-! ## A chain -/

def Pipe.items (g : Graph) (pipe : Pipe) (feed : List Item) : List Item :=
  match pipe.ahead with
  | .empty => pipe.stage.items g feed
  | .buffered x => .ok x :: pipe.stage.items g feed
  | .exhausted => []

/-- The items that an origin will deliver. Without a source there is no end to the errors, so
nothing is said about that case. -/
def Origin.items : Origin → List Item
  | .unbound => []
  | .source s => s.rest.map .ok

/-- The items that a chain will deliver. -/
def remaining (g : Graph) : List Pipe → Origin → List Item
  | [], origin => origin.items
  | pipe :: rest, origin => pipe.items g (remaining g rest origin)

/-- **One request.** It hands over the first of the remaining items, or reports the end if there is
none, and leaves a chain with the other items. -/
theorem Pulls.head_tail {g : Graph} {pipes : List Pipe} {origin : Origin} {r : Pulled}
    (h : Pulls g pipes origin r) (hbound : origin.isBound = true) :
    r.origin.isBound = true ∧ r.result = (remaining g pipes origin).head? ∧
      remaining g r.pipes r.origin = (remaining g pipes origin).tail := by
  induction h with
  | origin origin =>
    cases origin with
    | unbound => simp [Origin.isBound] at hbound
    | source s =>
      obtain ⟨whole, rest⟩ := s
      cases rest <;> exact ⟨rfl, rfl, rfl⟩
  | buffered stage x rest origin => exact ⟨hbound, rfl, rfl⟩
  | exhausted stage rest origin => exact ⟨hbound, rfl, rfl⟩
  | finish rest origin hpoll =>
    rw [remaining, Pipe.items, Stage.items_of_poll_finish hpoll]
    exact ⟨hbound, rfl, rfl⟩
  | give rest origin hpoll =>
    rw [remaining, Pipe.items, Stage.items_of_poll_give hpoll]
    exact ⟨hbound, rfl, rfl⟩
  | ended hpoll _ ih =>
    obtain ⟨hbound', hhead, -⟩ := ih hbound
    rw [remaining, List.head?_eq_none_iff.mp hhead.symm, Pipe.items,
      Stage.items_nil_of_poll_ask hpoll]
    exact ⟨hbound', rfl, rfl⟩
  | failed hpoll _ ih =>
    obtain ⟨hbound', hhead, htail⟩ := ih hbound
    rw [remaining, ← List.cons_head?_tail hhead.symm, ← htail, Pipe.items,
      Stage.items_error_of_poll_ask hpoll]
    exact ⟨hbound', rfl, rfl⟩
  | answered hpoll _ hreceive ih =>
    obtain ⟨hbound', hhead, htail⟩ := ih hbound
    rw [remaining, ← List.cons_head?_tail hhead.symm, ← htail, Pipe.items,
      Stage.items_of_receive_give hpoll hreceive]
    exact ⟨hbound', rfl, rfl⟩
  | again hpoll _ hreceive _ ih ihagain =>
    obtain ⟨hbound', hhead, htail⟩ := ih hbound
    -- the second request meets a chain that still has the same items
    rw [remaining, ← List.cons_head?_tail hhead.symm, ← htail, Pipe.items,
      Stage.items_of_receive_ask hpoll hreceive]
    exact ihagain hbound'

end BookmarkGraph
