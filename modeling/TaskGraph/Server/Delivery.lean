namespace TaskGraph

/-- How the results of calls made together are handed on. The calls end in any order. -/
inductive Delivery where
  /-- Each result as its call ends. -/
  | asEnded
  /-- Each result after those of all calls started before. -/
  | inOrder
  deriving DecidableEq

namespace Delivery

/-- The largest number of calls whose results are handed on as the calls end. -/
def asEndedLimit : Nat := 30

/-- How the results of this many calls are handed on. -/
def ofCount (calls : Nat) : Delivery := if calls ≤ asEndedLimit then .asEnded else .inOrder

/-- The results that count, of calls in the order in which they were started, where an open call
    has no result. -/
def delivered {α : Type} (results : List (Option α)) : Delivery → List α
  | asEnded => results.filterMap id
  | inOrder => (results.takeWhile Option.isSome).filterMap id

/-- What is delivered in order is the beginning of what has ended. -/
theorem delivered_inOrder_isPrefix {α : Type} (results : List (Option α)) :
    inOrder.delivered results <+: asEnded.delivered results :=
  (List.takeWhile_prefix _).filterMap id

/-- After the last call has ended, all results count. -/
theorem delivered_map_some {α : Type} (d : Delivery) (results : List α) :
    d.delivered (results.map some) = results := by
  cases d <;> induction results <;> simp_all [delivered]

@[simp] theorem delivered_nil {α : Type} (d : Delivery) : d.delivered ([] : List (Option α)) = [] :=
  d.delivered_map_some []

theorem mem_of_mem_delivered {α : Type} {d : Delivery} {results : List (Option α)} {a : α}
    (h : a ∈ d.delivered results) : some a ∈ results := by
  cases d with
  | asEnded => simpa [delivered] using h
  | inOrder =>
    have hmem : some a ∈ results.takeWhile Option.isSome := by simpa [delivered] using h
    exact (List.takeWhile_prefix _).subset hmem

/-- A call that has just been started delivers nothing yet. -/
theorem delivered_concat_none {α : Type} (d : Delivery) (results : List (Option α)) :
    d.delivered (results ++ [none]) = d.delivered results := by
  cases d with
  | asEnded => simp [delivered]
  | inOrder =>
    simp only [delivered, List.takeWhile_append]
    split
    · next hlength =>
      have hall := (List.takeWhile_prefix Option.isSome).eq_of_length hlength
      simp [hall]
    · rfl

theorem mem_delivered_of_ended {α : Type} (d : Delivery) {results : List (Option α)} {a : α}
    (hended : ∀ x ∈ results, x.isSome) (h : some a ∈ results) : a ∈ d.delivered results := by
  have hall : results.takeWhile Option.isSome = results := by
    rw [← List.append_nil results, List.takeWhile_append_of_pos hended]
    rfl
  cases d with
  | asEnded => simpa [delivered] using h
  | inOrder => simpa [delivered, hall] using h

end Delivery

end TaskGraph
