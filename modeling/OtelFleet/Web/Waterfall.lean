import OtelFleet.Lib.DepthFirst
import OtelFleet.Lib.Grouping
import OtelFleet.Lib.Sorting

-- The rows of the trace view: the spans of a trace in the order in which they are shown.
namespace Web

-- The sort of arrays with a comparison that yields a number, or none if it is not a number. The elements stay the same.
-- If the comparison is by a key, the sort is stable.
class ArraySort where
  sort {α : Type} : (α → α → Option Int) → List α → List α
  sort_perm {α : Type} (compare : α → α → Option Int) (l : List α) : (sort compare l).Perm l
  sort_eq {α : Type} {compare : α → α → Option Int} {key : α → Int} {l : List α}
    (h : ∀ a ∈ l, ∀ b ∈ l, compare a b = some (key a - key b)) : sort compare l = Sorting.sortBy key l

@[reducible]
def ArraySort.stable : ArraySort where
  sort compare l := l.insertionSort fun a b => (compare a b).getD 0 ≤ 0
  sort_perm compare l := List.perm_insertionSort _ l
  sort_eq {α compare key l} h := by
    refine (List.map_id _).symm.trans ((List.map_insertionSort _ _ id l fun a ha b hb => ?_).trans (by rw [List.map_id]; rfl))
    rw [h a ha b hb, Option.getD_some, id, id]
    omega

-- A span, as far as it matters here. The start time is none if it cannot be read.
structure Span where
  spanId : String
  parentSpanId : Option String
  startTime : Option Int
deriving DecidableEq

structure SpanNode where
  span : Span
  depth : Nat
deriving DecidableEq

namespace Waterfall

def byStart (a b : Span) : Option Int := do
  let start ← a.startTime
  let other ← b.startTime
  return start - other

def shownUnder (spans : List Span) (span : Span) : Option String :=
  match span.parentSpanId with
  | some parentId => if parentId ≠ span.spanId ∧ spans.any (·.spanId = parentId) then some parentId else none
  | none => none

structure Groups where
  childrenOf : List (String × List Span)
  roots : List Span

def Groups.insert (spans : List Span) (g : Groups) (span : Span) : Groups :=
  match shownUnder spans span with
  | some parentId => { g with childrenOf := Grouping.push (fun _ => parentId) g.childrenOf span }
  | none => { g with roots := g.roots ++ [span] }

def group (spans : List Span) : Groups :=
  spans.foldl (Groups.insert spans) { childrenOf := [], roots := [] }

-- A span that no walk has met is in a cycle, or it has the ID of another one.
def surface (st : DepthFirst.State Span String) (span : Span) : DepthFirst.State Span String :=
  if span.spanId ∈ st.visited then st else st.visit span.spanId span 0

variable [ArraySort]

def Groups.children (g : Groups) (span : Span) : List Span :=
  (((g.childrenOf.map fun e => (e.1, ArraySort.sort byStart e.2)).lookup span.spanId).getD [])

def walk (g : Groups) : Nat → Nat → DepthFirst.State Span String → Span → Option (DepthFirst.State Span String) :=
  DepthFirst.walk (·.spanId) g.children

def buildSpanTree (fuel : Nat) (spans : List Span) : Option (List SpanNode) := do
  let g := group spans
  let st ← (ArraySort.sort byStart g.roots).foldlM (walk g fuel 0) .empty
  return (spans.foldl surface st).ordered.map fun n => { span := n.1, depth := n.2 }

end Waterfall
end Web
