/-!
# Sorting by runs

A stable sort that merges the sorted runs of a list. Runs that lie next to each other are merged in
the order of a nearly balanced tree: where two of them meet has a power, the depth at which halving
the list again and again first falls between their middles, and deeper meetings are merged first.

An order in which some items cannot be compared, such as that of doubles among which there is one
that is no number, still has one result.
-/
namespace ChangeReview.Order

/-!
## Runs

The sorted run at the front of a list, turned around if it descends. A run that is too short is made
longer by binary insertion: each item behind it is put into its place among the items in front of
it. Of two items only one thing is asked, whether one comes before the other.
-/

variable {α : Type}

/-- The items from `a` on as long as each is in the relation to the next one, and the rest. -/
def takeRun (related : α → α → Bool) (a : α) : List α → List α × List α
  | [] => ([a], [])
  | b :: r =>
    if related a b then
      let (run, rest) := takeRun related b r
      (a :: run, rest)
    else ([a], b :: r)

/-- The first run of a list in ascending order, and the rest. A run descends only if each of its
items comes strictly before the one in front of it. -/
def firstRun (before : α → α → Bool) : List α → List α × List α
  | a :: b :: r =>
    if before b a then
      let (run, rest) := takeRun (fun x y => before y x) a (b :: r)
      (run.reverse, rest)
    else takeRun (fun x y => !before y x) a (b :: r)
  | xs => (xs, [])

/-- The place for an item among sorted ones, not below `low` and not above `high`: behind those that
it does not come before. -/
def placeOf (before : α → α → Bool) (x : α) (sorted : Array α) (low high : Nat) : Nat :=
  if low < high then
    let middle := low + (high - low) / 2
    match sorted[middle]? with
    | some y =>
      if before x y then placeOf before x sorted low middle
      else placeOf before x sorted (middle + 1) high
    | none => low
  else low
termination_by high - low

/-- The sorted items with one more in its place. -/
def insertItem (before : α → α → Bool) (sorted : List α) (x : α) : List α :=
  let place := placeOf before x sorted.toArray 0 sorted.length
  sorted.take place ++ x :: sorted.drop place

/-- A sorted run of the items at the front, of at least `least` items if there are as many, and the
rest. -/
def takeSorted (before : α → α → Bool) (least : Nat) (xs : List α) : List α × List α :=
  let (run, rest) := firstRun before xs
  let missing := least - run.length
  ((rest.take missing).foldl (insertItem before) run, rest.drop missing)

/-!
## Galloping merges

The merge of two sorted runs that looks further ahead the longer one of the runs wins. It asks of
two items only whether one comes before the other; where some items cannot be compared, the order of
the result is the one that these steps lead to.

A merge goes forward from the first items of the runs if the left run is not longer than the right
one, and backward from the last items if it is. The lists of a merge stand in its direction.
-/

/-- The number of steps that a gallop takes away from its start, at least `reach` and at most
`most`, as long as `goesOn` holds; with it the number of steps that are known to hold. -/
def stride (goesOn : Nat → Bool) (most : Nat) : (fuel reach held : Nat) → Nat × Nat
  | 0, reach, held => (min reach most, held)
  | fuel + 1, reach, held =>
    if reach < most && goesOn reach then stride goesOn most fuel (2 * reach + 1) reach
    else (min reach most, held)

/-- The first of the indices from `low` on and below `high` that is past the place looked for, or
`high`, by a binary search. -/
def search (isPast : Nat → Bool) (low high : Nat) : Nat :=
  if low < high then
    let middle := low + (high - low) / 2
    if isPast middle then search isPast low middle else search isPast (middle + 1) high
  else low
termination_by high - low

/-- The first of `count` indices that is past the place looked for, found by strides away from the
first index. -/
def gallopUp (isPast : Nat → Bool) (count : Nat) : Nat :=
  if isPast 0 then 0
  else
    let (reach, held) := stride (fun n => !isPast n) count count 1 0
    search isPast (held + 1) reach

/-- The first of `count` indices that is past the place looked for, found by strides away from the
last index. -/
def gallopDown (isPast : Nat → Bool) (count : Nat) : Nat :=
  if isPast (count - 1) then
    let (reach, held) := stride (fun n => isPast (count - 1 - n)) count count 1 0
    search isPast (count - reach) (count - 1 - held)
  else count

/-- The state of a merge: what has been merged, the last item first, and what is left of the runs. -/
structure Merge (α : Type) where
  merged : List α
  left : List α
  right : List α

/-- How a merge goes: whether forward, and whether an item of the left run comes next before one of
the right run. -/
structure Direction (α : Type) where
  isForward : Bool
  leftNext : α → α → Bool

/-- Forward, the left item comes next unless the right one is before it. -/
def forward (before : α → α → Bool) : Direction α := ⟨true, fun a b => !before b a⟩

/-- Backward, the left item comes next if the right one is before it. -/
def backward (before : α → α → Bool) : Direction α := ⟨false, fun a b => before b a⟩

/-- The number of items at the front of a list that move on, found by strides from the front. The
list of a backward merge stands in reverse. -/
def Direction.gallop (d : Direction α) (moves : α → Bool) (xs : List α) : Nat :=
  if d.isForward then
    let items := xs.toArray
    gallopUp (fun n => (items[n]?).any fun x => !moves x) items.size
  else
    let items := xs.reverse.toArray
    items.size - gallopDown (fun n => (items[n]?).any moves) items.size

namespace Merge

/-- Only one order of what is left is possible: the run that was longer comes next. -/
def isDone (d : Direction α) (m : Merge α) : Bool :=
  if d.isForward then m.left.length ≤ 1 || m.right.isEmpty
  else m.left.isEmpty || m.right.length ≤ 1

/-- The items of both runs in the direction of the merge. -/
def finish (d : Direction α) (m : Merge α) : List α :=
  m.merged.reverse ++ if d.isForward then m.right ++ m.left else m.left ++ m.right

/-- The merge with the first items of the left run moved on. -/
def takeLeft (count : Nat) (m : Merge α) : Merge α :=
  { m with merged := (m.left.take count).reverse ++ m.merged, left := m.left.drop count }

/-- The merge with the first items of the right run moved on. -/
def takeRight (count : Nat) (m : Merge α) : Merge α :=
  { m with merged := (m.right.take count).reverse ++ m.merged, right := m.right.drop count }

/-- All items of the left run that come before the next right one, and their number. -/
def gallopLeft (d : Direction α) (m : Merge α) : Nat × Merge α :=
  match m.right with
  | b :: _ =>
    let count := d.gallop (fun a => d.leftNext a b) m.left
    (count, m.takeLeft count)
  | [] => (0, m)

/-- All items of the right run that come before the next left one, and their number. -/
def gallopRight (d : Direction α) (m : Merge α) : Nat × Merge α :=
  match m.left with
  | a :: _ =>
    let count := d.gallop (fun b => !d.leftNext a b) m.right
    (count, m.takeRight count)
  | [] => (0, m)

/-- The merge after a step that is taken unless it is done. -/
def unlessDone (d : Direction α) (step : Merge α → Nat × Merge α) (m : Merge α) : Nat × Merge α :=
  if m.isDone d then (0, m) else step m

end Merge

/-- The number of items in a row from which galloping pays. -/
def galloping : Nat := 7

/-- Whether a merge gallops, or takes one item after the other; then the number of items that came
last in a row from the left and from the right run. -/
inductive Pace where
  | gallops
  | steps (lefts rights : Nat)

/-- The items of both runs in the direction of the merge, and the threshold for galloping that is
left. The threshold grows where galloping ends and shrinks while it lasts. The fuel is above the
number of items. -/
def mergeOn (d : Direction α) : (fuel threshold : Nat) → Pace → Merge α → List α × Nat
  | 0, threshold, _, m => (m.finish d, threshold)
  | fuel + 1, threshold, pace, m =>
    if m.isDone d then (m.finish d, threshold)
    else match pace, m.left, m.right with
      | .steps lefts rights, a :: _, b :: _ =>
        let (lefts, rights, m) := if d.leftNext a b then (lefts + 1, 0, m.takeLeft 1)
          else (0, rights + 1, m.takeRight 1)
        if m.isDone d then (m.finish d, threshold)
        else if threshold ≤ max lefts rights then mergeOn d fuel (threshold + 1) .gallops m
        else mergeOn d fuel threshold (.steps lefts rights) m
      | .gallops, _, _ =>
        let threshold := max 1 (threshold - 1)
        let (lefts, m) := m.gallopLeft d
        let (_, m) := m.unlessDone d fun m => (1, m.takeRight 1)
        let (rights, m) := m.unlessDone d (·.gallopRight d)
        let (_, m) := m.unlessDone d fun m => (1, m.takeLeft 1)
        if m.isDone d then (m.finish d, threshold)
        else if galloping ≤ max lefts rights then mergeOn d fuel threshold .gallops m
        else mergeOn d fuel (threshold + 1) (.steps 0 0) m
      | _, _, _ => (m.finish d, threshold)

/-- Two runs merged, neither of which is empty, the first item of the right one coming before that
of the left one and its last item before that of the left one; and the threshold that is left. -/
def mergeCore (before : α → α → Bool) (threshold : Nat) (left right : List α) : List α × Nat :=
  let fuel := left.length + right.length + 1
  if left.length ≤ right.length then
    mergeOn (forward before) fuel threshold (.steps 0 0) (Merge.takeRight 1 ⟨[], left, right⟩)
  else
    let start := Merge.takeLeft 1 ⟨[], left.reverse, right.reverse⟩
    (mergeOn (backward before) fuel threshold (.steps 0 0) start).map List.reverse id

/-- Two runs merged, and the threshold for galloping that is left. What comes before all of the
right run, or behind all of the left run, stays where it is. -/
def mergeRuns (before : α → α → Bool) (threshold : Nat) (left right : List α) : List α × Nat :=
  match right, left.getLast? with
  | b :: _, some a =>
    let settled := (forward before).gallop (fun x => !before b x) left
    let loose := left.drop settled
    if loose.isEmpty then (left ++ right, threshold)
    else
      let count := right.length - (backward before).gallop (fun y => !before y a) right.reverse
      if count = 0 then (left ++ right, threshold)
      else
        let (items, threshold) := mergeCore before threshold loose (right.take count)
        (left.take settled ++ items ++ right.drop count, threshold)
  | _, _ => (left ++ right, threshold)

/-! ## The tree of merges -/

/-- The depth at which halving first falls between `low / count` and `high / count`, both below two
and the first below the second. -/
def powerBetween (count : Nat) : (fuel low high : Nat) → Nat
  | 0, _, _ => 0
  | fuel + 1, low, high =>
    if count ≤ low then 1 + powerBetween count fuel (2 * (low - count)) (2 * (high - count))
    else if count ≤ high then 1
    else 1 + powerBetween count fuel (2 * low) (2 * high)

/-- The power of the place where two runs meet in a list of `count` items, the first of which starts
at an index. -/
def powerOf (count start first second : Nat) : Nat :=
  let low := 2 * start + first
  powerBetween count (count + 1) low (low + first + second)

/-- A run that waits to be merged, and the power of the place where it meets the next one. -/
structure Waiting (α : Type) where
  items : List α
  power : Nat

/-- The runs that wait, the last one first, and the threshold for galloping. -/
structure Pending (α : Type) where
  runs : List (Waiting α)
  threshold : Nat

namespace Pending

/-- The number of items of the runs in a list of them. -/
def itemCount (runs : List (Waiting α)) : Nat := runs.foldl (fun n r => n + r.items.length) 0

/-- The last two runs merged, as long as the place where they meet is deeper than `power`; then the
last run meets the next one at `power`. -/
def settle (before : α → α → Bool) (power threshold : Nat) :
    List (Waiting α) → Pending α
  | last :: previous :: runs =>
    if power < previous.power then
      let (items, threshold) := mergeRuns before threshold previous.items last.items
      settle before power threshold (⟨items, previous.power⟩ :: runs)
    else ⟨{ last with power } :: previous :: runs, threshold⟩
  | last :: runs => ⟨{ last with power } :: runs, threshold⟩
  | [] => ⟨[], threshold⟩
termination_by runs => runs.length

/-- The waiting runs of a list of `count` items with one more behind them. -/
def push (before : α → α → Bool) (count : Nat) (p : Pending α) (run : List α) : Pending α :=
  match p.runs with
  | [] => { p with runs := [⟨run, 0⟩] }
  | last :: runs =>
    let power := powerOf count (itemCount runs) last.items.length run.length
    let p := settle before power p.threshold p.runs
    { p with runs := ⟨run, 0⟩ :: p.runs }

/-- All waiting runs merged: the last two, or the two in front of the last one if the first of these
is shorter than it. -/
def collapse (before : α → α → Bool) (threshold : Nat) : List (Waiting α) → List α
  | last :: previous :: first :: runs =>
    if first.items.length < last.items.length then
      let (items, threshold) := mergeRuns before threshold first.items previous.items
      collapse before threshold (last :: ⟨items, 0⟩ :: runs)
    else
      let (items, threshold) := mergeRuns before threshold previous.items last.items
      collapse before threshold (⟨items, 0⟩ :: first :: runs)
  | [last, previous] => (mergeRuns before threshold previous.items last.items).1
  | [last] => last.items
  | [] => []
termination_by runs => runs.length

end Pending

/-- The least size of a run in a list of `count` items, below sixty-four unless a smaller one would
leave a rest: the list is cut into a power of two of equal parts, rounded up. -/
def leastRun (count : Nat) : Nat :=
  let parts := Nat.pow 2 (count.log2 - 5)
  (count + parts - 1) / parts

/-- The runs of a list of `count` items behind those that wait already, all of them merged. -/
def sortFrom (before : α → α → Bool) (count least : Nat) : (fuel : Nat) → Pending α → List α →
    List α
  | 0, p, xs => Pending.collapse before p.threshold p.runs ++ xs
  | _ + 1, p, [] => Pending.collapse before p.threshold p.runs
  | fuel + 1, p, xs =>
    let (run, rest) := takeSorted before least xs
    sortFrom before count least fuel (p.push before count run) rest

/-- The list in the order that `before` gives. -/
def sort (before : α → α → Bool) (xs : List α) : List α :=
  sortFrom before xs.length (leastRun xs.length) (xs.length + 1) ⟨[], galloping⟩ xs

end ChangeReview.Order
