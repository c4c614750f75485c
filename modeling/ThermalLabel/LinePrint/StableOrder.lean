/-!
# Stable ordering

A list is put in order by keeping its opening run and inserting the other items one by one, each
behind those it is not before. The run is the longest one that never falls, or the longest one that
always falls, reversed. Items that are not before each other keep their order.
-/

namespace ThermalLabel

variable {α : Type} (before : α → α → Bool)

/-- The items that follow without any being before its predecessor, and the rest. -/
def risingRun : α → List α → List α × List α
  | _, [] => ([], [])
  | last, a :: rest =>
    if before a last then ([], a :: rest)
    else
      let (run, rest) := risingRun a rest
      (a :: run, rest)

/-- The items that follow, each before its predecessor, and the rest. -/
def fallingRun : α → List α → List α × List α
  | _, [] => ([], [])
  | last, a :: rest =>
    if before a last then
      let (run, rest) := fallingRun a rest
      (a :: run, rest)
    else ([], a :: rest)

/-- The run that a list opens with, in rising order, and the rest. -/
def openingRun : List α → List α × List α
  | a :: b :: rest =>
    if before b a then
      let (run, rest) := fallingRun before b rest
      ((a :: b :: run).reverse, rest)
    else
      let (run, rest) := risingRun before b rest
      (a :: b :: run, rest)
  | xs => (xs, [])

/-- Where an item goes between two positions of a list, by halving. -/
def insertionPoint (a : α) (xs : List α) (low high : Nat) : Nat :=
  if low < high then
    let middle := low + (high - low) / 2
    match xs[middle]? with
    | some b =>
      if before a b then insertionPoint a xs low middle
      else insertionPoint a xs (middle + 1) high
    | none => low
  else low
termination_by high - low

/-- An item put into its place in an ordered list. -/
def insertOrdered (xs : List α) (a : α) : List α :=
  let i := insertionPoint before a xs 0 xs.length
  xs.take i ++ a :: xs.drop i

def stableOrder (xs : List α) : List α :=
  let (run, rest) := openingRun before xs
  rest.foldl (insertOrdered before) run

end ThermalLabel
