import TagRank.Ranking.View
import TagRank.Text.Blank
import TagRank.Text.Case

/-!
Kernels, which score the nodes of a view: the power kernel, whose scores sum to the number of nodes,
and the stationary kernel, whose scores sum to one. A kernel reads weights through a weight field,
runs a number of rounds at most, and is damped.
-/

namespace TagRank

abbrev Kernel (α : Type) := View α → String → Int → α → Except Error (Scores α)

namespace Kernel

variable {α : Type} [Scalar α]

namespace Power

/-- What a node receives: from each neighbour its score, in the share of the edge in the neighbour's
strength. Neighbours without strength give nothing. -/
def received (strengths scores : Scores α) (row : List (String × α)) : α :=
  row.foldl (fun sum (b, weight) =>
    if 0 < strengths.get b then sum + weight / strengths.get b * scores.get b else sum) 0

def round (v : View α) (strengths : Scores α) (damping : α) (scores : Scores α) : Scores α :=
  v.rows.map fun (a, row) => (a, (1 - damping) + damping * received strengths scores row)

def change (old new : Scores α) : α :=
  (Scalar.greatest? (new.map fun (a, x) => Scalar.abs (x - old.get a))).getD 0

def strengths (v : View α) : Scores α :=
  v.rows.map fun (a, row) => (a, Scalar.sum (row.map Prod.snd))

def start (v : View α) : Scores α := v.nodes.map fun a => (a, 1)

def run (v : View α) (damping tolerance : α) : Nat → Scores α → Scores α
  | 0, scores => scores
  | n + 1, scores =>
    let next := round v (strengths v) damping scores
    if change scores next < tolerance then next else run v damping tolerance n next

end Power

def power (tolerance : α) : Kernel α := fun v field rounds damping =>
  let v := v.through field
  return Power.run v damping tolerance rounds.toNat (Power.start v)

namespace Stationary

/-- The inverse of a strength; zero stays zero. -/
def inverse (x : α) : α := if x < 0 ∨ 0 < x then 1 / x else 0

def received (v : View α) (scores : Scores α) (c : String) : α :=
  v.rows.foldl (fun sum (j, row) =>
    match Assoc.get? c row with
    | some weight => sum + inverse (Scalar.sum (row.map Prod.snd)) * weight * scores.get j
    | none => sum) 0

/-- The scores of nodes without strength, which are dealt out to all nodes alike. -/
def dangling (v : View α) (scores : Scores α) : α :=
  Scalar.sum ((v.rows.filter fun (_, row) =>
    let s := Scalar.sum (row.map Prod.snd)
    !(decide (s < 0) || decide (0 < s))).map fun (a, _) => scores.get a)

def share (v : View α) : α := 1 / ((v.rows.length : Nat) : α)

def round (v : View α) (damping : α) (scores : Scores α) : Scores α :=
  let spread := dangling v scores * share v
  v.nodes.map fun c =>
    (c, damping * (received v scores c + spread) + (1 - damping) * share v)

def change (old new : Scores α) : α :=
  Scalar.sum (new.map fun (a, x) => Scalar.abs (x - old.get a))

def start (v : View α) : Scores α := v.nodes.map fun a => (a, share v)

/-- Rounds until the sum of changes is below the tolerance times the number of nodes. -/
def run (v : View α) (damping tolerance : α) : Nat → Scores α → Option (Scores α)
  | 0, _ => none
  | n + 1, scores =>
    let next := round v damping scores
    if change scores next < ((v.rows.length : Nat) : α) * tolerance then some next
    else run v damping tolerance n next

end Stationary

def stationary (tolerance : α) : Kernel α := fun v field rounds damping =>
  let v := v.through field
  if v.rows.isEmpty then return []
  else match Stationary.run v damping tolerance rounds.toNat (Stationary.start v) with
    | some scores => return scores
    | none => throw (.notConverged rounds)

def ofName (name : String) (tolerance : α) : Except Error (Kernel α) :=
  let word := Text.lower (Text.trim (if name = "" then "power" else name))
  if word = "power" then return power tolerance
  else if word = "networkx" then return stationary tolerance
  else throw (.unknownKernel name)

end Kernel

end TagRank
