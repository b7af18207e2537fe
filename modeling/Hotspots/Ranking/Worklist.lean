import Hotspots.Ranking.DenseRank
import Hotspots.Scan.Scorer

/-!
# The work-list

A file is worth the more attention the more often it was changed and the less healthy it is. Each of the two
is reduced to a dense rank, where 0 is the highest value; the weighted sum of the two ranks, ranked densely
again, is the priority tier. Sums of whole weights are taken in machine words and wrap.
-/

namespace Hotspots

/-- An entry of the work-list. -/
structure WorkItem where
  identity : FileIdentity
  changeCount : Int
  score : Binary64
  rule : String
  subject : String
  /-- 0 for the files that were changed most. -/
  changeRank : Int
  /-- 0 for the least healthy files. -/
  disharmonyRank : Int
  /-- The tier, 0 for the most urgent. -/
  priority : Int
  firstModified : Int
  lastModified : Int
  metrics : List (String × Value)
  deriving Repr

namespace Worklist

/-- A file that is ranked: its churn and its finding. -/
structure Candidate where
  identity : FileIdentity
  record : ChurnRecord
  finding : Finding
  deriving Repr

/-- A file with its finding as a candidate, if it is live and its score is not below zero. -/
def candidate? (churn : List (FileIdentity × ChurnRecord)) (identity : FileIdentity)
    (finding : Option Finding) : Option Candidate :=
  match Record.get? identity churn, finding with
  | some record, some f =>
    if record.isLive && !f.score.lt .zero then some ⟨identity, record, f⟩ else none
  | _, _ => none

/-- Whether an identity may come before another: the smaller path first, then the smaller uid. -/
def precedes (a b : FileIdentity) : Bool := a.path < b.path || (a.path == b.path && a.uid ≤ b.uid)

/-- The candidates in order. -/
def candidates (churn : List (FileIdentity × ChurnRecord))
    (scores : List (FileIdentity × Option Finding)) : List Candidate :=
  (scores.filterMap fun (identity, finding) => candidate? churn identity finding).mergeSort
    fun a b => precedes a.identity b.identity

/-- How often a candidate was changed, at least once. -/
def Candidate.changeCount (c : Candidate) : Int := max 1 c.record.changeCount

/-! ## Weighted sums -/

/-- The weights of the two ranks. -/
structure Weights where
  change : Number := .whole 1
  disharmony : Number := .whole 1
  deriving Repr

/-- An integer cut to a signed machine word. -/
def wrap (i : Int) : Int := Int.bmod i 0x10000000000000000

/-- A rank times a weight. -/
def weighted (weight : Number) (rank : Nat) : Number :=
  match weight with
  | .whole w => .whole (wrap (w * rank))
  | .real x => .real (x.mul (.ofInt rank))

/-- A term as a real number. -/
def asReal : Number → Binary64
  | .whole i => .ofInt i
  | .real x => x

/-- The sum of two terms. -/
def plus : Number → Number → Number
  | .whole a, .whole b => .whole (wrap (a + b))
  | a, b => .real ((asReal a).add (asReal b))

/-- A weight that a machine word can hold. -/
def checkWeight : Number → Except Fault Unit
  | .whole w => if DenseRank.isWord w then .ok () else .error .weightTooLarge
  | .real _ => .ok ()

/-- The weighted sum of two ranks. -/
def combined (w : Weights) (changeRank disharmonyRank : Nat) : Number :=
  plus (weighted w.change changeRank) (weighted w.disharmony disharmonyRank)

/-! ## Ranking -/

/-- The ranks of candidates by churn and by score, and their tiers. -/
structure Ranks where
  change : List Nat
  disharmony : List Nat
  priority : List Nat
  deriving Repr

/-- Ranks candidates. -/
def ranksOf (w : Weights) (cs : List Candidate) : Except Fault Ranks := do
  let change ← DenseRank.descending (cs.map fun c => .whole c.changeCount)
  let disharmony ← DenseRank.descending (cs.map fun c => .real c.finding.score)
  checkWeight w.change
  checkWeight w.disharmony
  let sums := List.zipWith (combined w) change disharmony
  return { change := change
           disharmony := disharmony
           priority := DenseRank.ranks sums }

/-- The entry of a candidate with its ranks. -/
def item (c : Candidate) (changeRank disharmonyRank priority : Nat) : WorkItem :=
  { identity := c.identity
    changeCount := c.changeCount
    score := c.finding.score
    rule := c.finding.rule
    subject := c.finding.subject
    changeRank := changeRank
    disharmonyRank := disharmonyRank
    priority := priority
    firstModified := c.record.firstModified
    lastModified := c.record.lastModified
    metrics := c.finding.metrics }

/-- The entries of candidates with their ranks. -/
def items : List Candidate → List Nat → List Nat → List Nat → List WorkItem
  | c :: cs, r :: rs, d :: ds, p :: ps => item c r d p :: items cs rs ds ps
  | _, _, _, _ => []

/-- Whether an entry may come before another: the smaller tier first, then the smaller path and uid. -/
def comesBefore (a b : WorkItem) : Bool :=
  a.priority < b.priority || (a.priority == b.priority && precedes a.identity b.identity)

/-- The work-list of candidates, in order. -/
def ofCandidates (w : Weights) (cs : List Candidate) : Except Fault (List WorkItem) := do
  let ranks ← ranksOf w cs
  return (items cs ranks.change ranks.disharmony ranks.priority).mergeSort comesBefore

/-- How many tiers a work-list has. -/
def tierCount (list : List WorkItem) : Nat :=
  (list.map fun i => i.priority.toNat + 1).foldl max 0

variable {σ : Type} [HasSession σ]

/-- The work-list of the files that have both churn and a score, are live, and whose score is not below
zero. -/
def rank (churn : List (FileIdentity × ChurnRecord)) (scores : List (FileIdentity × Option Finding))
    (w : Weights) : Run σ (List WorkItem) :=
  match candidates churn scores with
  | [] => return []
  | cs => do
    let list ← Run.ofFault (ofCandidates w cs)
    Run.log .info ("Ranked " ++ natText list.length ++ " disharmonies into "
      ++ natText (tierCount list) ++ " priority tiers")
    return list

end Worklist

end Hotspots
