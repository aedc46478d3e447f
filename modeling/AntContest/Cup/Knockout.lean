import AntContest.Cup.Match

/-!
# Knockout cups

The entrants are shuffled once, with the random source of the cup's seed.  In each round the
neighbours play a match; with an odd number the last one goes on without a match.  The winners, in
the order of their matches, and that last one make up the next round, until one is left.
-/

namespace AntContest

/-- Why a cup cannot be played. -/
inductive CupError where
  | tooFew (count : Nat)
  | duplicate (name : String)
deriving DecidableEq, Repr

def CupError.message : CupError → String
  | tooFew count => s!"Too few entrants: {count} (minimum 2)"
  | duplicate name => s!"Duplicate entrant name: {name}"

namespace Cup

/-- The first name that has come before. -/
def duplicate? : List String → List String → Option String
  | _, [] => none
  | seen, name :: names =>
    if name ∈ seen then some name else duplicate? (name :: seen) names

/-- Exchanges each place from `i` down to the second with a drawn place up to it. -/
def shuffleFrom {α : Type} : Nat → Random → Array α → Array α
  | 0, _, entrants => entrants
  | i + 1, random, entrants =>
    let (j, random) := random.draw (UInt32.ofNat (i + 2))
    shuffleFrom i random (entrants.swapIfInBounds (i + 1) j.toNat)

/-- The entrants in the order of the draw. -/
def shuffle {α : Type} (seed : Int64) (entrants : List α) : List α :=
  (shuffleFrom (entrants.length - 1) (.ofSeed seed) entrants.toArray).toList

/-- Neighbours in pairs, and the last one if it has no neighbour. -/
def pairUp {α : Type} : List α → List (α × α) × Option α
  | [] => ([], none)
  | [a] => ([], some a)
  | a :: b :: rest =>
    let (pairs, bye) := pairUp rest
    ((a, b) :: pairs, bye)

theorem length_pairUp {α : Type} (pool : List α) :
    2 * (pairUp pool).1.length + (pairUp pool).2.toList.length = pool.length := by
  induction pool using pairUp.induct with
  | case1 => rfl
  | case2 => rfl
  | case3 a b rest pairs bye h ih =>
    rw [h] at ih
    simp only [pairUp, h, List.length_cons] at ih ⊢
    omega

/-- The brain of a pair that won their match. -/
def winnerOf (pair : Brain × Brain) (result : MatchResult) : Brain :=
  if pair.1.name = result.winner then pair.1 else pair.2

/-- Plays a round: its results, and the entrants of the next round. -/
def playPool (ground : Ground) (config : CupConfig) (pool : List Brain) :
    CupRound × List Brain :=
  let (pairs, bye) := pairUp pool
  let results := pairs.map fun (first, second) => playMatch ground first second config
  (⟨results, bye.map (·.name)⟩, List.zipWith winnerOf pairs results ++ bye.toList)

theorem length_playPool (ground : Ground) (config : CupConfig) (pool : List Brain) :
    (playPool ground config pool).2.length =
      (pairUp pool).1.length + (pairUp pool).2.toList.length := by
  simp [playPool]

/-- Plays rounds until at most one entrant is left. -/
def playAll (ground : Ground) (config : CupConfig) (pool : List Brain) :
    List CupRound × List Brain :=
  if pool.length ≤ 1 then ([], pool)
  else
    match _next : playPool ground config pool with
    | (round, next) =>
      let (rounds, rest) := playAll ground config next
      (round :: rounds, rest)
termination_by pool.length
decreasing_by
  have h1 := length_pairUp pool
  have h2 := length_playPool ground config pool
  have h3 : (pairUp pool).2.toList.length ≤ 1 := by cases (pairUp pool).2 <;> simp
  simp only [_next] at h2
  omega

def play (ground : Ground) (entrants : List Brain) (config : CupConfig) :
    Except CupError CupResult :=
  if entrants.length < 2 then .error (.tooFew entrants.length)
  else
    match duplicate? [] (entrants.map (·.name)) with
    | some name => .error (.duplicate name)
    | none =>
      let pool := shuffle config.game.seed entrants
      let (rounds, rest) := playAll ground config pool
      .ok ⟨pool.map (·.name), rounds, (rest.head?.map (·.name)).getD ""⟩

end Cup

end AntContest
