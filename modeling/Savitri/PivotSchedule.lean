import Savitri.LatticeTypes

/-!
The pivot election of lattice/pivot.rs: a weighted schedule of
`PIVOT_TENURE_SLOTS` slots, shuffled by an xorshift generator seeded from the
group and the tenure window. Scores are `u32` values, so the running sums stay
below `u64` for every list that fits in memory and are kept as `Nat`.
-/
namespace Savitri.PivotSchedule
open LatticeTypes

def pivotTenureSlots : Nat := 1

/-- Each peer fills the slots up to its rounded-down cumulative share. -/
def fillSlots (slots total : Nat) : List (String × Nat) → Nat → List String → List String
  | [], _, schedule => schedule
  | (peer, score) :: rest, acc, schedule =>
    let weight := max score 1
    let target := (acc + weight) * slots / total
    fillSlots slots total rest (acc + weight)
      (schedule ++ List.replicate (target - schedule.length) peer)

def xorshift (state : UInt64) : UInt64 :=
  let first := state ^^^ (state <<< 13)
  let second := first ^^^ (first >>> 7)
  second ^^^ (second <<< 17)

def swap (schedule : List String) (left right : Nat) : List String :=
  match schedule[left]?, schedule[right]? with
  | some atLeft, some atRight => (schedule.set left atRight).set right atLeft
  | _, _ => schedule

/-- Fisher-Yates from the last index down to 1. -/
def shuffleFrom : Nat → UInt64 → List String → List String
  | 0, _, schedule => schedule
  | index + 1, state, schedule =>
    let next := xorshift state
    shuffleFrom index next (swap schedule (index + 1) (next.toNat % (index + 2)))

variable (crypto : Crypto)

def seedState (groupId : String) (tenureWindow : Nat) : UInt64 :=
  let input := "savitri-lattice-pivot-v1|" ++ groupId ++ "|" ++ toString tenureWindow
  let bytes := (crypto.blake3 input.toUTF8.toList).toList.take 8
  let state := bytes.foldr (fun byte value => value * 256 + byte.toUInt64) 0
  if state = 0 then 0xdeadbeefdeadbeef else state

def buildWeightedPivotSchedule (ranked : List (String × Nat)) (cycleIndex : Nat) (groupId : String) :
    List String :=
  let total := max (ranked.map fun entry => max entry.2 1).sum 1
  let filled := fillSlots pivotTenureSlots total ranked 0 []
  -- Rounding down can leave slots open; the first ranked peer takes them.
  let padded := filled ++
    List.replicate (pivotTenureSlots - filled.length) ((ranked.head?.map Prod.fst).getD "")
  shuffleFrom (padded.length - 1) (seedState crypto groupId (cycleIndex / pivotTenureSlots)) padded

def pivotForCycle (groupId : String) (cycleIndex : Nat) (ranked : List (String × Nat)) :
    Option String :=
  if ranked.isEmpty then none
  else (buildWeightedPivotSchedule crypto ranked cycleIndex groupId)[
    cycleIndex % pivotTenureSlots]?

end Savitri.PivotSchedule
