import Savitri.EvenParts
import Savitri.GroupConsensus

/-!
How the group formation of the masternode, group_formation.rs, divides light nodes into
groups. The scores are doubles as in the source. The environment variable that forces a
single group and the clock are read once for each formation, and may differ between them.
-/
namespace Savitri.GroupFormation
open Std (ExtTreeMap)
open EvenParts
open GroupConsensus (GroupStatus NodeAssignmentStatus)

structure LightNodeInfo where
  nodeId : String
  peerId : String
  multiaddr : String
  geographicRegion : String
  pouScore : Float
  lastSeen : UInt64
  uptimePercentage : Float
  assignment : NodeAssignmentStatus := .free

structure P2PGroup where
  groupId : String
  members : List String
  memberMultiaddrs : ExtTreeMap String String
  proposer : Option String
  groupLeaderMasternode : Option String
  createdAt : UInt64
  epoch : UInt64
  geographicRegion : String
  status : GroupStatus
  healthScore : Float
  assignedShards : List Nat

structure GroupFormationConfig where
  minGroupSize : Nat := 5
  targetGroups : Nat := 10
  formationIntervalEpochs : UInt64 := 1
  nodeTimeoutSecs : UInt64 := 600
  dissolutionDisconnectThreshold : Float := 0.95
  geographicDistribution : Bool := true
  minimumStake : Nat := 1000000

/-- Whether `SAVITRI_FORCE_SINGLE_GROUP` is set, and the clock when each group is made. -/
structure Surroundings where
  forceSingle : Bool := false
  clock : Nat → UInt64

def contains (text part : String) : Bool := decide (part.toList <:+: text.toList)

section
variable (config : GroupFormationConfig)

def GroupFormationConfig.effectiveMin : Nat := max config.minGroupSize 2

def calculateNumGroups (forceSingle : Bool) (totalNodes : Nat) : Nat :=
  if totalNodes < config.effectiveMin then 0
  else if forceSingle then 1
  else
    let maxPossible := totalNodes / config.effectiveMin
    if maxPossible = 0 then 0
    else max (min (max config.targetGroups 1) maxPossible) 1

def evenPartition (total numGroups : Nat) : List (Nat × Nat) := go (List.range numGroups) 0
where
  go : List Nat → Nat → List (Nat × Nat)
    | [], _ => []
    | i :: rest, offset =>
      let size := if i < total % numGroups then total / numGroups + 1 else total / numGroups
      (offset, offset + size) :: go rest (offset + size)

variable (config : GroupFormationConfig) (forceSingle : Bool) (totalNodes : Nat)

theorem two_le_effectiveMin : 2 ≤ config.effectiveMin := le_max_right _ _

theorem calculateNumGroups_eq_zero (few : totalNodes < config.effectiveMin) :
    calculateNumGroups config forceSingle totalNodes = 0 :=
  if_pos few

variable {config totalNodes}

theorem effectiveMin_le_div (enough : config.effectiveMin ≤ totalNodes) :
    0 < calculateNumGroups config forceSingle totalNodes ∧
      config.effectiveMin ≤ totalNodes / calculateNumGroups config forceSingle totalNodes := by
  have two := two_le_effectiveMin config
  have possible : 0 < totalNodes / config.effectiveMin := Nat.div_pos enough (by omega)
  unfold calculateNumGroups
  rw [if_neg (Nat.not_lt.mpr enough)]
  split
  · simpa using enough
  · dsimp only
    rw [if_neg possible.ne']
    -- No more groups than there are minimal ones.
    have within : max (min (max config.targetGroups 1) (totalNodes / config.effectiveMin)) 1 ≤
        totalNodes / config.effectiveMin := by omega
    constructor
    · omega
    · rw [Nat.le_div_iff_mul_le (by omega), Nat.mul_comm]
      exact (Nat.le_div_iff_mul_le (by omega)).mp within

theorem evenPartition_eq_cuts {total numGroups : Nat} :
    evenPartition total numGroups = cuts (evenSizes total numGroups) 0 := by
  have from_ : ∀ (indices : List Nat) (offset : Nat),
      evenPartition.go total numGroups indices offset =
        cuts (indices.map (evenSize total numGroups)) offset := by
    intro indices
    induction indices with
    | nil => exact fun _ => rfl
    | cons index rest ih =>
      intro offset
      rw [evenPartition.go, ih]
      rfl
  exact from_ (List.range numGroups) 0

end

section Groups
def addressParts : List String :=
  ["tcp/0", "/ip4/172.", "/ip4/10.", "/ip4/192.168.", "/ip4/0.0.0.0"]

def isDialable (multiaddr : String) : Bool :=
  !multiaddr.isEmpty && multiaddr != "unknown" && addressParts.all fun part =>
    !contains multiaddr part

/-- `max_by`: the later of two that compare as equal. -/
def bestScored : List LightNodeInfo → Option LightNodeInfo
  | [] => none
  | first :: rest =>
    some (rest.foldl (fun best node => if best.pouScore > node.pouScore then best else node) first)

variable (nodes : List LightNodeInfo)

def calculateGroupHealth : Float :=
  if nodes.isEmpty then 0
  else
    let avgPouScore := (nodes.map LightNodeInfo.pouScore).foldl (· + ·) 0 / Float.ofNat nodes.length
    let avgUptime :=
      (nodes.map LightNodeInfo.uptimePercentage).foldl (· + ·) 0 / Float.ofNat nodes.length
    avgPouScore * 0.7 + avgUptime * 0.3

variable (config : GroupFormationConfig) (surroundings : Surroundings) (epoch : UInt64)

def createGroupFromChunk (nodes : List LightNodeInfo) (index : Nat) : P2PGroup where
  groupId :=
    if surroundings.forceSingle then "group_singleton_" ++ toString index
    else "group_" ++ toString epoch ++ "_" ++ toString index ++ "_" ++ toString epoch
  members := nodes.map LightNodeInfo.peerId
  memberMultiaddrs := ExtTreeMap.ofList
    ((nodes.filter fun node => isDialable node.multiaddr).map fun node =>
      (node.peerId, node.multiaddr))
  proposer := (bestScored nodes).map LightNodeInfo.peerId
  groupLeaderMasternode := none
  createdAt := surroundings.clock index
  epoch := epoch
  geographicRegion := "unknown"
  status := .forming
  healthScore := calculateGroupHealth nodes
  assignedShards := []

def createGroups (nodes : List LightNodeInfo) (index : Nat) : List P2PGroup :=
  let numGroups := calculateNumGroups config surroundings.forceSingle nodes.length
  (evenPartition nodes.length numGroups).mapIdx fun i bounds =>
    createGroupFromChunk surroundings epoch (slice nodes bounds) (index + i)

def shardCount : Nat := 65536

def shardsFor (count numGroups groupIdx : Nat) : List Nat :=
  (List.range count).filter fun shardId => shardId % numGroups == groupIdx

def assignShardsRoundRobin (groups : List P2PGroup) : List P2PGroup :=
  groups.mapIdx fun groupIdx group =>
    { group with assignedShards := shardsFor shardCount groups.length groupIdx }

def createSimpleGroups (nodes : List LightNodeInfo) : List P2PGroup :=
  if calculateNumGroups config surroundings.forceSingle nodes.length = 0 then []
  else assignShardsRoundRobin (createGroups config surroundings epoch nodes 0)

def inRegion (region : String) : List LightNodeInfo :=
  nodes.filter fun node => node.geographicRegion == region

def regionsOf : List String :=
  (nodes.map LightNodeInfo.geographicRegion).dedup.insertionSort (· ≤ ·)

def createRegionalGroups (nodes : List LightNodeInfo) : List String → Nat → List P2PGroup
  | [], _ => []
  | region :: rest, groupIndex =>
    let groups := (createGroups config surroundings epoch (inRegion nodes region) groupIndex).map
      fun group => { group with geographicRegion := region }
    groups ++ createRegionalGroups nodes rest (groupIndex + groups.length)

def createGeographicallyDistributedGroups (nodes : List LightNodeInfo) : List P2PGroup :=
  assignShardsRoundRobin (createRegionalGroups config surroundings epoch nodes (regionsOf nodes) 0)

end Groups

section Division
/-- Every node is in one group and there once, the groups have no other members, and their
sizes are at least `least` and differ by one at most. -/
structure Divided (least : Nat) (nodes : List LightNodeInfo) (groups : List P2PGroup) : Prop where
  once : ∀ node ∈ nodes, (groups.flatMap P2PGroup.members).count node.peerId = 1
  only : ∀ member ∈ groups.flatMap P2PGroup.members, ∃ node ∈ nodes, node.peerId = member
  balanced : ∀ left ∈ groups, ∀ right ∈ groups, left.members.length ≤ right.members.length + 1
  large : ∀ group ∈ groups, least ≤ group.members.length

def Formed (least : Nat) (nodes : List LightNodeInfo) (groups : List P2PGroup) : Prop :=
  (nodes.length < least → groups = []) ∧ (least ≤ nodes.length → Divided least nodes groups)

/-- Each shard is in the set of exactly one group, and no set holds anything twice. -/
def ShardsPartitioned (groups : List P2PGroup) : Prop :=
  (∀ shard < shardCount, ∃! index : Nat, ∃ group : P2PGroup, groups[index]? = some group ∧
      shard ∈ group.assignedShards) ∧
    ∀ group ∈ groups, group.assignedShards.Nodup ∧
      ∀ shard ∈ group.assignedShards, shard < shardCount

variable {config : GroupFormationConfig} {surroundings : Surroundings} {epoch : UInt64}
variable {nodes : List LightNodeInfo} {groups : List P2PGroup}

theorem map_members_assignShards :
    (assignShardsRoundRobin groups).map P2PGroup.members = groups.map P2PGroup.members := by
  apply List.ext_getElem?
  intro index
  simp [assignShardsRoundRobin, List.getElem?_mapIdx, Function.comp_def]

variable (config surroundings epoch nodes) in
theorem map_members_createGroups (index : Nat) :
    (createGroups config surroundings epoch nodes index).map P2PGroup.members =
      ((evenPartition nodes.length
        (calculateNumGroups config surroundings.forceSingle nodes.length)).map (slice nodes)).map
        (List.map LightNodeInfo.peerId) := by
  apply List.ext_getElem?
  intro position
  simp [createGroups, List.getElem?_mapIdx, createGroupFromChunk, Function.comp_def]

variable {index numGroups groupIdx : Nat} {region : String}

theorem flatMap_members_createGroups (enough : config.effectiveMin ≤ nodes.length) :
    (createGroups config surroundings epoch nodes index).flatMap P2PGroup.members =
      nodes.map LightNodeInfo.peerId := by
  have positive := (effectiveMin_le_div surroundings.forceSingle enough).1
  rw [List.flatMap_def, map_members_createGroups config surroundings epoch nodes,
    ← List.map_flatten, evenPartition_eq_cuts, flatten_cuts, sum_evenSizes positive,
    List.drop_zero, List.take_length]

theorem length_members_createGroups (enough : config.effectiveMin ≤ nodes.length)
    {group : P2PGroup} (member : group ∈ createGroups config surroundings epoch nodes index) :
    ∃ i, group.members.length = evenSize nodes.length
      (calculateNumGroups config surroundings.forceSingle nodes.length) i := by
  have positive := (effectiveMin_le_div surroundings.forceSingle enough).1
  have sizes : (createGroups config surroundings epoch nodes index).map (·.members.length) =
      evenSizes nodes.length (calculateNumGroups config surroundings.forceSingle nodes.length) := by
    have lengths := length_slices nodes (evenSizes nodes.length
      (calculateNumGroups config surroundings.forceSingle nodes.length)) 0
      (by rw [sum_evenSizes positive, Nat.zero_add])
    rw [← evenPartition_eq_cuts] at lengths
    have members := congrArg (List.map List.length)
      (map_members_createGroups config surroundings epoch nodes index)
    simpa [Function.comp_def, lengths] using members
  have size : group.members.length ∈
      (createGroups config surroundings epoch nodes index).map (·.members.length) :=
    List.mem_map_of_mem member
  rw [sizes, evenSizes, List.mem_map] at size
  obtain ⟨i, _, same⟩ := size
  exact ⟨i, same.symm⟩

theorem divided_of_createGroups (distinct : (nodes.map LightNodeInfo.peerId).Nodup)
    (enough : config.effectiveMin ≤ nodes.length) (same : groups.map P2PGroup.members =
      (createGroups config surroundings epoch nodes index).map P2PGroup.members) :
    Divided config.effectiveMin nodes groups := by
  have all : groups.flatMap P2PGroup.members = nodes.map LightNodeInfo.peerId := by
    rw [List.flatMap_def, same, ← List.flatMap_def, flatMap_members_createGroups enough]
  have large := (effectiveMin_le_div surroundings.forceSingle enough).2
  -- The sizes are those of the groups that were made.
  have size : ∀ group ∈ groups, ∃ i, group.members.length = evenSize nodes.length
      (calculateNumGroups config surroundings.forceSingle nodes.length) i := by
    intro group member
    have listed : group.members ∈
        (createGroups config surroundings epoch nodes index).map P2PGroup.members := by
      rw [← same]
      exact List.mem_map_of_mem member
    obtain ⟨made, makes, equal⟩ := List.mem_map.mp listed
    rw [← equal]
    exact length_members_createGroups enough makes
  constructor
  · intro node member
    rw [all]
    exact List.count_eq_one_of_mem distinct (List.mem_map_of_mem member)
  · intro peer member
    rw [all] at member
    exact List.mem_map.mp member
  · intro left leftMember right rightMember
    obtain ⟨i, leftSize⟩ := size left leftMember
    obtain ⟨j, rightSize⟩ := size right rightMember
    rw [leftSize, rightSize]
    exact (evenSize_le _ _ i).trans (Nat.succ_le_succ (div_le_evenSize _ _ j))
  · intro group member
    obtain ⟨i, groupSize⟩ := size group member
    rw [groupSize]
    exact large.trans (div_le_evenSize _ _ i)

theorem createGroups_eq_nil (few : nodes.length < config.effectiveMin) :
    createGroups config surroundings epoch nodes index = [] := by
  unfold createGroups
  rw [calculateNumGroups_eq_zero config surroundings.forceSingle nodes.length few]
  rfl

theorem formed_createSimpleGroups (distinct : (nodes.map LightNodeInfo.peerId).Nodup) :
    Formed config.effectiveMin nodes (createSimpleGroups config surroundings epoch nodes) := by
  constructor
  · intro few
    exact if_pos (calculateNumGroups_eq_zero config surroundings.forceSingle nodes.length few)
  · intro enough
    have positive := (effectiveMin_le_div surroundings.forceSingle enough).1
    unfold createSimpleGroups
    rw [if_neg positive.ne']
    exact divided_of_createGroups distinct enough map_members_assignShards

theorem mem_shardsFor {count shard : Nat} :
    shard ∈ shardsFor count numGroups groupIdx ↔ shard < count ∧ shard % numGroups = groupIdx := by
  simp [shardsFor]

theorem nodup_shardsFor {count : Nat} : (shardsFor count numGroups groupIdx).Nodup :=
  List.nodup_range.filter _

theorem getElem?_assignShards (index : Nat) :
    (assignShardsRoundRobin groups)[index]? = groups[index]?.map fun group =>
      { group with assignedShards := shardsFor shardCount groups.length index } := by
  rw [assignShardsRoundRobin, List.getElem?_mapIdx]

theorem shardsPartitioned_assignShards (some : groups ≠ []) :
    ShardsPartitioned (assignShardsRoundRobin groups) := by
  have positive : 0 < groups.length := List.length_pos_iff.mpr some
  constructor
  · intro shard small
    have bound : shard % groups.length < groups.length := Nat.mod_lt _ positive
    refine ⟨shard % groups.length, ?_, ?_⟩
    · simp only [getElem?_assignShards, List.getElem?_eq_getElem bound, Option.map_some]
      refine ⟨_, rfl, ?_⟩
      dsimp only
      rw [mem_shardsFor]
      exact ⟨small, rfl⟩
    · rintro index ⟨group, found, holds⟩
      rw [getElem?_assignShards, Option.map_eq_some_iff] at found
      obtain ⟨_, _, rfl⟩ := found
      dsimp only at holds
      rw [mem_shardsFor] at holds
      exact holds.2.symm
  · intro group member
    obtain ⟨index, bound, found⟩ := List.getElem_of_mem member
    have at_ : (assignShardsRoundRobin groups)[index]? = Option.some group := by
      rw [List.getElem?_eq_getElem bound, found]
    rw [getElem?_assignShards, Option.map_eq_some_iff] at at_
    obtain ⟨_, _, rfl⟩ := at_
    dsimp only
    constructor
    · apply nodup_shardsFor
    · intro shard holds
      rw [mem_shardsFor] at holds
      exact holds.1

def ofRegion (groups : List P2PGroup) (region : String) : List P2PGroup :=
  groups.filter fun group => group.geographicRegion == region

theorem map_members_ofRegion :
    (ofRegion groups region).map P2PGroup.members =
      ((groups.map fun group => (group.geographicRegion, group.members)).filter
        fun entry => entry.1 == region).map Prod.snd := by
  simp [ofRegion, List.filter_map, Function.comp_def]

theorem map_members_ofRegion_assignShards :
    (ofRegion (assignShardsRoundRobin groups) region).map P2PGroup.members =
      (ofRegion groups region).map P2PGroup.members := by
  have entries : (assignShardsRoundRobin groups).map
      (fun group => (group.geographicRegion, group.members)) =
      groups.map fun group => (group.geographicRegion, group.members) := by
    apply List.ext_getElem?
    intro index
    simp [getElem?_assignShards, Function.comp_def]
  rw [map_members_ofRegion, map_members_ofRegion, entries]

variable (config surroundings epoch nodes) in
theorem ofRegion_createRegionalGroups (region : String) {regions : List String}
    (distinct : regions.Nodup) (index : Nat) :
    ∃ first, (ofRegion (createRegionalGroups config surroundings epoch nodes regions index)
        region).map P2PGroup.members =
      if region ∈ regions then
        (createGroups config surroundings epoch (inRegion nodes region) first).map P2PGroup.members
      else [] := by
  induction regions generalizing index with
  | nil => exact ⟨0, rfl⟩
  | cons current rest ih =>
    rw [List.nodup_cons] at distinct
    rw [createRegionalGroups, ofRegion, List.filter_append, List.map_append]
    obtain ⟨first, later⟩ := ih distinct.2 (index +
      ((createGroups config surroundings epoch (inRegion nodes current) index).map
        fun group => { group with geographicRegion := current }).length)
    rw [ofRegion] at later
    rw [later]
    by_cases same : current = region
    · subst same
      refine ⟨index, ?_⟩
      simp [distinct.1, List.filter_map, Function.comp_def]
    · refine ⟨first, ?_⟩
      simp [same, Ne.symm same, List.filter_map, Function.comp_def]

theorem nodup_regionsOf : (regionsOf nodes).Nodup :=
  (List.perm_insertionSort _ _).nodup_iff.mpr (List.nodup_dedup _)

theorem mem_regionsOf (some : 0 < (inRegion nodes region).length) : region ∈ regionsOf nodes := by
  obtain ⟨node, member⟩ := List.length_pos_iff_exists_mem.mp some
  rw [inRegion, List.mem_filter, beq_iff_eq] at member
  rw [regionsOf, (List.perm_insertionSort _ _).mem_iff, List.mem_dedup]
  exact List.mem_map.mpr ⟨node, member.1, member.2⟩

theorem formed_ofRegion (distinct : (nodes.map LightNodeInfo.peerId).Nodup) :
    Formed config.effectiveMin (inRegion nodes region)
      (ofRegion (createGeographicallyDistributedGroups config surroundings epoch nodes) region) := by
  obtain ⟨first, made⟩ := ofRegion_createRegionalGroups config surroundings epoch nodes region
    nodup_regionsOf 0
  rw [← map_members_ofRegion_assignShards] at made
  constructor
  · intro few
    rw [createGroups_eq_nil few, List.map_nil, ite_self, List.map_eq_nil_iff] at made
    exact made
  · intro enough
    have two := two_le_effectiveMin config
    have named : region ∈ regionsOf nodes := mem_regionsOf (by omega)
    rw [if_pos named] at made
    apply divided_of_createGroups _ enough made
    exact distinct.sublist (List.filter_sublist.map _)

end Division

/-- For every configuration and every list of nodes with distinct peer ids: too few nodes give no
groups, otherwise they are divided evenly over groups of sufficient size, and the groups share the
shards out; by regions each with enough nodes is divided so, and the shards over all groups. -/
theorem groups_divide_nodes_and_shards (config : GroupFormationConfig) (surroundings : Surroundings)
    (epoch : UInt64) (nodes : List LightNodeInfo)
    (distinct : (nodes.map LightNodeInfo.peerId).Nodup) :
    (Formed config.effectiveMin nodes (createSimpleGroups config surroundings epoch nodes) ∧
      (createSimpleGroups config surroundings epoch nodes ≠ [] →
        ShardsPartitioned (createSimpleGroups config surroundings epoch nodes))) ∧
    ((∀ region, Formed config.effectiveMin (inRegion nodes region)
        (ofRegion (createGeographicallyDistributedGroups config surroundings epoch nodes) region)) ∧
      (createGeographicallyDistributedGroups config surroundings epoch nodes ≠ [] → ShardsPartitioned
          (createGeographicallyDistributedGroups config surroundings epoch nodes))) := by
  refine ⟨⟨formed_createSimpleGroups distinct, ?_⟩, fun region => formed_ofRegion distinct, ?_⟩
  · unfold createSimpleGroups
    split
    · exact fun some => absurd rfl some
    · intro some
      apply shardsPartitioned_assignShards
      rintro none
      simp [none, assignShardsRoundRobin] at some
  · intro some
    apply shardsPartitioned_assignShards
    intro none
    simp [createGeographicallyDistributedGroups, none, assignShardsRoundRobin] at some

def sampleNode (region peerId : String) : LightNodeInfo where
  nodeId := peerId
  peerId := peerId
  multiaddr := "/ip4/8.8.8.8/tcp/4001"
  geographicRegion := region
  pouScore := 0.5
  lastSeen := 100
  uptimePercentage := 1

def sampleConfig : GroupFormationConfig := { minGroupSize := 2 }

def sampleSurroundings : Surroundings := { clock := fun _ => 100 }

def sampleNodes : List LightNodeInfo :=
  [sampleNode "eu" "a", sampleNode "us" "b", sampleNode "eu" "c", sampleNode "eu" "d",
    sampleNode "us" "e"]

theorem sampleNodes_divided :
    Divided 2 sampleNodes (createSimpleGroups sampleConfig sampleSurroundings 7 sampleNodes) ∧
      Divided 2 (inRegion sampleNodes "us")
        (ofRegion (createGeographicallyDistributedGroups sampleConfig sampleSurroundings 7 sampleNodes)
          "us") := by
  have formed := groups_divide_nodes_and_shards sampleConfig sampleSurroundings 7 sampleNodes
    (by decide +kernel)
  exact ⟨formed.1.1.2 (by decide +kernel), (formed.2.1 "us").2 (by decide +kernel)⟩

end Savitri.GroupFormation
