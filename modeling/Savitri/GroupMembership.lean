import Savitri.GroupRegistry

/-!
When the two records of a node's group agree. Each operation writes one of them or both, and
keeps the agreement under a condition on what it is given and on the tables before it.
-/
namespace Savitri.GroupFormation
open Std (ExtTreeMap)
open GroupConsensus (NodeAssignmentStatus)
open Reordering (Shuffle)
open Transition
variable {node nodeInfo : LightNodeInfo} {stake : Nat} {nodes : Nodes} {group : P2PGroup}
  {peerId groupId nodeId : String} {currentEpoch : UInt64}

def Hosts (groups : Groups) (groupId peerId : String) : Prop :=
  ∃ group : P2PGroup, groups[groupId]? = some group ∧ peerId ∈ group.members

/-- The node is a member of exactly the group its assignment names, and of none if it is free. -/
def Agrees (groups : Groups) (node : LightNodeInfo) : Prop :=
  ∀ groupId, Hosts groups groupId node.peerId ↔ node.assignment = .assigned groupId

def Consistent (manager : GroupFormationManager) : Prop :=
  ∀ (nodeId : String) (node : LightNodeInfo), manager.registeredNodes[nodeId]? = some node →
    Agrees manager.activeGroups node

variable (config : GroupFormationConfig)

def admits (manager : GroupFormationManager) (nodeInfo : LightNodeInfo) (stake : Nat)
    (currentEpoch : UInt64) : Bool :=
  config.minimumStake ≤ stake && !isUnreachable nodeInfo.multiaddr &&
    (manager.registeredNodes.contains nodeInfo.nodeId ||
      manager.registrationsIn currentEpoch < maxRegistrationsPerEpoch)

def TooFew (nodes : List LightNodeInfo) : Prop :=
  nodes.length < config.minGroupSize ∨
    if config.geographicDistribution then
      ∀ region, (inRegion nodes region).length < config.effectiveMin
    else nodes.length < config.effectiveMin

/-- What the call knows a node by, its node id, is a member where its peer id is; it is in one
of the added groups at most, and then in no group that stays; else in none that is replaced. -/
structure Placeable (active : Groups) (groups : List P2PGroup) (nodeId peerId : String) : Prop where
  known : ∀ group ∈ groups, nodeId ∈ group.members ↔ peerId ∈ group.members
  single : ∀ left ∈ groups, ∀ right ∈ groups, peerId ∈ left.members → peerId ∈ right.members →
    left.groupId = right.groupId
  leaves : ∀ group ∈ groups, peerId ∈ group.members → ∀ groupId, Hosts active groupId peerId →
    groupId ∈ groups.map P2PGroup.groupId
  stays : (∀ group ∈ groups, peerId ∉ group.members) → ∀ groupId, Hosts active groupId peerId →
    groupId ∉ groups.map P2PGroup.groupId

def isDoomed (nodes : Nodes) (group : P2PGroup) : Bool :=
  group.status = .dissolving || group.members.length ≠ 0 && isDisconnected config nodes group

def Sound (host : Host) (config : GroupFormationConfig) (manager : GroupFormationManager) :
    Operation → Prop
  | .registerLightNode nodeInfo stake currentEpoch =>
    admits config manager nodeInfo stake currentEpoch = true → Agrees manager.activeGroups nodeInfo
  | .formGroups force readings =>
    formationDue host config manager.currentEpoch force readings.currentEpoch = some true →
      TooFew config (manager.registeredNodes.toList.map Prod.snd) ∧
        ∀ (nodeId : String) (node : LightNodeInfo), manager.registeredNodes[nodeId]? = some node →
          ∀ groupId, ¬ Hosts manager.activeGroups groupId node.peerId
  | .addActiveGroups groups =>
    (groups.map P2PGroup.groupId).Nodup ∧
      ∀ (nodeId : String) (node : LightNodeInfo), manager.registeredNodes[nodeId]? = some node →
        Placeable manager.activeGroups groups nodeId node.peerId
  | .cleanupInactive readings =>
    ∀ currentTime, readings.currentTime = some currentTime →
      ∀ (groupId : String) (group : P2PGroup), manager.activeGroups[groupId]? = some group →
        isDoomed config (removeInactive host config currentTime
          (readings.order.order manager.registeredNodes.toList) manager.registeredNodes).1 group =
            true →
        ∀ (nodeId : String) (node : LightNodeInfo), manager.registeredNodes[nodeId]? = some node →
          (nodeId ∈ group.members ↔ node.peerId ∈ group.members)

variable {host : Host} {config} {manager : GroupFormationManager}

theorem consistent_insert (consistent : Consistent manager)
    (agrees : Agrees manager.activeGroups nodeInfo) {after : GroupFormationManager}
    (nodes : after.registeredNodes = manager.registeredNodes.insert nodeInfo.nodeId nodeInfo)
    (groups : after.activeGroups = manager.activeGroups) : Consistent after := by
  intro nodeId node found
  rw [nodes, ExtTreeMap.getElem?_insert] at found
  rw [groups]
  split at found
  · cases found
    exact agrees
  · exact consistent nodeId node found

theorem consistent_register (consistent : Consistent manager)
    (sound : admits config manager nodeInfo stake currentEpoch = true →
      Agrees manager.activeGroups nodeInfo) :
    Consistent (registerLightNodeWithStake config manager nodeInfo stake currentEpoch).1 := by
  rw [registerLightNodeWithStake]
  split
  · exact consistent
  · next enough =>
      split
      · exact consistent
      · next reachable =>
          dsimp only
          split
          · next known =>
              have admitted : admits config manager nodeInfo stake currentEpoch = true := by
                simp_all [admits]
              exact consistent_insert consistent (sound admitted) rfl rfl
          · next unknown =>
              split
              · exact consistent
              · next below =>
                  have admitted : admits config manager nodeInfo stake currentEpoch = true := by
                    simp_all [admits]
                  exact consistent_insert consistent (sound admitted) rfl rfl

section Formation
variable {nodes : List LightNodeInfo} {readings : FormationReadings}

theorem createRegionalGroups_eq_nil {surroundings : Surroundings} {epoch : UInt64}
    (few : ∀ region, (inRegion nodes region).length < config.effectiveMin) {regions : List String}
    (index : Nat) : createRegionalGroups config surroundings epoch nodes regions index = [] := by
  induction regions generalizing index with
  | nil => rfl
  | cons region rest ih =>
    rw [createRegionalGroups, createGroups_eq_nil (few region), ih]
    rfl

theorem tooFew_perm {others : List LightNodeInfo} (perm : others.Perm nodes)
    (few : TooFew config nodes) : TooFew config others := by
  unfold TooFew at few ⊢
  have region : ∀ name, (inRegion others name).length = (inRegion nodes name).length :=
    fun name => (perm.filter _).length_eq
  simpa only [perm.length_eq, region] using few

theorem tooFew_map (few : TooFew config nodes) :
    TooFew config (nodes.map fun node => { node with assignment := .free }) := by
  unfold TooFew inRegion at few ⊢
  simpa [List.filter_map, Function.comp_def] using few

theorem sortForAssignment_perm : (sortForAssignment host currentEpoch nodes).Perm nodes := by
  unfold sortForAssignment
  split
  · exact List.perm_insertionSort _ _
  · exact List.perm_insertionSort _ _

theorem groupsOf_eq_nil (few : TooFew config nodes)
    (enough : ¬ nodes.length < config.minGroupSize) : groupsOf host config readings nodes = [] := by
  have sorted : TooFew config (sortForAssignment host readings.currentEpoch nodes) :=
    tooFew_perm sortForAssignment_perm few
  have still : ¬ (sortForAssignment host readings.currentEpoch nodes).length < config.minGroupSize := by
    rwa [sortForAssignment_perm.length_eq]
  replace sorted := sorted.resolve_left still
  rw [groupsOf]
  split
  · next regional =>
      rw [if_pos regional] at sorted
      rw [createGeographicallyDistributedGroups, createRegionalGroups_eq_nil sorted]
      rfl
  · next simple =>
      rw [if_neg simple] at sorted
      rw [createSimpleGroups, if_pos (calculateNumGroups_eq_zero config _ _ sorted)]
      rfl

theorem formFrom_of_tooFew (few : TooFew config (manager.registeredNodes.toList.map Prod.snd)) :
    (formFrom host config manager readings).1.activeGroups = manager.activeGroups ∧
      (formFrom host config manager readings).1.registeredNodes =
        manager.registeredNodes.map fun _ node => { node with assignment := .free } := by
  rw [formFrom]
  dsimp only
  split
  · exact ⟨rfl, rfl⟩
  · next enough =>
      have free : ∀ node ∈ (manager.registeredNodes.toList.map Prod.snd).map
          (fun node => { node with assignment := .free }), decide (node.assignment = .free) := by
        intro node member
        obtain ⟨_, _, rfl⟩ := List.mem_map.mp member
        rfl
      have same : ((readings.order.order ((manager.registeredNodes.map fun _ node =>
          { node with assignment := .free }).toList.map Prod.snd)).filter fun node =>
            node.assignment = .free).Perm ((manager.registeredNodes.toList.map Prod.snd).map
              fun node => { node with assignment := .free }) := by
        have listed : (manager.registeredNodes.map fun _ node =>
            { node with assignment := .free }).toList.map Prod.snd =
              (manager.registeredNodes.toList.map Prod.snd).map
                fun node => { node with assignment := .free } := by
          rw [ExtTreeMap.toList_map, List.map_map, List.map_map]
          rfl
        refine ((readings.order.perm _).filter _).trans ?_
        rw [listed, List.filter_eq_self.mpr free]
      rw [groupsOf_eq_nil (tooFew_perm same (tooFew_map few)) enough]
      exact ⟨rfl, rfl⟩

theorem consistent_formGroups {force : Bool} (consistent : Consistent manager)
    (sound : Sound host config manager (.formGroups force readings)) :
    Consistent (formGroups host config manager force readings).1 := by
  rw [formGroups]
  split
  · exact consistent
  · exact consistent
  · next due =>
      obtain ⟨few, outside⟩ := sound due
      obtain ⟨groups, nodes⟩ := formFrom_of_tooFew few
      intro nodeId node found
      dsimp only at found ⊢
      rw [nodes, ExtTreeMap.getElem?_map, Option.map_eq_some_iff] at found
      obtain ⟨before, stored, rfl⟩ := found
      rw [groups]
      intro groupId
      constructor
      · intro hosts
        exact absurd hosts (outside nodeId before stored groupId)
      · intro named
        cases named

end Formation

section Assignment
variable {active : Groups} {groups : List P2PGroup}
variable (status : NodeAssignmentStatus)
variable (nodeId)

theorem getElem?_setAssignment (other : String) :
    (setAssignment status nodes nodeId)[other]? = nodes[other]?.map fun node =>
      if nodeId = other then { node with assignment := status } else node := by
  rw [setAssignment, ExtTreeMap.getElem?_modify]
  simp only [Std.LawfulEqCmp.compare_eq_iff_eq]
  split
  · next same => rw [same]
  · simp

theorem getElem?_foldl_setAssignment (keys : List String) (nodeId : String) :
    (keys.foldl (setAssignment status) nodes)[nodeId]? = nodes[nodeId]?.map fun node =>
      if nodeId ∈ keys then { node with assignment := status } else node := by
  induction keys generalizing nodes with
  | nil => simp
  | cons key rest ih =>
    rw [List.foldl_cons, ih, getElem?_setAssignment]
    cases nodes[nodeId]? with
    | none => rfl
    | some node =>
      by_cases same : key = nodeId
      · by_cases later : nodeId ∈ rest
        · simp [same, later]
        · simp [same, later]
      · simp [same, Ne.symm same]

def marked (groups : List P2PGroup) (node : LightNodeInfo) : LightNodeInfo :=
  groups.foldl (fun node group =>
    if nodeId ∈ group.members then { node with assignment := .assigned group.groupId } else node) node

theorem getElem?_foldl_markMembers :
    (groups.foldl markMembers nodes)[nodeId]? = nodes[nodeId]?.map (marked nodeId groups) := by
  induction groups generalizing nodes with
  | nil =>
    rw [List.foldl_nil]
    cases nodes[nodeId]? with
    | none | some => rfl
  | cons group rest ih =>
    rw [List.foldl_cons, ih, markMembers, getElem?_foldl_setAssignment, Option.map_map]
    rfl

variable {nodeId}

theorem marked_of_notMem (outside : ∀ group ∈ groups, nodeId ∉ group.members) :
    marked nodeId groups node = node := by
  induction groups with
  | nil => rfl
  | cons group rest ih =>
    rw [marked, List.foldl_cons, if_neg (outside group List.mem_cons_self)]
    exact ih fun later member => outside later (List.mem_cons_of_mem _ member)

theorem marked_of_single (node : LightNodeInfo)
    (single : ∀ group ∈ groups, nodeId ∈ group.members → group.groupId = groupId)
    (some : ∃ group ∈ groups, nodeId ∈ group.members) :
    marked nodeId groups node = { node with assignment := .assigned groupId } := by
  induction groups generalizing node with
  | nil =>
    obtain ⟨_, member, _⟩ := some
    cases member
  | cons group rest ih =>
    have later := fun next member => single next (List.mem_cons_of_mem group member)
    rw [marked, List.foldl_cons, ← marked]
    by_cases again : ∃ next ∈ rest, nodeId ∈ next.members
    · rw [ih _ later again]
      split
      · rfl
      · rfl
    · have outside : ∀ next ∈ rest, nodeId ∉ next.members := by
        intro next member holds
        exact again ⟨next, member, holds⟩
      obtain ⟨first, member, holds⟩ := some
      rcases List.mem_cons.mp member with same | inRest
      · subst same
        rw [marked_of_notMem outside, if_pos holds, single first List.mem_cons_self holds]
      · exact absurd holds (outside first inRest)

theorem getElem?_insertGroups_of_notMem (absent : groupId ∉ groups.map P2PGroup.groupId) :
    (insertGroups groups active)[groupId]? = active[groupId]? := by
  induction groups generalizing active with
  | nil => rfl
  | cons group rest ih =>
    rw [List.map_cons, List.mem_cons, not_or] at absent
    rw [insertGroups, List.foldl_cons, ← insertGroups, ih absent.2, ExtTreeMap.getElem?_insert]
    simp only [Std.LawfulEqCmp.compare_eq_iff_eq, Ne.symm absent.1, if_false]

variable (distinct : (groups.map P2PGroup.groupId).Nodup)
include distinct

theorem getElem?_insertGroups_of_mem (member : group ∈ groups) :
    (insertGroups groups active)[group.groupId]? = some group := by
  induction groups generalizing active with
  | nil => cases member
  | cons first rest ih =>
    rw [List.map_cons, List.nodup_cons] at distinct
    rw [insertGroups, List.foldl_cons, ← insertGroups]
    rcases List.mem_cons.mp member with same | later
    · subst same
      rw [getElem?_insertGroups_of_notMem distinct.1, ExtTreeMap.getElem?_insert_self]
    · exact ih distinct.2 later

theorem hosts_insertGroups :
    Hosts (insertGroups groups active) groupId peerId ↔
      (∃ group ∈ groups, group.groupId = groupId ∧ peerId ∈ group.members) ∨
        groupId ∉ groups.map P2PGroup.groupId ∧ Hosts active groupId peerId := by
  by_cases added : groupId ∈ groups.map P2PGroup.groupId
  · obtain ⟨group, member, rfl⟩ := List.mem_map.mp added
    have stored : (insertGroups groups active)[group.groupId]? = some group :=
      getElem?_insertGroups_of_mem distinct member
    constructor
    · rintro ⟨found, at_, holds⟩
      cases stored.symm.trans at_
      exact Or.inl ⟨group, member, rfl, holds⟩
    · rintro (⟨other, otherMember, sameId, holds⟩ | ⟨absent, _⟩)
      · have again : (insertGroups groups active)[other.groupId]? = some other :=
          getElem?_insertGroups_of_mem distinct otherMember
        exact ⟨other, sameId ▸ again, holds⟩
      · exact absurd added absent
  · unfold Hosts
    rw [getElem?_insertGroups_of_notMem added]
    constructor
    · exact fun hosts => Or.inr ⟨added, hosts⟩
    · rintro (⟨group, member, rfl, _⟩ | ⟨_, hosts⟩)
      · exact absurd (List.mem_map_of_mem member) added
      · exact hosts

theorem agrees_of_added (placeable : Placeable active groups nodeId node.peerId)
    (member : group ∈ groups) (holds : node.peerId ∈ group.members) :
    Agrees (insertGroups groups active) { node with assignment := .assigned group.groupId } := by
  intro groupId
  rw [hosts_insertGroups distinct]
  constructor
  · rintro (⟨other, otherMember, rfl, otherHolds⟩ | ⟨absent, hosts⟩)
    · rw [placeable.single group member other otherMember holds otherHolds]
    · exact absurd (placeable.leaves group member holds groupId hosts) absent
  · intro named
    injection named with same
    exact Or.inl ⟨group, member, same, holds⟩

theorem agrees_of_notAdded (placeable : Placeable active groups nodeId node.peerId)
    (agrees : Agrees active node) (outside : ∀ group ∈ groups, node.peerId ∉ group.members) :
    Agrees (insertGroups groups active) node := by
  intro groupId
  rw [hosts_insertGroups distinct, ← agrees groupId]
  constructor
  · rintro (⟨group, member, _, holds⟩ | ⟨_, hosts⟩)
    · exact absurd holds (outside group member)
    · exact hosts
  · intro hosts
    exact Or.inr ⟨placeable.stays outside groupId hosts, hosts⟩

omit distinct

theorem consistent_addActiveGroups (consistent : Consistent manager)
    (sound : Sound host config manager (.addActiveGroups groups)) :
    Consistent (addActiveGroups manager groups) := by
  obtain ⟨distinct, each⟩ := sound
  intro nodeId after found
  change (groups.foldl markMembers manager.registeredNodes)[nodeId]? = some after at found
  rw [getElem?_foldl_markMembers, Option.map_eq_some_iff] at found
  obtain ⟨node, before, rfl⟩ := found
  have placeable := each nodeId node before
  by_cases added : ∃ group ∈ groups, node.peerId ∈ group.members
  · obtain ⟨group, member, holds⟩ := added
    have same : marked nodeId groups node =
        { node with assignment := .assigned group.groupId } := by
      apply marked_of_single
      · intro other otherMember otherHolds
        exact placeable.single other otherMember group member
          ((placeable.known other otherMember).mp otherHolds) holds
      · exact ⟨group, member, (placeable.known group member).mpr holds⟩
    rw [same]
    exact agrees_of_added distinct placeable member holds
  · have outside : ∀ group ∈ groups, node.peerId ∉ group.members := by
      intro group member holds
      exact added ⟨group, member, holds⟩
    have same : marked nodeId groups node = node := by
      apply marked_of_notMem
      intro group member holds
      exact outside group member ((placeable.known group member).mp holds)
    rw [same]
    exact agrees_of_notAdded distinct placeable (consistent nodeId node before) outside

end Assignment

section Cleanup
variable {readings : CleanupReadings}

theorem getElem?_removeInactive {currentTime : UInt64} {entries : List (String × LightNodeInfo)}
    (found : (removeInactive host config currentTime entries nodes).1[nodeId]? = some node) :
    nodes[nodeId]? = some node := by
  rw [removeInactive] at found
  dsimp only at found
  generalize (if host.overflowChecks = true then _ else _) = reached at found
  induction reached generalizing nodes with
  | nil => exact found
  | cons entry rest ih =>
    rw [List.foldl_cons] at found
    have kept := ih found
    split at kept
    · exact kept
    · rw [ExtTreeMap.getElem?_erase] at kept
      split at kept
      · cases kept
      · exact kept

theorem members_superviseGroup :
    (superviseGroup config readings nodes group).members = group.members := by
  unfold superviseGroup transferOwnership
  repeat' split
  all_goals rfl

theorem status_superviseGroup :
    (superviseGroup config readings nodes group).status = .dissolving ↔
      isDoomed config nodes group = true := by
  unfold superviseGroup
  split
  · next gone => simp [isDoomed, gone]
  · next kept =>
      split
      · next empty => simp [isDoomed, kept, empty]
      · next some =>
          split
          · next lost => simp [isDoomed, some, lost]
          · next connected =>
              have same : (transferOwnership readings group).status = group.status := by
                unfold transferOwnership
                split
                · rfl
                · split
                  · rfl
                  · rfl
              simp [isDoomed, kept, connected, same]

theorem hosts_dissolveGroups :
    Hosts (dissolveGroups config readings manager).activeGroups groupId peerId ↔
      ∃ group : P2PGroup, manager.activeGroups[groupId]? = some group ∧
        isDoomed config manager.registeredNodes group = false ∧ peerId ∈ group.members := by
  unfold Hosts dissolveGroups
  simp only [ExtTreeMap.getElem?_filter', ExtTreeMap.getElem?_map, Option.filter_eq_some_iff,
    Option.map_eq_some_iff]
  constructor
  · rintro ⟨_, ⟨⟨group, found, rfl⟩, keeps⟩, holds⟩
    refine ⟨group, found, ?_, ?_⟩
    · rw [decide_eq_true_eq, Ne, status_superviseGroup, Bool.not_eq_true] at keeps
      exact keeps
    · rwa [members_superviseGroup] at holds
  · rintro ⟨group, found, keeps, holds⟩
    refine ⟨_, ⟨⟨group, found, rfl⟩, ?_⟩, ?_⟩
    · rw [decide_eq_true_eq, Ne, status_superviseGroup, Bool.not_eq_true]
      exact keeps
    · rwa [members_superviseGroup]

theorem getElem?_dissolveGroups (nodeId : String) :
    (dissolveGroups config readings manager).registeredNodes[nodeId]? =
      manager.registeredNodes[nodeId]?.map fun node =>
        if nodeId ∈ (((manager.activeGroups.map fun _ group =>
            superviseGroup config readings manager.registeredNodes group).toList.map
              Prod.snd).filter fun group => group.status = .dissolving).flatMap P2PGroup.members then
          { node with assignment := .free }
        else node :=
  getElem?_foldl_setAssignment _ _ _

theorem mem_freed_iff :
    nodeId ∈ (((manager.activeGroups.map fun _ group =>
        superviseGroup config readings manager.registeredNodes group).toList.map
          Prod.snd).filter fun group => group.status = .dissolving).flatMap P2PGroup.members ↔
      ∃ (groupId : String) (group : P2PGroup), manager.activeGroups[groupId]? = some group ∧
        isDoomed config manager.registeredNodes group = true ∧ nodeId ∈ group.members := by
  simp only [List.mem_flatMap, List.mem_filter, List.mem_map, decide_eq_true_eq, Prod.exists,
    ExtTreeMap.mem_toList_iff_getElem?_eq_some, ExtTreeMap.getElem?_map, Option.map_eq_some_iff]
  constructor
  · rintro ⟨_, ⟨⟨groupId, _, ⟨group, found, rfl⟩, rfl⟩, gone⟩, holds⟩
    exact ⟨groupId, group, found, status_superviseGroup |>.mp gone, members_superviseGroup ▸ holds⟩
  · rintro ⟨groupId, group, found, gone, holds⟩
    refine ⟨_, ⟨⟨groupId, _, ⟨group, found, rfl⟩, rfl⟩, ?_⟩, ?_⟩
    · exact status_superviseGroup.mpr gone
    · rwa [members_superviseGroup]

theorem consistent_dissolveGroups (consistent : Consistent manager)
    (known : ∀ (groupId : String) (group : P2PGroup), manager.activeGroups[groupId]? = some group →
      isDoomed config manager.registeredNodes group = true →
      ∀ (nodeId : String) (node : LightNodeInfo), manager.registeredNodes[nodeId]? = some node →
        (nodeId ∈ group.members ↔ node.peerId ∈ group.members)) :
    Consistent (dissolveGroups config readings manager) := by
  intro nodeId after found
  rw [getElem?_dissolveGroups, Option.map_eq_some_iff] at found
  obtain ⟨node, before, rfl⟩ := found
  have agrees := consistent nodeId node before
  split
  · next freed =>
      obtain ⟨goneId, gone, goneFound, doomed, holds⟩ := mem_freed_iff.mp freed
      have assigned := (agrees goneId).mp
        ⟨gone, goneFound, (known goneId gone goneFound doomed nodeId node before).mp holds⟩
      intro groupId
      rw [hosts_dissolveGroups]
      constructor
      · -- Its one group was removed.
        rintro ⟨group, groupFound, keeps, member⟩
        have again := (agrees groupId).mp ⟨group, groupFound, member⟩
        cases assigned.symm.trans again
        cases goneFound.symm.trans groupFound
        rw [doomed] at keeps
        cases keeps
      · intro named
        cases named
  · next kept =>
      intro groupId
      rw [hosts_dissolveGroups, ← agrees groupId]
      constructor
      · rintro ⟨group, groupFound, _, member⟩
        exact ⟨group, groupFound, member⟩
      · rintro ⟨group, groupFound, member⟩
        refine ⟨group, groupFound, ?_, member⟩
        by_contra doomed
        rw [Bool.not_eq_false] at doomed
        exact kept (mem_freed_iff.mpr ⟨groupId, group, groupFound, doomed,
          (known groupId group groupFound doomed nodeId node before).mpr member⟩)

theorem consistent_cleanupInactive (consistent : Consistent manager)
    (sound : Sound host config manager (.cleanupInactive readings)) :
    Consistent (cleanupInactive host config manager readings).1 := by
  rw [cleanupInactive]
  split
  · exact consistent
  · next currentTime now =>
      have swept : Consistent { manager with registeredNodes := (removeInactive host config currentTime
          (readings.order.order manager.registeredNodes.toList) manager.registeredNodes).1 } := by
        intro nodeId node found
        exact consistent nodeId node (getElem?_removeInactive found)
      dsimp only
      split
      · apply consistent_dissolveGroups swept
        intro groupId group found doomed nodeId node stored
        exact sound currentTime now groupId group found doomed nodeId node
          (getElem?_removeInactive stored)
      · exact swept

end Cleanup

theorem consistent_step (consistent : Consistent manager) {operation : Operation}
    (sound : Sound host config manager operation) :
    Consistent (step host config manager operation).1 := by
  cases operation with
  | registerLightNode nodeInfo stake currentEpoch => exact consistent_register consistent sound
  | formGroups force readings => exact consistent_formGroups consistent sound
  | addActiveGroups groups => exact consistent_addActiveGroups consistent sound
  | cleanupInactive readings => exact consistent_cleanupInactive consistent sound

/-- In every run whose operations meet their conditions each registered node is a member of
exactly the active group that its assignment names. -/
theorem assignments_name_groups (host : Host) (config : GroupFormationConfig)
    (operations : List Operation)
    (sound : Along (step host config) (Sound host config) {} operations) :
    Consistent (run (step host config) {} operations) := by
  apply run_invariant_along (step host config) (Sound host config) Consistent
  · intro manager operation consistent here
    exact consistent_step consistent here
  · intro nodeId node found
    simp at found
  · exact sound

def sampleHost : Host where
  overflowChecks := false
  localId := "mn-1"
  peerBucketHash _ := 0

def sampleRegistrations : List Operation :=
  [.registerLightNode (sampleNode "eu" "a") 1000000 7,
    .registerLightNode (sampleNode "eu" "b") 1000000 7]

def sampleApproved : P2PGroup :=
  createGroupFromChunk sampleSurroundings 7 [sampleNode "eu" "a", sampleNode "eu" "b"] 0

theorem not_hosts_empty : ¬ Hosts ∅ groupId peerId := by
  rintro ⟨group, found, _⟩
  simp at found

theorem agrees_empty (free : node.assignment = .free) : Agrees ∅ node := by
  intro groupId
  rw [free]
  constructor
  · exact fun hosts => absurd hosts not_hosts_empty
  · intro named
    cases named

theorem activeGroups_register :
    (registerLightNodeWithStake config manager nodeInfo stake currentEpoch).1.activeGroups =
      manager.activeGroups := by
  rw [registerLightNodeWithStake]
  dsimp only
  repeat' split
  all_goals rfl

theorem sampleApproved_consistent :
    Consistent (run (step sampleHost sampleConfig) {}
      (sampleRegistrations ++ [.addActiveGroups [sampleApproved]])) := by
  apply assignments_name_groups sampleHost sampleConfig
  have groups : (run (step sampleHost sampleConfig) {} sampleRegistrations).activeGroups = ∅ :=
    activeGroups_register.trans activeGroups_register
  rw [along_append]
  refine ⟨⟨fun _ => agrees_empty rfl, fun _ => ?_, trivial⟩, ⟨?_, ?_⟩, trivial⟩
  · rw [step, activeGroups_register]
    exact agrees_empty rfl
  · exact List.nodup_singleton _
  · intro nodeId node found
    have named : (run (step sampleHost sampleConfig) {} sampleRegistrations).registeredNodes.toList.all
        (fun entry => entry.1 == entry.2.peerId) = true := by decide +kernel
    have same := List.all_eq_true.mp named (nodeId, node)
      (ExtTreeMap.mem_toList_iff_getElem?_eq_some.mpr found)
    rw [beq_iff_eq] at same
    rw [groups]
    constructor
    · intro group _
      rw [← same]
    · intro left leftMember right rightMember _ _
      rw [List.mem_singleton.mp leftMember, List.mem_singleton.mp rightMember]
    · intro _ _ _ groupId hosts
      exact absurd hosts not_hosts_empty
    · intro _ groupId hosts
      exact absurd hosts not_hosts_empty

def sampleFormation (epoch : UInt64) : Operation :=
  .formGroups true { currentEpoch := epoch, order := .plain, surroundings := sampleSurroundings }

/-- After two formations a node is in two active groups and its assignment names neither. -/
theorem formed_members_stay_free :
    ((run (step sampleHost sampleConfig) {} (sampleRegistrations ++ [sampleFormation 7])).registeredNodes[
        "a"]?.map LightNodeInfo.assignment = some .free ∧
      (run (step sampleHost sampleConfig) {} (sampleRegistrations ++
        [sampleFormation 7])).activeGroups.toList.map (fun entry => (entry.1, entry.2.members)) =
          [("group_7_0_7", ["a", "b"])]) ∧
    (run (step sampleHost sampleConfig) {} (sampleRegistrations ++
      [sampleFormation 7, sampleFormation 8])).activeGroups.toList.map
        (fun entry => (entry.1, entry.2.members)) =
          [("group_7_0_7", ["a", "b"]), ("group_8_0_8", ["a", "b"])] := by
  decide +kernel

end Savitri.GroupFormation
