import Savitri.GroupFormation

/-!
The registry of light nodes and active groups in group_formation.rs. A node's group is
recorded twice: its peer id is among the members of the group, and its entry, under its node
id, names the group. `form_groups` frees every node and puts the new groups in place without
marking their members; only `add_active_groups` marks them, under their peer ids. Readings of
the clock and of the consensus, and the order of hash tables, come with each operation.
-/
namespace Savitri.GroupFormation
open Std (ExtTreeMap)
open Reordering (Shuffle)
/-- What stays the same during a run: the build, the local id and the hash of peer ids. -/
structure Host where
  overflowChecks : Bool
  localId : String
  peerBucketHash : String → UInt64

abbrev Nodes := ExtTreeMap String LightNodeInfo

abbrev Groups := ExtTreeMap String P2PGroup

structure GroupFormationManager where
  registeredNodes : Nodes := ∅
  activeGroups : Groups := ∅
  currentEpoch : UInt64 := 0
  nodeStakes : ExtTreeMap String Nat := ∅
  registrationsThisEpoch : UInt64 := 0
  registrationEpoch : UInt64 := 0

def maxRegistrationsPerEpoch : UInt64 := 10

/-- Unlike `isDialable` it also turns away the loopback address. -/
def isUnreachable (multiaddr : String) : Bool :=
  multiaddr.isEmpty || multiaddr == "unknown" ||
    ("/ip4/127.0.0.1" :: addressParts).any fun part => contains multiaddr part

variable (manager : GroupFormationManager)

/-- The counter, which is reset when an epoch other than the stored one begins. -/
def GroupFormationManager.registrationsIn (currentEpoch : UInt64) : UInt64 :=
  if currentEpoch = manager.registrationEpoch then manager.registrationsThisEpoch else 0

variable (config : GroupFormationConfig)

def registerLightNodeWithStake (manager : GroupFormationManager) (nodeInfo : LightNodeInfo)
    (stake : Nat) (currentEpoch : UInt64) : GroupFormationManager × Except String Unit :=
  if stake < config.minimumStake then
    (manager, .error ("AUDIT-005: Insufficient stake for registration: " ++ toString stake ++ " < " ++
      toString config.minimumStake ++ " minimum required"))
  else if isUnreachable nodeInfo.multiaddr then
    (manager, .error ("Registration rejected: private IP address " ++ nodeInfo.multiaddr ++
      " is not reachable from public network"))
  else
    let stored := { manager with
      registeredNodes := manager.registeredNodes.insert nodeInfo.nodeId nodeInfo
      nodeStakes := manager.nodeStakes.insert nodeInfo.nodeId stake }
    if manager.registeredNodes.contains nodeInfo.nodeId then (stored, .ok ())
    else
      let count := manager.registrationsIn currentEpoch
      if maxRegistrationsPerEpoch ≤ count then
        ({ manager with registrationsThisEpoch := count, registrationEpoch := currentEpoch },
          .error ("AUDIT-005: Registration rate limit exceeded: " ++ toString count ++
            " registrations this epoch (max " ++ toString maxRegistrationsPerEpoch ++ ")"))
      else
        ({ stored with registrationsThisEpoch := count + 1, registrationEpoch := currentEpoch },
          .ok ())

/-- The epoch of the scheduler, the order of the registry, and what making groups reads. -/
structure FormationReadings where
  currentEpoch : UInt64
  order : Shuffle LightNodeInfo
  surroundings : Surroundings

def rebalancePeriodEpochs : UInt64 := 60

variable (host : Host)

def sortForAssignment (currentEpoch : UInt64) (nodes : List LightNodeInfo) : List LightNodeInfo :=
  if 0 < currentEpoch ∧ currentEpoch % rebalancePeriodEpochs = 0 then
    nodes.insertionSort fun a b => ¬ b.pouScore > a.pouScore
  else
    nodes.insertionSort fun a b =>
      host.peerBucketHash a.peerId < host.peerBucketHash b.peerId ∨
        host.peerBucketHash a.peerId = host.peerBucketHash b.peerId ∧ a.peerId ≤ b.peerId

variable (groups : List P2PGroup)

def insertGroups (active : Groups) : Groups :=
  groups.foldl (fun table group => table.insert group.groupId group) active

def groupsOf (config : GroupFormationConfig) (readings : FormationReadings)
    (nodes : List LightNodeInfo) : List P2PGroup :=
  let sorted := sortForAssignment host readings.currentEpoch nodes
  let groups :=
    if config.geographicDistribution then
      createGeographicallyDistributedGroups config readings.surroundings readings.currentEpoch sorted
    else createSimpleGroups config readings.surroundings readings.currentEpoch sorted
  groups.map fun group => { group with groupLeaderMasternode := some host.localId }

/-- The reset at the start frees all nodes, so that the filter for free ones keeps all. -/
def formFrom (config : GroupFormationConfig) (manager : GroupFormationManager)
    (readings : FormationReadings) : GroupFormationManager × List P2PGroup :=
  let freed := manager.registeredNodes.map fun _ node => { node with assignment := .free }
  let manager := { manager with
    currentEpoch := readings.currentEpoch
    registeredNodes := freed }
  let nodes := (readings.order.order (freed.toList.map Prod.snd)).filter fun node =>
    node.assignment = .free
  if nodes.length < config.minGroupSize then (manager, [])
  else
    let groups := groupsOf host config readings nodes
    ({ manager with activeGroups := insertGroups groups manager.activeGroups }, groups)

/-- The formation interval is over, or the call does not ask. `none` is the panic of a
subtraction with overflow checks. -/
def formationDue (config : GroupFormationConfig) (lastEpoch : UInt64) (force : Bool)
    (currentEpoch : UInt64) : Option Bool :=
  if force || currentEpoch == 0 then some true
  else if host.overflowChecks && currentEpoch < lastEpoch then none
  else some (config.formationIntervalEpochs ≤ currentEpoch - lastEpoch)

def formGroups (config : GroupFormationConfig) (manager : GroupFormationManager) (force : Bool)
    (readings : FormationReadings) : GroupFormationManager × Option (List P2PGroup) :=
  match formationDue host config manager.currentEpoch force readings.currentEpoch with
  | none => (manager, none)
  | some false => (manager, some [])
  | some true =>
    let (after, groups) := formFrom host config manager readings
    (after, some groups)

def setAssignment (status : GroupConsensus.NodeAssignmentStatus) (nodes : Nodes) (nodeId : String) :
    Nodes :=
  nodes.modify nodeId fun node => { node with assignment := status }

def markMembers (nodes : Nodes) (group : P2PGroup) : Nodes :=
  group.members.foldl (setAssignment (.assigned group.groupId)) nodes

def addActiveGroups : GroupFormationManager :=
  { manager with
    activeGroups := insertGroups groups manager.activeGroups
    registeredNodes := groups.foldl markMembers manager.registeredNodes }

/-- The clock in seconds, unless it is before the epoch; the order of the registry; the
masternodes the consensus knows, if there is one, and the new leader it draws for a group. -/
structure CleanupReadings where
  currentTime : Option UInt64
  order : Shuffle (String × LightNodeInfo)
  availableMasternodes : List String
  isAvailable : String → Bool
  drawnLeader : String → String

def isActive (currentTime : UInt64) (node : LightNodeInfo) : Bool :=
  currentTime - node.lastSeen < config.nodeTimeoutSecs

/-- `retain` over the registry, and whether it came to the end: with overflow checks the
subtraction panics at the first node that was seen after the current time. -/
def removeInactive (config : GroupFormationConfig) (currentTime : UInt64)
    (entries : List (String × LightNodeInfo)) (nodes : Nodes) : Nodes × Bool :=
  let reached := if host.overflowChecks then
      entries.takeWhile fun entry => entry.2.lastSeen ≤ currentTime
    else entries
  (reached.foldl (fun table entry =>
      if isActive config currentTime entry.2 then table else table.erase entry.1) nodes,
    reached.length == entries.length)

def isDisconnected (nodes : Nodes) (group : P2PGroup) : Bool :=
  let activeMembers := (group.members.filter fun member => nodes.contains member).length
  let disconnectedRatio := 1.0 - Float.ofNat activeMembers / Float.ofNat group.members.length
  disconnectedRatio ≥ config.dissolutionDisconnectThreshold

variable (readings : CleanupReadings)

def transferOwnership (group : P2PGroup) : P2PGroup :=
  match group.groupLeaderMasternode with
  | none => group
  | some leader =>
    if !readings.isAvailable leader && !readings.availableMasternodes.isEmpty then
      { group with groupLeaderMasternode := some (readings.drawnLeader group.groupId) }
    else group

def superviseGroup (nodes : Nodes) (group : P2PGroup) : P2PGroup :=
  if group.status = .dissolving then group
  else if group.members.length = 0 then group
  else if isDisconnected config nodes group then { group with status := .dissolving }
  else transferOwnership readings group

def dissolveGroups (manager : GroupFormationManager) : GroupFormationManager :=
  let groups := manager.activeGroups.map fun _ group =>
    superviseGroup config readings manager.registeredNodes group
  let dissolved := (groups.toList.map Prod.snd).filter fun group => group.status = .dissolving
  { manager with
    activeGroups := groups.filter fun _ group => group.status ≠ .dissolving
    registeredNodes := (dissolved.flatMap P2PGroup.members).foldl (setAssignment .free)
      manager.registeredNodes }

/-- `none` is a panic in the first sweep, which holds no lock on the groups yet. -/
def cleanupInactive (config : GroupFormationConfig) (manager : GroupFormationManager)
    (readings : CleanupReadings) : GroupFormationManager × Option (Except String Unit) :=
  match readings.currentTime with
  | none => (manager, some (.error "second time provided was later than self"))
  | some currentTime =>
    let (nodes, finished) := removeInactive host config currentTime
      (readings.order.order manager.registeredNodes.toList) manager.registeredNodes
    let manager := { manager with registeredNodes := nodes }
    if finished then (dissolveGroups config readings manager, some (.ok ()))
    else (manager, none)

inductive Operation where
  | registerLightNode (nodeInfo : LightNodeInfo) (stake : Nat) (currentEpoch : UInt64)
  | formGroups (force : Bool) (readings : FormationReadings)
  | addActiveGroups (groups : List P2PGroup)
  | cleanupInactive (readings : CleanupReadings)

def step (config : GroupFormationConfig) (manager : GroupFormationManager) :
    Operation → GroupFormationManager × Unit
  | .registerLightNode nodeInfo stake currentEpoch =>
    ((registerLightNodeWithStake config manager nodeInfo stake currentEpoch).1, ())
  | .formGroups force readings => ((formGroups host config manager force readings).1, ())
  | .addActiveGroups groups => (addActiveGroups manager groups, ())
  | .cleanupInactive readings => ((cleanupInactive host config manager readings).1, ())

end Savitri.GroupFormation
