import RobotOta.CanFrameCodec
import RobotOta.DocumentedSort
import RobotOta.EventRun
import Mathlib.Logic.Function.Basic

/-!
# The receive side of the CAN link

`recvFromCan` sorts incoming fragments into a table per source and packet id,
joins a fragment list as soon as it is long enough, and drops the list that is
127 ids ahead when a new id opens. The maps are total functions with absent
entries; the byte buffer of the join has an explicit size, and running past it
is a fault. The two module ids the receiver listens for come from a header
outside the repository and are parameters.
-/

namespace RobotOta.CanReassembly

open CanFrameCodec DocumentedSort EventRun

/-- `RM_SYSCTRL_ID` and `RM_UPGRADE_ID`. -/
structure ReceiverIds where
  /-- `RM_SYSCTRL_ID`. -/
  rmSysctrlId : Byte
  /-- `RM_UPGRADE_ID`. -/
  rmUpgradeId : Byte

/-- `struct CANPACKET`: the list is the block behind `p_data`, and `len` is
its length because `_getCanPacket` allocates exactly what it copies. -/
structure CanPacket where
  /-- The priority of the message. -/
  priority : Byte
  /-- The module it comes from. -/
  srcId : Byte
  /-- The module it goes to. -/
  dstId : Byte
  /-- The bytes of the message. -/
  pData : List Byte
  deriving DecidableEq

/-- Undefined behaviour the receive path can run into. -/
inductive MemoryFault where
  /-- A copy needs this many bytes of a smaller buffer. -/
  | bufferOverrun (needed : ℕ)
  /-- `at(0)` on an empty vector. -/
  | outOfRange
  deriving DecidableEq

/-- `PacketCompare` orders by fragment number. -/
def packetKey (packet : FlexcanPacket) : ℕ := packet.packetSN.toNat

/-- `getCanPacket(const struct flexcan_packet *)`. -/
def getCanPacket (canData : FlexcanPacket) : CanPacket :=
  ⟨canData.priority, canData.sId, canData.dId, canData.data.take canData.len⟩

/-- The copy loop of the vector `getCanPacket`: bytes gathered so far, then
each fragment's bytes, as long as they fit the buffer. -/
def gatherData (size : ℕ) : List Byte → List FlexcanPacket → Except MemoryFault (List Byte)
  | gathered, [] => .ok gathered
  | gathered, packet :: rest =>
    if gathered.length + packet.len ≤ size then
      gatherData size (gathered ++ packet.data.take packet.len) rest
    else .error (.bufferOverrun (gathered.length + packet.len))

/-- `getCanPacket(UDT_VEC_FLEXCAN)`: sort by fragment number and join; source,
destination and priority are those of the first fragment. -/
def getCanPacketVec (sorter : KeySort packetKey) (size : ℕ) (packets : List FlexcanPacket) :
    Except MemoryFault CanPacket :=
  let sorted := sorter.sort packets
  match gatherData size [] sorted with
  | .error fault => .error fault
  | .ok data =>
    match sorted with
    | [] => .error .outOfRange
    | first :: _ => .ok ⟨first.priority, first.sId, first.dId, data⟩

/-- `UDT_MAP_FLEXCAN`: fragment lists by packet id. -/
abbrev PacketMap := Byte → Option (List FlexcanPacket)

/-- State of the receive thread and the queue it feeds. -/
structure RecvState where
  /-- `InCompletePackets`: packet maps by source id. -/
  inCompletePackets : Byte → Option PacketMap
  /-- `RecvList`, oldest packet first. -/
  recvList : List CanPacket

/-- Empty map and empty queue, as `openCANDevice` leaves them. -/
def emptyState : RecvState := ⟨fun _ => none, []⟩

/-- `TimeOutId`. -/
def timeOutId : Byte := 127

/-- `pushToRecvList`. -/
def pushToRecvList (state : RecvState) (packet : CanPacket) : RecvState :=
  { state with recvList := state.recvList ++ [packet] }

/-- Replace the packet map of one source. -/
def setPackets (state : RecvState) (source : Byte) (packets : PacketMap) : RecvState :=
  { state with
    inCompletePackets := Function.update state.inCompletePackets source (some packets) }

/-- `removePacketId`. -/
def removePacketId (packets : PacketMap) (id : Byte) : PacketMap := Function.update packets id none

/-- The fragment branch of `recvFromCan`. -/
def recvFragment (sorter : KeySort packetKey) (size : ℕ) (canData : FlexcanPacket)
    (state : RecvState) : Except MemoryFault RecvState :=
  match state.inCompletePackets canData.sId with
  | none =>
    .ok (setPackets state canData.sId
      (Function.update (fun _ => none) canData.packetId (some [canData])))
  | some packets =>
    match packets canData.packetId with
    | none =>
      -- A new id opens: the id 127 ahead counts as timed out.
      let kept := removePacketId packets (canData.packetId + timeOutId)
      .ok (setPackets state canData.sId (Function.update kept canData.packetId (some [canData])))
    | some fragments =>
      let fragments := fragments ++ [canData]
      -- The list size is cut to eight bits before the comparison.
      if canData.sum.toNat + 1 ≤ fragments.length % 256 then
        match getCanPacketVec sorter size fragments with
        | .error fault => .error fault
        | .ok packet =>
          .ok (pushToRecvList
            (setPackets state canData.sId (removePacketId packets canData.packetId)) packet)
      else
        .ok (setPackets state canData.sId
          (Function.update packets canData.packetId (some fragments)))

/-- `recvFromCan` on what `flexcan_recv` made of one read: its return value and
the state it leaves. -/
def recvFromCan (ids : ReceiverIds) (sorter : KeySort packetKey) (size : ℕ) (state : RecvState)
    (frame : CanFrame) : Except MemoryFault (Int × RecvState) :=
  match flexcanRecv frame zeroPacket with
  | none => .ok (-1, state)
  | some canData =>
    if canData.dId ≠ ids.rmSysctrlId ∧ canData.dId ≠ ids.rmUpgradeId then .ok (-1, state)
    else if canData.sum ≠ 0 then
      match recvFragment sorter size canData state with
      | .error fault => .error fault
      | .ok next => .ok (0, next)
    else .ok (0, pushToRecvList state (getCanPacket canData))

/-- `thread_recv` ignores the return value and goes on with the next frame. -/
def recvStep (ids : ReceiverIds) (sorter : KeySort packetKey) (size : ℕ) (state : RecvState)
    (frame : CanFrame) : Except MemoryFault RecvState :=
  match recvFromCan ids sorter size state frame with
  | .error fault => .error fault
  | .ok (_, next) => .ok next

/-- The receive thread over a sequence of frames. -/
def recvFrames (ids : ReceiverIds) (sorter : KeySort packetKey) (size : ℕ) (state : RecvState)
    (frames : List CanFrame) : Except MemoryFault RecvState :=
  runEvents (recvStep ids sorter size) state frames

/-- What one fragment does to the map of its own source: the new map and the
packet it completes, if any. -/
def fragmentOutcome (sorter : KeySort packetKey) (size : ℕ) (canData : FlexcanPacket) :
    Option PacketMap → Except MemoryFault (PacketMap × Option CanPacket)
  | none => .ok (Function.update (fun _ => none) canData.packetId (some [canData]), none)
  | some packets =>
    match packets canData.packetId with
    | none =>
      .ok (Function.update (removePacketId packets (canData.packetId + timeOutId))
        canData.packetId (some [canData]), none)
    | some fragments =>
      if canData.sum.toNat + 1 ≤ (fragments ++ [canData]).length % 256 then
        match getCanPacketVec sorter size (fragments ++ [canData]) with
        | .error fault => .error fault
        | .ok packet => .ok (removePacketId packets canData.packetId, some packet)
      else
        .ok (Function.update packets canData.packetId (some (fragments ++ [canData])), none)

/-- The state after a fragment of `source` turned its map into `packets` and
completed `packet`. -/
def afterFragment (state : RecvState) (source : Byte) (packets : PacketMap)
    (packet : Option CanPacket) : RecvState :=
  ⟨Function.update state.inCompletePackets source (some packets),
    state.recvList ++ packet.toList⟩

/-- The fragment branch looks only at the map of the fragment's source and
changes only that map and the end of the queue. -/
theorem recvFragment_eq (sorter : KeySort packetKey) (size : ℕ) (canData : FlexcanPacket)
    (state : RecvState) :
    recvFragment sorter size canData state =
      match fragmentOutcome sorter size canData (state.inCompletePackets canData.sId) with
      | .error fault => .error fault
      | .ok (packets, packet) => .ok (afterFragment state canData.sId packets packet) := by
  unfold recvFragment
  cases hs : state.inCompletePackets canData.sId with
  | none => simp [fragmentOutcome, afterFragment, setPackets]
  | some packets =>
    dsimp only
    cases hp : packets canData.packetId with
    | none => simp [fragmentOutcome, hp, afterFragment, setPackets]
    | some fragments =>
      simp only [fragmentOutcome, hp]
      split
      · cases getCanPacketVec sorter size (fragments ++ [canData]) with
        | error fault => rfl
        | ok packet => rfl
      · simp [afterFragment, setPackets]

/-- The packet of a frame the receiver does not drop: decoded, and addressed
to one of its two modules. -/
def addressedPacket (ids : ReceiverIds) (frame : CanFrame) : Option FlexcanPacket :=
  (flexcanRecv frame zeroPacket).filter fun canData =>
    canData.dId = ids.rmSysctrlId ∨ canData.dId = ids.rmUpgradeId

/-- One receive step: a dropped frame changes nothing, a complete packet is
queued, and a fragment acts on the map of its source. -/
theorem recvStep_eq (ids : ReceiverIds) (sorter : KeySort packetKey) (size : ℕ)
    (state : RecvState) (frame : CanFrame) :
    recvStep ids sorter size state frame =
      match addressedPacket ids frame with
      | none => .ok state
      | some canData =>
        if canData.sum = 0 then .ok (pushToRecvList state (getCanPacket canData))
        else
          match fragmentOutcome sorter size canData (state.inCompletePackets canData.sId) with
          | .error fault => .error fault
          | .ok (packets, packet) => .ok (afterFragment state canData.sId packets packet) := by
  unfold recvStep recvFromCan addressedPacket
  cases hrecv : flexcanRecv frame zeroPacket with
  | none => rfl
  | some canData =>
    dsimp only
    by_cases haddr : canData.dId = ids.rmSysctrlId ∨ canData.dId = ids.rmUpgradeId
    · rw [if_neg (by tauto), Option.filter_some_pos (by simpa using haddr)]
      by_cases hz : canData.sum = 0
      · simp [hz]
      · simp only [ne_eq, hz, not_false_eq_true, if_true, if_false, recvFragment_eq]
        cases fragmentOutcome sorter size canData (state.inCompletePackets canData.sId) with
        | error fault => rfl
        | ok outcome => rfl
    · rw [if_pos (by tauto), Option.filter_some_neg (by simpa using haddr)]

/-- A decoded packet's source is the one its frame's identifier names. -/
theorem sId_of_addressedPacket {ids : ReceiverIds} {frame : CanFrame} {canData : FlexcanPacket}
    (h : addressedPacket ids frame = some canData) :
    canData.sId = canId2dataSModule frame.canId := by
  have hrecv : flexcanRecv frame zeroPacket = some canData := (Option.filter_eq_some_iff.mp h).1
  rw [← (fields_and_canEffMask frame.canId).2.1]
  unfold flexcanRecv at hrecv
  dsimp only at hrecv
  split_ifs at hrecv <;> cases hrecv <;> rfl

end RobotOta.CanReassembly
