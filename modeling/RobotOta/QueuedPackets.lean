import RobotOta.CanReassemblyBuffer
import Mathlib.Algebra.Order.BigOperators.Group.List

/-!
# The packets in the receive list

`RecvList` between the receive thread, which queues a packet for every complete
frame and for every fragment list that is complete, and `readCANData`, which
takes the packets out and looks at the first byte of each. Fragments carry at
least one byte; the length of a complete frame is taken from the bus as it is.
-/

namespace RobotOta.QueuedPackets

open CanFrameCodec CanReassembly CanReassemblyWindow CanReassemblyBuffer DocumentedSort EventRun

/-- The access to `p_data[0]` in `readCANData`. -/
def firstByte (packet : CanPacket) : Except MemoryFault Byte :=
  match packet.pData with
  | [] => .error .outOfRange
  | byte :: _ => .ok byte

/-- What happens to `RecvList`. -/
inductive QueueEvent where
  /-- A frame arrives; `granted` tells whether the `malloc` for a packet that it
  completes returns memory. -/
  | frame (frame : CanFrame) (granted : Bool)
  /-- A turn of a `readCANData` that waits for a packet of module `expSId`. -/
  | read (expSId : Byte)

/-- `popFromRecvList` and the comparison behind it, which looks at the first
byte of a packet of the expected module. -/
def readStep (expSId : Byte) (state : RecvState) : Except MemoryFault RecvState :=
  match state.recvList with
  | [] => .ok state
  | packet :: rest =>
    if packet.srcId = expSId then
      match firstByte packet with
      | .error fault => .error fault
      | .ok _ => .ok { state with recvList := rest }
    else .ok { state with recvList := rest }

/-- One event: a packet without memory is not queued. -/
def queueStep (ids : ReceiverIds) (sorter : KeySort packetKey) (size : ℕ) (state : RecvState) :
    QueueEvent → Except MemoryFault RecvState
  | .frame frame granted =>
    match recvStep ids sorter size state frame with
    | .error fault => .error fault
    | .ok next => .ok (if granted then next else { next with recvList := state.recvList })
  | .read expSId => readStep expSId state

/-- A run of both threads from the empty queue. -/
def runQueue (ids : ReceiverIds) (sorter : KeySort packetKey) (size : ℕ)
    (events : List QueueEvent) : Except MemoryFault RecvState :=
  runEvents (queueStep ids sorter size) emptyState events

/-- The packet has a first byte, and it lies in the block behind `p_data`. -/
structure HasFirstByte (packet : CanPacket) : Prop where
  len_pos : 1 ≤ packet.pData.length
  inside : ∃ byte, firstByte packet = .ok byte

/-- Every packet in the queue has a first byte. -/
def AllHaveFirstByte (state : RecvState) : Prop := ∀ packet ∈ state.recvList, HasFirstByte packet

/-- The frame is a complete packet for the receiver, and has no data. -/
def EmptyPacket (ids : ReceiverIds) (frame : CanFrame) : Prop :=
  (∃ canData, addressedPacket ids frame = some canData ∧ canData.sum = 0) ∧ frame.canDlc = 0

/-- A fragment list that the frame completes fits the buffer of the join. -/
def JoinFits (ids : ReceiverIds) (size : ℕ) (state : RecvState) (frame : CanFrame) : Prop :=
  ∀ canData fragments, KeptFragment ids frame canData → JoinsList state canData fragments →
    CompletesList canData fragments →
      ((fragments ++ [canData]).map FlexcanPacket.len).sum ≤ size

/-- What an event must be like: no packet without data is queued, and no join
outgrows its buffer. -/
def SoundEvent (ids : ReceiverIds) (size : ℕ) (state : RecvState) : QueueEvent → Prop
  | .frame frame granted =>
    ¬(granted = true ∧ EmptyPacket ids frame) ∧ JoinFits ids size state frame
  | .read _ => True

/-- The packet that a frame completes. -/
inductive Completed (ids : ReceiverIds) (sorter : KeySort packetKey) (size : ℕ)
    (state : RecvState) (frame : CanFrame) : CanPacket → Prop where
  | single (canData : FlexcanPacket) : addressedPacket ids frame = some canData →
    canData.sum = 0 → Completed ids sorter size state frame (getCanPacket canData)
  | joined (canData : FlexcanPacket) (fragments : List FlexcanPacket) (packet : CanPacket) :
    KeptFragment ids frame canData → JoinsList state canData fragments →
    CompletesList canData fragments →
    getCanPacketVec sorter size (fragments ++ [canData]) = .ok packet →
    Completed ids sorter size state frame packet

variable {ids : ReceiverIds} {sorter : KeySort packetKey} {size : ℕ} {state next : RecvState}
  {frame : CanFrame} {canData : FlexcanPacket} {fragments : List FlexcanPacket}
  {packet : CanPacket}

theorem hasFirstByte_iff : HasFirstByte packet ↔ 1 ≤ packet.pData.length := by
  refine ⟨HasFirstByte.len_pos, fun hpos => ⟨hpos, ?_⟩⟩
  unfold firstByte
  cases hdata : packet.pData with
  | nil =>
    rw [hdata, List.length_nil] at hpos
    omega
  | cons byte rest => exact ⟨byte, rfl⟩

/-- A copy that stays in the buffer has gathered the bytes of all fragments. -/
theorem length_gatherData {gathered data : List Byte}
    (hlen : ∀ canData ∈ fragments, canData.len ≤ canDataMaxLen)
    (hgather : gatherData size gathered fragments = .ok data) :
    data.length = gathered.length + (fragments.map FlexcanPacket.len).sum ∧
      (gathered.length ≤ size → data.length ≤ size) := by
  induction fragments generalizing gathered with
  | nil =>
    cases hgather
    exact ⟨rfl, id⟩
  | cons first rest ih =>
    have hfirst := hlen first List.mem_cons_self
    have htake : (first.data.take first.len).length = first.len := by
      rw [List.length_take, first.data_length]
      exact Nat.min_eq_left hfirst
    rw [gatherData] at hgather
    split_ifs at hgather with hfit
    have hrest := ih (fun other hother => hlen other (List.mem_cons_of_mem _ hother)) hgather
    rw [List.length_append, htake] at hrest
    rw [List.map_cons, List.sum_cons]
    exact ⟨by omega, fun _ => hrest.2 hfit⟩

/-- The joined packet has the bytes of all its fragments. -/
theorem length_getCanPacketVec (hlen : ∀ canData ∈ fragments, canData.len ≤ canDataMaxLen)
    (hjoin : getCanPacketVec sorter size fragments = .ok packet) :
    packet.pData.length = (fragments.map FlexcanPacket.len).sum ∧ packet.pData.length ≤ size := by
  have hperm := sorter.perm fragments
  rw [getCanPacketVec] at hjoin
  cases hgather : gatherData size [] (sorter.sort fragments) with
  | error fault =>
    rw [hgather] at hjoin
    cases hjoin
  | ok data =>
    have hdata := length_gatherData
      (fun other hother => hlen other (sorter.mem_sort.mp hother)) hgather
    rw [(hperm.map FlexcanPacket.len).sum_nat, List.length_nil, Nat.zero_add] at hdata
    rw [hgather] at hjoin
    cases hsorted : sorter.sort fragments with
    | nil =>
      rw [hsorted] at hjoin
      cases hjoin
    | cons first rest =>
      rw [hsorted] at hjoin
      cases hjoin
      exact ⟨hdata.1, hdata.2 (Nat.zero_le _)⟩

/-- Fragments off the bus that fit the buffer are joined. -/
theorem getCanPacketVec_fits (sorter : KeySort packetKey) (h : ReceivedList fragments)
    (hfit : (fragments.map FlexcanPacket.len).sum ≤ size) :
    ∃ packet, getCanPacketVec sorter size fragments = .ok packet := by
  have hperm := sorter.perm fragments
  have hlen : ∀ canData ∈ sorter.sort fragments, canData.len ≤ canDataMaxLen :=
    fun canData hmem => (h.len_le canData (sorter.mem_sort.mp hmem)).trans (by decide)
  have hbytes : ((sorter.sort fragments).flatMap payload).length ≤
      ((sorter.sort fragments).map FlexcanPacket.len).sum := by
    rw [List.length_flatMap]
    exact List.sum_le_sum fun canData _ => List.length_take_le _ _
  rw [(hperm.map FlexcanPacket.len).sum_nat] at hbytes
  have hgather : gatherData size [] (sorter.sort fragments) =
      .ok ([] ++ (sorter.sort fragments).flatMap payload) :=
    gatherData_eq hlen [] (by
      rw [List.nil_append]
      exact hbytes.trans hfit)
  cases hsorted : sorter.sort fragments with
  | nil =>
    rw [hsorted] at hperm
    exact absurd hperm.symm.eq_nil h.nonempty
  | cons first rest =>
    rw [hsorted] at hgather
    refine ⟨⟨first.priority, first.sId, first.dId, (first :: rest).flatMap payload⟩, ?_⟩
    rw [getCanPacketVec, hsorted, hgather]
    rfl

/-- A fragment that the receiver keeps has a byte. -/
theorem len_pos_of_kept (h : KeptFragment ids frame canData) : 1 ≤ canData.len := by
  have hrecv : flexcanRecv frame zeroPacket = some canData := (Option.filter_eq_some_iff.mp h.1).1
  have hsum := h.2
  have hoff : canSubPacketOffset = 2 := rfl
  unfold flexcanRecv at hrecv
  dsimp only at hrecv
  split_ifs at hrecv with _ _ hzero hshort
  · cases hrecv
    exact absurd hzero hsum
  · cases hrecv
    dsimp only
    omega

/-- A complete frame is queued with the data length of the frame. -/
theorem length_getCanPacket (haddr : addressedPacket ids frame = some canData)
    (hsum : canData.sum = 0) : (getCanPacket canData).pData.length = frame.canDlc := by
  have hrecv : flexcanRecv frame zeroPacket = some canData := (Option.filter_eq_some_iff.mp haddr).1
  have hlen : canData.len = frame.canDlc := by
    unfold flexcanRecv at hrecv
    dsimp only at hrecv
    split_ifs at hrecv with _ _ hzero
    · cases hrecv
      rfl
    · cases hrecv
      exact absurd hsum hzero
  have hdlc := frame.dlc_le
  rw [getCanPacket, List.length_take, canData.data_length]
  omega

/-- A list of fragments off the bus, each with a byte at least. -/
structure FilledList (fragments : List FlexcanPacket) : Prop extends ReceivedList fragments where
  len_pos : ∀ canData ∈ fragments, 1 ≤ canData.len

theorem filledList_singleton (hkept : KeptFragment ids frame canData) : FilledList [canData] where
  nonempty := List.cons_ne_nil _ _
  len_le := by simpa using hkept.len_le
  len_pos := by simpa using len_pos_of_kept hkept

theorem FilledList.append (h : FilledList fragments) (hkept : KeptFragment ids frame canData) :
    FilledList (fragments ++ [canData]) where
  toReceivedList := h.toReceivedList.append hkept
  len_pos := by
    intro other hother
    rcases List.mem_append.mp hother with hold | hnew
    · exact h.len_pos other hold
    · rw [List.mem_singleton.mp hnew]
      exact len_pos_of_kept hkept

/-- A list of fragments has a byte. -/
theorem FilledList.sum_pos (h : FilledList fragments) :
    1 ≤ (fragments.map FlexcanPacket.len).sum := by
  cases fragments with
  | nil => exact absurd rfl h.nonempty
  | cons first rest =>
    have hfirst := h.len_pos first List.mem_cons_self
    rw [List.map_cons, List.sum_cons]
    omega

/-- A frame appends the packet that it completes to the queue, and does nothing
else to it. -/
theorem recvList_recvStep (hstep : recvStep ids sorter size state frame = .ok next) :
    next.recvList = state.recvList ∨ ∃ packet, Completed ids sorter size state frame packet ∧
      next.recvList = state.recvList ++ [packet] := by
  cases haddr : addressedPacket ids frame with
  | none =>
    rw [recvStep_eq, haddr] at hstep
    cases hstep
    exact Or.inl rfl
  | some canData =>
    by_cases hsum : canData.sum = 0
    · rw [recvStep_eq, haddr] at hstep
      dsimp only at hstep
      rw [if_pos hsum] at hstep
      cases hstep
      exact Or.inr ⟨_, .single canData haddr hsum, rfl⟩
    · have hkept : KeptFragment ids frame canData := ⟨haddr, hsum⟩
      cases hlist : table canData.sId state canData.packetId with
      | none =>
        rw [recvStep_opens hkept hlist] at hstep
        cases hstep
        exact Or.inl (List.append_nil _)
      | some fragments =>
        by_cases hcomplete : CompletesList canData fragments
        · rw [recvStep_completes hkept hlist hcomplete] at hstep
          cases hjoin : getCanPacketVec sorter size (fragments ++ [canData]) with
          | error fault =>
            rw [hjoin] at hstep
            cases hstep
          | ok packet =>
            rw [hjoin] at hstep
            cases hstep
            exact Or.inr ⟨packet, .joined canData fragments packet hkept hlist hcomplete hjoin, rfl⟩
        · rw [recvStep_appends hkept hlist hcomplete] at hstep
          cases hstep
          exact Or.inl (List.append_nil _)

/-- A frame for the receiver is taken in without a fault where the join fits. -/
theorem recvStep_ok_iff (hlists : EveryList FilledList state) :
    (∃ next, recvStep ids sorter size state frame = .ok next) ↔
      JoinFits ids size state frame := by
  constructor
  · rintro ⟨next, hstep⟩ canData fragments hkept hjoins hcomplete
    rw [recvStep_completes hkept hjoins hcomplete] at hstep
    cases hjoin : getCanPacketVec sorter size (fragments ++ [canData]) with
    | error fault =>
      rw [hjoin] at hstep
      cases hstep
    | ok packet =>
      have hfilled := (hlists _ _ _ hjoins).append hkept
      have hlength := length_getCanPacketVec
        (fun other hother => (hfilled.len_le other hother).trans (by decide)) hjoin
      omega
  · intro hfits
    cases haddr : addressedPacket ids frame with
    | none =>
      rw [recvStep_eq, haddr]
      exact ⟨_, rfl⟩
    | some canData =>
      by_cases hsum : canData.sum = 0
      · rw [recvStep_eq, haddr]
        dsimp only
        rw [if_pos hsum]
        exact ⟨_, rfl⟩
      have hkept : KeptFragment ids frame canData := ⟨haddr, hsum⟩
      cases hlist : table canData.sId state canData.packetId with
      | none => exact ⟨_, recvStep_opens hkept hlist⟩
      | some fragments =>
        by_cases hcomplete : CompletesList canData fragments
        · obtain ⟨packet, hjoin⟩ := getCanPacketVec_fits sorter
            ((hlists _ _ _ hlist).append hkept).toReceivedList
            (hfits canData fragments hkept hlist hcomplete)
          rw [recvStep_completes hkept hlist hcomplete, hjoin]
          exact ⟨_, rfl⟩
        · exact ⟨_, recvStep_appends hkept hlist hcomplete⟩

/-- The queue beside the fragment lists: the lists hold fragments with bytes,
and a queued packet fits the buffer of a join. -/
structure Received (state : RecvState) : Prop where
  lists : EveryList FilledList state
  queued : ∀ packet ∈ state.recvList, packet.pData.length ≤ canDataTotalSize

/-- What a frame completes fits the buffer of a join. -/
theorem Completed.length_le (h : Completed ids sorter canDataTotalSize state frame packet)
    (hlists : EveryList FilledList state) : packet.pData.length ≤ canDataTotalSize := by
  cases h with
  | single canData haddr hsum =>
    rw [length_getCanPacket haddr hsum]
    exact frame.dlc_le.trans (by decide)
  | joined canData fragments _ hkept hjoins _ hjoin =>
    have hfilled := (hlists _ _ _ hjoins).append hkept
    exact (length_getCanPacketVec
      (fun other hother => (hfilled.len_le other hother).trans (by decide)) hjoin).2

/-- What a frame completes has a first byte if and only if it is not an empty frame. -/
theorem Completed.hasFirstByte_iff (h : Completed ids sorter size state frame packet)
    (hlists : EveryList FilledList state) : HasFirstByte packet ↔ ¬EmptyPacket ids frame := by
  rw [QueuedPackets.hasFirstByte_iff]
  cases h with
  | single canData haddr hsum =>
    rw [length_getCanPacket haddr hsum]
    constructor
    · rintro hpos ⟨-, hzero⟩
      omega
    · intro hfull
      by_contra hzero
      exact hfull ⟨⟨canData, haddr, hsum⟩, by omega⟩
  | joined canData fragments _ hkept hjoins _ hjoin =>
    have hfilled := (hlists _ _ _ hjoins).append hkept
    have hlength := (length_getCanPacketVec
      (fun other hother => (hfilled.len_le other hother).trans (by decide)) hjoin).1
    have hpos := hfilled.sum_pos
    refine iff_of_true (by omega) ?_
    rintro ⟨⟨other, hother, hzero⟩, -⟩
    rw [hkept.1] at hother
    cases hother
    exact hkept.2 hzero

/-- A frame keeps what is known of the lists and the queue. -/
theorem received_recvStep (h : Received state)
    (hstep : recvStep ids sorter canDataTotalSize state frame = .ok next) : Received next := by
  have hlists : EveryList FilledList next := by
    refine h.lists.recvStep (fun canData hkept => filledList_singleton hkept) ?_ hstep
    intro canData fragments hkept _ _ hfragments
    exact hfragments.append hkept
  refine ⟨hlists, fun packet hmem => ?_⟩
  rcases recvList_recvStep hstep with hsame | ⟨completed, hcompleted, hqueue⟩
  · exact h.queued packet (hsame ▸ hmem)
  · rw [hqueue] at hmem
    rcases List.mem_append.mp hmem with hold | hnew
    · exact h.queued packet hold
    · rw [List.mem_singleton.mp hnew]
      exact hcompleted.length_le h.lists

/-- A turn of a read takes the first packet at most. -/
theorem readStep_ok {expSId : Byte} (hstep : readStep expSId state = .ok next) :
    next = { state with recvList := state.recvList.tail } := by
  unfold readStep at hstep
  cases hlist : state.recvList with
  | nil =>
    rw [hlist] at hstep
    cases hstep
    rw [List.tail_nil, ← hlist]
  | cons packet rest =>
    rw [hlist] at hstep
    dsimp only at hstep
    split_ifs at hstep
    · cases hbyte : firstByte packet with
      | error fault =>
        rw [hbyte] at hstep
        cases hstep
      | ok byte =>
        rw [hbyte] at hstep
        cases hstep
        rfl
    · cases hstep
      rfl

/-- Where every packet has a first byte, a turn of a read stays inside them. -/
theorem readStep_inside (expSId : Byte) (h : AllHaveFirstByte state) :
    readStep expSId state = .ok { state with recvList := state.recvList.tail } := by
  have hok : ∃ next, readStep expSId state = .ok next := by
    unfold readStep
    cases hlist : state.recvList with
    | nil => exact ⟨_, rfl⟩
    | cons packet rest =>
      obtain ⟨byte, hbyte⟩ := (h packet (by rw [hlist]; exact List.mem_cons_self)).inside
      dsimp only
      split_ifs
      · rw [hbyte]
        exact ⟨_, rfl⟩
      · exact ⟨_, rfl⟩
  obtain ⟨next, hnext⟩ := hok
  rw [hnext, readStep_ok hnext]

/-- Every event keeps what is known of the lists and the queue. -/
theorem received_queueStep {event : QueueEvent} (h : Received state)
    (hstep : queueStep ids sorter canDataTotalSize state event = .ok next) : Received next := by
  cases event with
  | read expSId =>
    rw [readStep_ok hstep]
    exact ⟨h.lists, fun packet hmem => h.queued packet (List.mem_of_mem_tail hmem)⟩
  | frame frame granted =>
    rw [queueStep] at hstep
    cases hrecv : recvStep ids sorter canDataTotalSize state frame with
    | error fault =>
      rw [hrecv] at hstep
      cases hstep
    | ok after =>
      have hafter := received_recvStep h hrecv
      rw [hrecv] at hstep
      cases granted with
      | true =>
        cases hstep
        exact hafter
      | false =>
        cases hstep
        exact ⟨hafter.lists, h.queued⟩

/-- From a queue whose packets have a first byte, an event leads to such a queue
without a fault if and only if it is sound. -/
theorem queueStep_sound_iff (event : QueueEvent) (h : Received state)
    (hall : AllHaveFirstByte state) :
    (∃ next, queueStep ids sorter canDataTotalSize state event = .ok next ∧
      AllHaveFirstByte next) ↔ SoundEvent ids canDataTotalSize state event := by
  cases event with
  | read expSId =>
    refine iff_of_true ⟨_, readStep_inside expSId hall, fun packet hmem => ?_⟩ trivial
    exact hall packet (List.mem_of_mem_tail hmem)
  | frame frame granted =>
    rw [SoundEvent, ← @recvStep_ok_iff _ sorter _ _ _ h.lists, queueStep]
    cases hrecv : recvStep ids sorter canDataTotalSize state frame with
    | error fault => simp
    | ok after =>
      have hqueue := recvList_recvStep hrecv
      cases granted with
      | false => simpa [AllHaveFirstByte] using hall
      | true =>
        simp only [if_true, Except.ok.injEq, exists_eq_left', true_and, exists_eq', and_true]
        rcases hqueue with hsame | ⟨packet, hcompleted, hnext⟩
        · refine iff_of_true (fun packet hmem => hall packet (hsame ▸ hmem)) ?_
          rintro ⟨⟨canData, haddr, hsum⟩, -⟩
          rw [recvStep_eq, haddr] at hrecv
          dsimp only at hrecv
          rw [if_pos hsum] at hrecv
          cases hrecv
          exact absurd hsame (by simp [pushToRecvList])
        · rw [← hcompleted.hasFirstByte_iff h.lists]
          constructor
          · intro hafter
            exact hafter packet (by rw [hnext]; simp)
          · intro hpacket other hmem
            rw [hnext] at hmem
            rcases List.mem_append.mp hmem with hold | hnew
            · exact hall other hold
            · rw [List.mem_singleton.mp hnew]
              exact hpacket

theorem received_emptyState : Received emptyState :=
  ⟨everyList_emptyState _, fun packet hmem => by cases hmem⟩

theorem allHaveFirstByte_emptyState : AllHaveFirstByte emptyState :=
  fun packet hmem => by cases hmem

/-- In a run of both threads every queued packet has a first byte at all times,
and every access to it lies inside the packet, if and only if every event of the
run is sound: no complete frame without data is queued, and no join outgrows its
buffer. -/
theorem runQueue_firstBytes_iff (ids : ReceiverIds) (sorter : KeySort packetKey)
    (events : List QueueEvent) :
    (∀ seen rest, events = seen ++ rest →
        ∃ state, runQueue ids sorter canDataTotalSize seen = .ok state ∧ AllHaveFirstByte state) ↔
      ∀ seen event rest state, events = seen ++ event :: rest →
        runQueue ids sorter canDataTotalSize seen = .ok state →
          SoundEvent ids canDataTotalSize state event :=
  runEvents_good_iff (queueStep ids sorter canDataTotalSize) Received AllHaveFirstByte
    (SoundEvent ids canDataTotalSize) (fun _ _ _ h hstep => received_queueStep h hstep)
    (fun _ event h hall => queueStep_sound_iff event h hall)
    received_emptyState allHaveFirstByte_emptyState events

/-- A complete frame from module 0x10 to module 0x20 that carries no data. -/
def emptyFrame : CanFrame where
  canId := extendedId (moduleId { zeroPacket with sId := 0x10, dId := 0x20 })
  canDlc := 0
  data := zeroData
  dlc_le := by decide
  data_length := rfl

/-- It is queued, and the next read looks behind its block. -/
theorem not_firstBytes_emptyFrame :
    ¬∀ seen rest, [.frame emptyFrame true, .read 0x10] = seen ++ rest →
      ∃ state, runQueue ⟨0x20, 0x30⟩ (insertionKeySort packetKey) canDataTotalSize seen =
        .ok state ∧ AllHaveFirstByte state := by
  intro h
  obtain ⟨state, hrun, hall⟩ := h [.frame emptyFrame true] [.read 0x10] rfl
  have hstep : runQueue ⟨0x20, 0x30⟩ (insertionKeySort packetKey) canDataTotalSize
      [.frame emptyFrame true] = .ok (pushToRecvList emptyState ⟨0, 0x10, 0x20, []⟩) := rfl
  rw [hstep] at hrun
  cases hrun
  exact absurd (hall ⟨0, 0x10, 0x20, []⟩ List.mem_cons_self).len_pos (by decide)

end RobotOta.QueuedPackets
