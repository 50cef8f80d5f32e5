import RobotOta.CanReassemblyBuffer

/-!
# What a completed packet is made of

A list counts as complete once it is longer than the fragment count of the
fragment that arrived last. The join is the whole message if the list holds no
fragment twice, none of another count and none numbered beyond it; then the
count alone makes up for not looking at the numbers.
-/

namespace RobotOta.CanReassemblyCompletion

open CanFrameCodec CanReassembly CanReassemblyWindow CanReassemblyBuffer DocumentedSort EventRun

variable {ids : ReceiverIds} {sorter : KeySort packetKey} {state next : RecvState}
  {frame : CanFrame} {canData : FlexcanPacket} {fragments joined : List FlexcanPacket}

/-- The fragments of one message in order: each number from zero to the count
exactly once, and one count throughout. -/
structure WholeMessage (sum : Byte) (joined : List FlexcanPacket) : Prop where
  numbers : joined.map packetKey = List.range (sum.toNat + 1)
  sum_eq : ∀ canData ∈ joined, canData.sum = sum

/-- Fragments of one message, perhaps not all of them: no number twice, none
beyond the count, and one count throughout. -/
structure PartOfMessage (sum : Byte) (fragments : List FlexcanPacket) : Prop where
  nodup : (fragments.map packetKey).Nodup
  number_le : ∀ canData ∈ fragments, packetKey canData ≤ sum.toNat
  sum_eq : ∀ canData ∈ fragments, canData.sum = sum

/-- A rearrangement of a whole message is a part of it. -/
theorem WholeMessage.part {sum : Byte} (h : WholeMessage sum joined)
    (hperm : joined.Perm fragments) : PartOfMessage sum fragments := by
  have hmap := hperm.map packetKey
  refine ⟨?_, ?_, ?_⟩
  · rw [← hmap.nodup_iff, h.numbers]
    exact List.nodup_range
  · intro canData hmem
    have hnumber : packetKey canData ∈ joined.map packetKey :=
      hmap.mem_iff.mpr (List.mem_map_of_mem hmem)
    rw [h.numbers, List.mem_range] at hnumber
    omega
  · intro canData hmem
    exact h.sum_eq canData (hperm.mem_iff.mpr hmem)

/-- A part of a message has at most as many fragments as the message. -/
theorem PartOfMessage.numbers_subset {sum : Byte} (h : PartOfMessage sum fragments) :
    fragments.map packetKey ⊆ List.range (sum.toNat + 1) := by
  intro number hnumber
  obtain ⟨canData, hmem, rfl⟩ := List.mem_map.mp hnumber
  have hle := h.number_le canData hmem
  rw [List.mem_range]
  omega

/-- A part with as many fragments as the message is all of it, and sorting puts
it in order. -/
theorem PartOfMessage.whole_sort {sum : Byte} (h : PartOfMessage sum fragments)
    (hlength : sum.toNat + 1 ≤ fragments.length) (sorter : KeySort packetKey) :
    WholeMessage sum (sorter.sort fragments) := by
  have hperm := sorter.perm fragments
  have hnumbers : (fragments.map packetKey).Perm (List.range (sum.toNat + 1)) := by
    apply (List.subperm_of_subset h.nodup h.numbers_subset).perm_of_length_le
    rwa [List.length_range, List.length_map]
  have hordered : ((sorter.sort fragments).map packetKey).Pairwise (· ≤ ·) :=
    List.pairwise_map.mpr (sorter.ordered fragments)
  refine ⟨?_, ?_⟩
  · exact ((hperm.map packetKey).trans hnumbers).eq_of_pairwise
      (fun _ _ _ _ hab hba => le_antisymm hab hba) hordered List.pairwise_le_range
  · intro canData hmem
    exact h.sum_eq canData (sorter.mem_sort.mp hmem)

/-- A packet that the fragment path queues at this step is the join of a whole
message, the fragments of its list and the one that arrived. -/
def QueuesWhole (ids : ReceiverIds) (sorter : KeySort packetKey) (state : RecvState)
    (frame : CanFrame) : Prop :=
  ∀ canData fragments, KeptFragment ids frame canData → JoinsList state canData fragments →
    CompletesList canData fragments →
    ∃ next packet joined, recvStep ids sorter canDataTotalSize state frame = .ok next ∧
      next.recvList = state.recvList ++ [packet] ∧ joined.Perm (fragments ++ [canData]) ∧
      WholeMessage canData.sum joined ∧ packet.pData = joined.flatMap payload

/-- A fragment that completes a list meets only fragments of its own message
there, and not itself. -/
def CompletesOwn (ids : ReceiverIds) (state : RecvState) (frame : CanFrame) : Prop :=
  ∀ canData fragments, KeptFragment ids frame canData → JoinsList state canData fragments →
    CompletesList canData fragments → PartOfMessage canData.sum (fragments ++ [canData])

/-- A step queues whole messages only if and only if what it completes is of one message. -/
theorem queuesWhole_iff (hreceived : EveryList ReceivedList state) :
    QueuesWhole ids sorter state frame ↔ CompletesOwn ids state frame := by
  constructor
  · intro h canData fragments hkept hjoins hcomplete
    obtain ⟨next, packet, joined, -, -, hperm, hwhole, -⟩ :=
      h canData fragments hkept hjoins hcomplete
    exact hwhole.part hperm
  · intro h canData fragments hkept hjoins hcomplete
    have hpart := h canData fragments hkept hjoins hcomplete
    have hlength : canData.sum.toNat + 1 ≤ (fragments ++ [canData]).length :=
      hcomplete.trans (Nat.mod_le _ _)
    have hmax : (fragments ++ [canData]).length ≤ packetMaxNum := by
      have hsub := (List.subperm_of_subset hpart.nodup hpart.numbers_subset).length_le
      have hbyte := canData.sum.isLt
      rw [List.length_map, List.length_range] at hsub
      exact hsub.trans hbyte
    obtain ⟨packet, hjoin, hdata⟩ := getCanPacketVec_received sorter
      ((hreceived _ _ _ hjoins).append hkept) hmax
    have hstep : recvStep ids sorter canDataTotalSize state frame = _ :=
      recvStep_completes hkept hjoins hcomplete
    rw [hjoin] at hstep
    exact ⟨_, packet, sorter.sort (fragments ++ [canData]), hstep, rfl, sorter.perm _,
      hpart.whole_sort hlength sorter, hdata⟩

/-- A run queues whole messages only if and only if no fragment ever completes
a list that is not of its own message. -/
theorem recvFrames_whole_iff (ids : ReceiverIds) (sorter : KeySort packetKey)
    (frames : List CanFrame) :
    (∀ seen frame rest state, frames = seen ++ frame :: rest →
        recvFrames ids sorter canDataTotalSize emptyState seen = .ok state →
          QueuesWhole ids sorter state frame) ↔
      ∀ seen frame rest state, frames = seen ++ frame :: rest →
        recvFrames ids sorter canDataTotalSize emptyState seen = .ok state →
          CompletesOwn ids state frame := by
  have hreached : ∀ seen state, recvFrames ids sorter canDataTotalSize emptyState seen =
      .ok state → EveryList ReceivedList state := by
    intro seen state hrun
    exact runEvents_invariant (recvStep ids sorter canDataTotalSize)
      (fun _ _ _ hinv hstep => receivedList_recvStep hinv hstep) (everyList_emptyState _) hrun
  constructor
  · intro h seen frame rest state hsplit hrun
    exact (queuesWhole_iff (hreached seen state hrun)).mp (h seen frame rest state hsplit hrun)
  · intro h seen frame rest state hsplit hrun
    exact (queuesWhole_iff (hreached seen state hrun)).mpr (h seen frame rest state hsplit hrun)

/-- Fragment 0 of two that arrives twice completes a packet without fragment 1. -/
theorem not_queuesWhole_duplicate :
    ¬∀ seen frame rest state, [firstFragment 1, firstFragment 1] = seen ++ frame :: rest →
      recvFrames ⟨0x20, 0x30⟩ (insertionKeySort packetKey) canDataTotalSize emptyState seen =
          .ok state →
        QueuesWhole ⟨0x20, 0x30⟩ (insertionKeySort packetKey) state frame := by
  intro h
  obtain ⟨canData, haddr, hsum⟩ : ∃ canData,
      addressedPacket ⟨0x20, 0x30⟩ (firstFragment 1) = some canData ∧ canData.sum = 1 :=
    Option.map_eq_some_iff.mp (by decide)
  have hkept : KeptFragment ⟨0x20, 0x30⟩ (firstFragment 1) canData := by
    refine ⟨haddr, ?_⟩
    rw [hsum]
    decide
  have hopens : recvStep ⟨0x20, 0x30⟩ (insertionKeySort packetKey) canDataTotalSize emptyState
      (firstFragment 1) = _ := recvStep_opens hkept rfl
  have hrun : recvFrames ⟨0x20, 0x30⟩ (insertionKeySort packetKey) canDataTotalSize emptyState
      ([] ++ [firstFragment 1]) = _ := runEvents_concat rfl hopens
  have hjoins : JoinsList (afterFragment emptyState canData.sId
      (Function.update
        (removePacketId (table canData.sId emptyState) (canData.packetId + timeOutId))
        canData.packetId (some [canData])) none) canData [canData] := by
    rw [JoinsList, table_afterFragment, Function.update_self]
  have hcomplete : CompletesList canData [canData] := by
    rw [CompletesList, hsum]
    exact (by decide : 2 ≤ 2 % 256)
  obtain ⟨-, -, joined, -, -, hperm, hwhole, -⟩ :=
    h [firstFragment 1] (firstFragment 1) [] _ rfl hrun canData [canData] hkept hjoins hcomplete
  have hnodup := (hwhole.part hperm).nodup
  simp at hnodup

end RobotOta.CanReassemblyCompletion
