import RobotOta.CanReassembly

/-!
# Isolation of the sources in reassembly

Everything a fragment reads or writes lies in the packet map of its own
source. A run over mixed traffic therefore delivers, for each source, what the
run over that source's frames alone delivers, for well-formed and malformed
frames alike.
-/

namespace RobotOta.CanReassemblySources

open CanFrameCodec DocumentedSort EventRun CanReassembly

/-- The source id in a frame's identifier. -/
def frameSource (frame : CanFrame) : Byte := canId2dataSModule frame.canId

/-- The packets in the queue that carry a given source id, oldest first. -/
def deliveredFrom (source : Byte) (state : RecvState) : List CanPacket :=
  state.recvList.filter fun packet => packet.srcId = source

/-- Every stored fragment lies in the map of its own source. -/
def SourceTagged (state : RecvState) : Prop :=
  ∀ source packets id fragments, state.inCompletePackets source = some packets →
    packets id = some fragments → ∀ canData ∈ fragments, canData.sId = source

/-- Nothing is stored in the empty state. -/
theorem sourceTagged_emptyState : SourceTagged emptyState := by
  intro source packets id fragments h
  cases h

/-- A joined packet carries the source of its fragments. -/
theorem srcId_of_getCanPacketVec {sorter : KeySort packetKey} {size : ℕ}
    {packets : List FlexcanPacket} {packet : CanPacket} {source : Byte}
    (h : getCanPacketVec sorter size packets = .ok packet)
    (hs : ∀ canData ∈ packets, canData.sId = source) : packet.srcId = source := by
  unfold getCanPacketVec at h
  cases hg : gatherData size [] (sorter.sort packets) with
  | error fault =>
    simp only [hg] at h
    cases h
  | ok data =>
    cases hsort : sorter.sort packets with
    | nil =>
      rw [hsort] at hg h
      simp only [hg] at h
      cases h
    | cons first rest =>
      have hfirst : first ∈ packets := by
        rw [← sorter.mem_sort, hsort]
        exact List.mem_cons_self
      rw [hsort] at hg h
      simp only [hg] at h
      cases h
      exact hs first hfirst

/-- A fragment leaves only fragments of its own source in its map, and a
packet it completes carries that source. -/
theorem fragmentOutcome_tagged {sorter : KeySort packetKey} {size : ℕ} {canData : FlexcanPacket}
    {before : Option PacketMap} {packets : PacketMap} {packet : Option CanPacket}
    (h : fragmentOutcome sorter size canData before = .ok (packets, packet))
    (hbefore : ∀ old id fragments, before = some old → old id = some fragments →
      ∀ other ∈ fragments, other.sId = canData.sId) :
    (∀ id fragments, packets id = some fragments →
      ∀ other ∈ fragments, other.sId = canData.sId) ∧
      ∀ joined ∈ packet, joined.srcId = canData.sId := by
  have hsingle : ∀ other ∈ [canData], other.sId = canData.sId := by
    intro other hother
    rw [List.mem_singleton.mp hother]
  cases before with
  | none =>
    cases h
    refine ⟨?_, by simp⟩
    intro id fragments hid
    simp only [Function.update_apply] at hid
    split_ifs at hid
    cases hid
    exact hsingle
  | some old =>
    have hold : ∀ id fragments, old id = some fragments → ∀ other ∈ fragments,
        other.sId = canData.sId := fun id fragments => hbefore old id fragments rfl
    unfold fragmentOutcome at h
    dsimp only at h
    cases hid : old canData.packetId with
    | none =>
      simp only [hid] at h
      cases h
      refine ⟨?_, by simp⟩
      intro id fragments hfr
      simp only [removePacketId, Function.update_apply] at hfr
      split_ifs at hfr
      · cases hfr
        exact hsingle
      · exact hold id fragments hfr
    | some fragments =>
      have happend : ∀ other ∈ fragments ++ [canData], other.sId = canData.sId := by
        intro other hother
        rcases List.mem_append.mp hother with hmem | hmem
        · exact hold _ _ hid other hmem
        · exact hsingle other hmem
      simp only [hid] at h
      split_ifs at h with hdone
      · cases hjoin : getCanPacketVec sorter size (fragments ++ [canData]) with
        | error fault =>
          simp only [hjoin] at h
          cases h
        | ok joined =>
          simp only [hjoin] at h
          cases h
          refine ⟨?_, ?_⟩
          · intro id rest hfr
            simp only [removePacketId, Function.update_apply] at hfr
            split_ifs at hfr
            exact hold id rest hfr
          · intro other hother
            cases hother
            exact srcId_of_getCanPacketVec hjoin happend
      · cases h
        refine ⟨?_, by simp⟩
        intro id rest hfr
        simp only [Function.update_apply] at hfr
        split_ifs at hfr
        · cases hfr
          exact happend
        · exact hold id rest hfr

/-- Two receive states look the same to one source: the first stores its
fragments in order of sources, both hold the same map for the source, and both
queues hold the same packets of the source. -/
structure AgreeOn (source : Byte) (left right : RecvState) : Prop where
  tagged : SourceTagged left
  packets : left.inCompletePackets source = right.inCompletePackets source
  delivered : deliveredFrom source left = deliveredFrom source right

/-- A fragment's outcome keeps the tagging of the whole state. -/
theorem sourceTagged_afterFragment {state : RecvState} (h : SourceTagged state) {source : Byte}
    {packets : PacketMap} (packet : Option CanPacket)
    (hp : ∀ id fragments, packets id = some fragments → ∀ other ∈ fragments, other.sId = source) :
    SourceTagged (afterFragment state source packets packet) := by
  intro other map id fragments hmap hid
  simp only [afterFragment, Function.update_apply] at hmap
  split_ifs at hmap with heq
  · cases hmap
    rw [heq]
    exact hp id fragments hid
  · exact h other map id fragments hmap hid

/-- Queued packets of another source do not show. -/
theorem deliveredFrom_append {state : RecvState} {source : Byte} {packets : List CanPacket}
    (h : ∀ packet ∈ packets, packet.srcId ≠ source) :
    (state.recvList ++ packets).filter (fun packet => decide (packet.srcId = source)) =
      deliveredFrom source state := by
  have hnil : packets.filter (fun packet => decide (packet.srcId = source)) = [] := by
    apply List.filter_eq_nil_iff.mpr
    intro packet hpacket
    simpa using h packet hpacket
  rw [List.filter_append, hnil, List.append_nil, deliveredFrom]

/-- A frame of another source changes nothing the observed source can see. -/
theorem recvStep_other {ids : ReceiverIds} {sorter : KeySort packetKey} {size : ℕ} {source : Byte}
    {frame : CanFrame} {left right next : RecvState} (hother : frameSource frame ≠ source)
    (h : AgreeOn source left right) (hstep : recvStep ids sorter size left frame = .ok next) :
    AgreeOn source next right := by
  rw [recvStep_eq] at hstep
  cases haddr : addressedPacket ids frame with
  | none =>
    simp only [haddr] at hstep
    cases hstep
    exact h
  | some canData =>
    have hsid : canData.sId ≠ source := by rw [sId_of_addressedPacket haddr]; exact hother
    simp only [haddr] at hstep
    split_ifs at hstep with hz
    · cases hstep
      refine ⟨h.tagged, h.packets, ?_⟩
      rw [← h.delivered]
      exact deliveredFrom_append (by simpa [getCanPacket] using hsid)
    · cases hout : fragmentOutcome sorter size canData (left.inCompletePackets canData.sId) with
      | error fault =>
        simp only [hout] at hstep
        cases hstep
      | ok outcome =>
        obtain ⟨packets, packet⟩ := outcome
        simp only [hout] at hstep
        cases hstep
        obtain ⟨htag, hsrc⟩ := fragmentOutcome_tagged hout
          (fun old id fragments => h.tagged canData.sId old id fragments)
        refine ⟨sourceTagged_afterFragment h.tagged packet htag, ?_, ?_⟩
        · rw [← h.packets]
          exact Function.update_of_ne (Ne.symm hsid) _ _
        · rw [← h.delivered]
          apply deliveredFrom_append
          intro joined hjoined
          rw [hsrc joined (by simpa using hjoined)]
          exact hsid

/-- A frame of the observed source has the same effect on both states. -/
theorem recvStep_observed {ids : ReceiverIds} {sorter : KeySort packetKey} {size : ℕ}
    {source : Byte} {frame : CanFrame} {left right next : RecvState}
    (hsource : frameSource frame = source) (h : AgreeOn source left right)
    (hstep : recvStep ids sorter size left frame = .ok next) :
    ∃ next', recvStep ids sorter size right frame = .ok next' ∧ AgreeOn source next next' := by
  rw [recvStep_eq] at hstep ⊢
  cases haddr : addressedPacket ids frame with
  | none =>
    simp only [haddr] at hstep
    cases hstep
    exact ⟨right, rfl, h⟩
  | some canData =>
    have hsid : canData.sId = source := by rw [sId_of_addressedPacket haddr]; exact hsource
    simp only [haddr] at hstep ⊢
    split_ifs at hstep ⊢ with hz
    · cases hstep
      refine ⟨_, rfl, h.tagged, h.packets, ?_⟩
      have hd := h.delivered
      simp only [deliveredFrom, pushToRecvList, List.filter_append] at hd ⊢
      rw [hd]
    · rw [hsid, ← h.packets]
      rw [hsid] at hstep
      cases hout : fragmentOutcome sorter size canData (left.inCompletePackets source) with
      | error fault =>
        simp only [hout] at hstep
        cases hstep
      | ok outcome =>
        obtain ⟨packets, packet⟩ := outcome
        simp only [hout] at hstep
        cases hstep
        obtain ⟨htag, -⟩ := fragmentOutcome_tagged hout (fun old id fragments hold hid => by
          rw [hsid]
          exact h.tagged source old id fragments hold hid)
        rw [hsid] at htag
        refine ⟨_, rfl, sourceTagged_afterFragment h.tagged packet htag, ?_, ?_⟩
        · simp only [afterFragment, Function.update_self]
        · have hd := h.delivered
          simp only [deliveredFrom, afterFragment, List.filter_append] at hd ⊢
          rw [hd]

/-- A faultless run over mixed traffic agrees, for one source, with the run
over that source's frames alone. -/
theorem recvFrames_filter {ids : ReceiverIds} {sorter : KeySort packetKey} {size : ℕ}
    {frames : List CanFrame} {final : RecvState}
    (hrun : recvFrames ids sorter size emptyState frames = .ok final) (source : Byte) :
    ∃ alone, recvFrames ids sorter size emptyState
        (frames.filter fun frame => frameSource frame = source) = .ok alone ∧
      AgreeOn source final alone :=
  runEvents_filter_simulation (recvStep ids sorter size)
    (fun frame => decide (frameSource frame = source)) (AgreeOn source)
    (fun _ _ _ _ ho hR hs => recvStep_other (by simpa using ho) hR hs)
    (fun _ _ _ _ ho hR hs => recvStep_observed (by simpa using ho) hR hs)
    ⟨sourceTagged_emptyState, rfl, rfl⟩ hrun

/-- Sources do not disturb each other: two runs whose frames of one source are
the same, in the same order, queue the same packets of that source, whatever
the other frames are and however they are interleaved, as long as the buffer is
large enough for both. -/
theorem sources_isolated {ids : ReceiverIds} {sorter : KeySort packetKey} {size : ℕ}
    {framesA framesB : List CanFrame} {finalA finalB : RecvState} (source : Byte)
    (hsame : (framesA.filter fun frame => frameSource frame = source) =
      framesB.filter fun frame => frameSource frame = source)
    (hA : recvFrames ids sorter size emptyState framesA = .ok finalA)
    (hB : recvFrames ids sorter size emptyState framesB = .ok finalB) :
    deliveredFrom source finalA = deliveredFrom source finalB := by
  obtain ⟨aloneA, hrunA, hagreeA⟩ := recvFrames_filter hA source
  obtain ⟨aloneB, hrunB, hagreeB⟩ := recvFrames_filter hB source
  rw [hsame, hrunB] at hrunA
  cases hrunA
  rw [hagreeA.delivered, hagreeB.delivered]

/-- A complete two-byte packet from module 0x41. -/
def pingFrame : CanFrame := ⟨0x8D0C0011, 2, [0x20, 2, 0, 0, 0, 0, 0, 0], by decide, rfl⟩

/-- Module 0x41 sees the same queue whether or not a fragment of module 0x52
arrives in front of its packet. -/
theorem sources_isolated_pingFrame :
    deliveredFrom 0x41
        ⟨Function.update (fun _ => none) 0x52
          (some (Function.update (fun _ => none) 7 (some [sampleFragment]))),
          [⟨3, 0x41, 0x31, [0x20, 2]⟩]⟩ =
      deliveredFrom 0x41 ⟨fun _ => none, [⟨3, 0x41, 0x31, [0x20, 2]⟩]⟩ := by
  have hA : recvFrames ⟨0x31, 0x32⟩ (insertionKeySort packetKey) canDataTotalSize emptyState
      [sampleFrame, pingFrame] = .ok
        ⟨Function.update (fun _ => none) 0x52
          (some (Function.update (fun _ => none) 7 (some [sampleFragment]))),
          [⟨3, 0x41, 0x31, [0x20, 2]⟩]⟩ := rfl
  have hB : recvFrames ⟨0x31, 0x32⟩ (insertionKeySort packetKey) canDataTotalSize emptyState
      [pingFrame] = .ok ⟨fun _ => none, [⟨3, 0x41, 0x31, [0x20, 2]⟩]⟩ := rfl
  exact sources_isolated 0x41 (by decide) hA hB

end RobotOta.CanReassemblySources
