import RobotOta.CanReassemblyWindow

/-!
# The reassembly buffer under any traffic

A fragment list has room for 256 entries, and the join for as many fragments.
A list is emptied by a test on its size cut to eight bits, so at 256 entries it
looks empty: only a fragment count of 256 fills a list that far, and the next
fragment of the same id outgrows it.
-/

namespace RobotOta.CanReassemblyBuffer

open CanFrameCodec CanReassembly CanReassemblyWindow DocumentedSort EventRun

variable {ids : ReceiverIds} {sorter : KeySort packetKey} {size : ℕ} {state next : RecvState}
  {frame : CanFrame} {canData : FlexcanPacket} {fragments : List FlexcanPacket}

/-- The frame is a fragment the receiver keeps. -/
def KeptFragment (ids : ReceiverIds) (frame : CanFrame) (canData : FlexcanPacket) : Prop :=
  addressedPacket ids frame = some canData ∧ canData.sum ≠ 0

/-- The list the fragment joins. -/
def JoinsList (state : RecvState) (canData : FlexcanPacket) (fragments : List FlexcanPacket) :
    Prop :=
  table canData.sId state canData.packetId = some fragments

/-- The completion test of `recvFromCan` on a list and the fragment that joins it. -/
def CompletesList (canData : FlexcanPacket) (fragments : List FlexcanPacket) : Prop :=
  canData.sum.toNat + 1 ≤ (fragments ++ [canData]).length % 256

instance : Decidable (CompletesList canData fragments) := Nat.decLe _ _

/-- A frame that is no fragment changes no list. -/
theorem table_recvStep_of_not_kept (hkept : ∀ canData, ¬KeptFragment ids frame canData)
    (hstep : recvStep ids sorter size state frame = .ok next) (source : Byte) :
    table source next = table source state := by
  rw [recvStep_eq] at hstep
  cases haddr : addressedPacket ids frame with
  | none =>
    rw [haddr] at hstep
    cases hstep
    rfl
  | some canData =>
    have hsum : canData.sum = 0 := by
      by_contra hne
      exact hkept canData ⟨haddr, hne⟩
    rw [haddr] at hstep
    dsimp only at hstep
    rw [if_pos hsum] at hstep
    cases hstep
    rfl

/-- A fragment acts on the lists of its source only. -/
theorem recvStep_kept (hkept : KeptFragment ids frame canData) :
    recvStep ids sorter size state frame =
      match fragmentOutcome sorter size canData (some (table canData.sId state)) with
      | .error fault => .error fault
      | .ok (packets, packet) => .ok (afterFragment state canData.sId packets packet) := by
  rw [recvStep_eq, hkept.1]
  dsimp only
  rw [if_neg hkept.2, fragmentOutcome_getD]
  rfl

/-- A fragment whose id has no list opens one. -/
theorem recvStep_opens (hkept : KeptFragment ids frame canData)
    (hlist : table canData.sId state canData.packetId = none) :
    recvStep ids sorter size state frame =
      .ok (afterFragment state canData.sId
        (Function.update
          (removePacketId (table canData.sId state) (canData.packetId + timeOutId))
          canData.packetId (some [canData])) none) := by
  rw [recvStep_kept hkept]
  simp only [fragmentOutcome, hlist]

/-- A fragment that does not complete its list is appended to it. -/
theorem recvStep_appends (hkept : KeptFragment ids frame canData)
    (hjoins : JoinsList state canData fragments) (hopen : ¬CompletesList canData fragments) :
    recvStep ids sorter size state frame =
      .ok (afterFragment state canData.sId
        (Function.update (table canData.sId state) canData.packetId
          (some (fragments ++ [canData]))) none) := by
  rw [CompletesList] at hopen
  rw [JoinsList] at hjoins
  rw [recvStep_kept hkept]
  simp only [fragmentOutcome, hjoins, if_neg hopen]

/-- A fragment that completes its list takes it out and queues the join. -/
theorem recvStep_completes (hkept : KeptFragment ids frame canData)
    (hjoins : JoinsList state canData fragments) (hcomplete : CompletesList canData fragments) :
    recvStep ids sorter size state frame =
      match getCanPacketVec sorter size (fragments ++ [canData]) with
      | .error fault => .error fault
      | .ok packet =>
        .ok (afterFragment state canData.sId
          (removePacketId (table canData.sId state) canData.packetId) (some packet)) := by
  rw [CompletesList] at hcomplete
  rw [JoinsList] at hjoins
  rw [recvStep_kept hkept]
  simp only [fragmentOutcome, hjoins, if_pos hcomplete]
  cases getCanPacketVec sorter size (fragments ++ [canData]) with
  | error fault => rfl
  | ok packet => rfl

/-- Every stored fragment list has the property. -/
def EveryList (P : List FlexcanPacket → Prop) (state : RecvState) : Prop :=
  ∀ source id fragments, table source state id = some fragments → P fragments

/-- There is no list at the start. -/
theorem everyList_emptyState (P : List FlexcanPacket → Prop) : EveryList P emptyState := by
  intro source id fragments h
  cases h

/-- Lists of other sources stay; the property is left to show of the new map. -/
theorem EveryList.afterFragment {P : List FlexcanPacket → Prop} (h : EveryList P state)
    {source : Byte} {packets : PacketMap} {packet : Option CanPacket}
    (hpackets : ∀ id fragments, packets id = some fragments → P fragments) :
    EveryList P (afterFragment state source packets packet) := by
  intro other id fragments hlist
  by_cases hother : other = source
  · subst hother
    rw [table_afterFragment] at hlist
    exact hpackets id fragments hlist
  · have hsame : table other (CanReassembly.afterFragment state source packets packet) =
        table other state := by
      simp only [table, CanReassembly.afterFragment, Function.update_of_ne hother]
    rw [hsame] at hlist
    exact h other id fragments hlist

/-- A property of lists that a single fragment has and that a fragment that
completes nothing adds to is kept by every step. -/
theorem EveryList.recvStep {P : List FlexcanPacket → Prop} (h : EveryList P state)
    (hsingle : ∀ canData, KeptFragment ids frame canData → P [canData])
    (happend : ∀ canData fragments, KeptFragment ids frame canData →
      JoinsList state canData fragments → ¬CompletesList canData fragments → P fragments →
        P (fragments ++ [canData]))
    (hstep : recvStep ids sorter size state frame = .ok next) : EveryList P next := by
  by_cases hkept : ∃ canData, KeptFragment ids frame canData
  · obtain ⟨canData, hkept⟩ := hkept
    have hold : ∀ removed id fragments,
        removePacketId (table canData.sId state) removed id = some fragments →
          P fragments := by
      intro removed id fragments hlist
      by_cases hid : id = removed
      · rw [removePacketId, hid, Function.update_self] at hlist
        cases hlist
      · rw [removePacketId, Function.update_of_ne hid] at hlist
        exact h _ _ _ hlist
    cases hlist : table canData.sId state canData.packetId with
    | none =>
      rw [recvStep_opens hkept hlist] at hstep
      cases hstep
      apply h.afterFragment
      intro id fragments hnew
      by_cases hid : id = canData.packetId
      · rw [hid, Function.update_self] at hnew
        cases hnew
        exact hsingle canData hkept
      · rw [Function.update_of_ne hid] at hnew
        exact hold _ _ _ hnew
    | some fragments =>
      by_cases hcomplete : CompletesList canData fragments
      · rw [recvStep_completes hkept hlist hcomplete] at hstep
        cases hjoin : getCanPacketVec sorter size (fragments ++ [canData]) with
        | error fault =>
          rw [hjoin] at hstep
          cases hstep
        | ok packet =>
          rw [hjoin] at hstep
          cases hstep
          exact h.afterFragment (hold _)
      · rw [recvStep_appends hkept hlist hcomplete] at hstep
        cases hstep
        apply h.afterFragment
        intro id others hnew
        by_cases hid : id = canData.packetId
        · rw [hid, Function.update_self] at hnew
          cases hnew
          exact happend canData fragments hkept hlist hcomplete (h _ _ _ hlist)
        · rw [Function.update_of_ne hid] at hnew
          exact h _ _ _ hnew
  · intro source
    rw [table_recvStep_of_not_kept (fun canData hk => hkept ⟨canData, hk⟩) hstep]
    exact h source

/-- A received fragment has at most six bytes. -/
theorem KeptFragment.len_le (h : KeptFragment ids frame canData) :
    canData.len ≤ canSubPacketSize := by
  have hrecv : flexcanRecv frame zeroPacket = some canData := (Option.filter_eq_some_iff.mp h.1).1
  have hsum := h.2
  have hdlc := frame.dlc_le
  have hmax : canDataMaxLen = 8 := rfl
  have hsub : canSubPacketSize = 6 := rfl
  unfold flexcanRecv at hrecv
  dsimp only at hrecv
  split_ifs at hrecv with _ _ hzero
  · cases hrecv
    exact absurd hzero hsum
  · cases hrecv
    have hoff : canSubPacketOffset = 2 := rfl
    dsimp only
    omega

/-- A list whose fragments came off the bus. -/
structure ReceivedList (fragments : List FlexcanPacket) : Prop where
  nonempty : fragments ≠ []
  len_le : ∀ canData ∈ fragments, canData.len ≤ canSubPacketSize

/-- A fragment off the bus may join a list of such. -/
theorem ReceivedList.append (h : ReceivedList fragments) (hkept : KeptFragment ids frame canData) :
    ReceivedList (fragments ++ [canData]) := by
  refine ⟨by simp, ?_⟩
  intro other hother
  rcases List.mem_append.mp hother with hold | hnew
  · exact h.len_le other hold
  · rw [List.mem_singleton.mp hnew]
    exact hkept.len_le

/-- Every step stores fragments off the bus only. -/
theorem receivedList_recvStep (h : EveryList ReceivedList state)
    (hstep : recvStep ids sorter size state frame = .ok next) : EveryList ReceivedList next := by
  refine h.recvStep ?_ ?_ hstep
  · intro canData hkept
    refine ⟨by simp, ?_⟩
    intro other hother
    rw [List.mem_singleton.mp hother]
    exact hkept.len_le
  · intro canData fragments hkept _ _ hfragments
    exact hfragments.append hkept

/-- The bytes of some fragments. -/
theorem length_flatMap_le (h : ∀ canData ∈ fragments, canData.len ≤ canSubPacketSize) :
    (fragments.flatMap payload).length ≤ canSubPacketSize * fragments.length := by
  induction fragments with
  | nil => simp
  | cons canData fragments ih =>
    have hfirst := h canData List.mem_cons_self
    have hrest := ih fun other hother => h other (List.mem_cons_of_mem _ hother)
    have htake : (payload canData).length ≤ canData.len := List.length_take_le _ _
    rw [List.flatMap_cons, List.length_append, List.length_cons, Nat.mul_succ]
    omega

/-- Up to 256 fragments off the bus fit the buffer, and are joined in the order
of their numbers. -/
theorem getCanPacketVec_received (sorter : KeySort packetKey) (h : ReceivedList fragments)
    (hlength : fragments.length ≤ packetMaxNum) :
    ∃ packet, getCanPacketVec sorter canDataTotalSize fragments = .ok packet ∧
      packet.pData = (sorter.sort fragments).flatMap payload := by
  have hperm := sorter.perm fragments
  have hlen : ∀ canData ∈ sorter.sort fragments, canData.len ≤ canSubPacketSize :=
    fun canData hmem => h.len_le canData (sorter.mem_sort.mp hmem)
  have hfit : ([] ++ (sorter.sort fragments).flatMap payload).length ≤ canDataTotalSize := by
    have hbytes := length_flatMap_le hlen
    rw [hperm.length_eq] at hbytes
    exact hbytes.trans (Nat.mul_le_mul_left _ hlength)
  have hgather := gatherData_eq
    (fun canData hmem => (hlen canData hmem).trans (by decide)) [] hfit
  cases hsorted : sorter.sort fragments with
  | nil =>
    rw [hsorted] at hperm
    exact absurd hperm.symm.eq_nil h.nonempty
  | cons first rest =>
    rw [hsorted] at hgather
    refine ⟨⟨first.priority, first.sId, first.dId, _⟩, ?_, rfl⟩
    rw [getCanPacketVec, hsorted, hgather]
    rfl

/-- No list is longer than the buffer has room for. -/
def Bounded (state : RecvState) : Prop :=
  EveryList (fun fragments => fragments.length ≤ packetMaxNum) state

/-- The frame is no fragment for a list that is full. -/
def HasRoom (ids : ReceiverIds) (state : RecvState) (frame : CanFrame) : Prop :=
  ∀ canData fragments, KeptFragment ids frame canData → JoinsList state canData fragments →
    fragments.length ≠ packetMaxNum

/-- A full list looks empty to the completion test. -/
theorem not_completesList_full (hsum : canData.sum ≠ 0)
    (hfull : fragments.length = packetMaxNum) : ¬CompletesList canData fragments := by
  have hpos : canData.sum.toNat ≠ 0 := fun hz => hsum (BitVec.eq_of_toNat_eq hz)
  have hmax : packetMaxNum = 256 := rfl
  rw [CompletesList, List.length_append, List.length_singleton, hfull, hmax]
  omega

/-- A step over bounded lists stays in the buffer and keeps them bounded if and
only if it meets no full list. -/
theorem recvStep_bounded_iff (hreceived : EveryList ReceivedList state) (hbounded : Bounded state) :
    (∃ next, recvStep ids sorter canDataTotalSize state frame = .ok next ∧ Bounded next) ↔
      HasRoom ids state frame := by
  constructor
  · rintro ⟨next, hstep, hnext⟩ canData fragments hkept hjoins hfull
    rw [recvStep_appends hkept hjoins (not_completesList_full hkept.2 hfull)] at hstep
    cases hstep
    have hlong : (fragments ++ [canData]).length ≤ packetMaxNum :=
      hnext canData.sId canData.packetId (fragments ++ [canData]) (by
        rw [table_afterFragment, Function.update_self])
    rw [List.length_append, List.length_singleton, hfull] at hlong
    omega
  · intro hroom
    have hsucc : ∀ canData fragments, KeptFragment ids frame canData →
        JoinsList state canData fragments →
          (fragments ++ [canData]).length ≤ packetMaxNum := by
      intro canData fragments hkept hjoins
      have hle := hbounded _ _ _ hjoins
      have hne := hroom canData fragments hkept hjoins
      dsimp only at hle
      rw [List.length_append, List.length_singleton]
      omega
    have hok : ∃ next, recvStep ids sorter canDataTotalSize state frame = .ok next := by
      cases haddr : addressedPacket ids frame with
      | none =>
        rw [recvStep_eq, haddr]
        exact ⟨_, rfl⟩
      | some canData =>
        by_cases hsum : canData.sum = 0
        · rw [recvStep_eq, haddr]
          dsimp only
          rw [if_pos hsum]
          exact ⟨_, rfl⟩
        have hkept : KeptFragment ids frame canData := ⟨haddr, hsum⟩
        cases hlist : table canData.sId state canData.packetId with
        | none => exact ⟨_, recvStep_opens hkept hlist⟩
        | some fragments =>
          by_cases hcomplete : CompletesList canData fragments
          · obtain ⟨packet, hjoin, -⟩ := getCanPacketVec_received sorter
              ((hreceived _ _ _ hlist).append hkept) (hsucc canData fragments hkept hlist)
            rw [recvStep_completes hkept hlist hcomplete, hjoin]
            exact ⟨_, rfl⟩
          · exact ⟨_, recvStep_appends hkept hlist hcomplete⟩
    obtain ⟨next, hstep⟩ := hok
    refine ⟨next, hstep, hbounded.recvStep ?_ ?_ hstep⟩
    · intro canData _
      exact (by decide : 1 ≤ packetMaxNum)
    · intro canData fragments hkept hjoins _ _
      exact hsucc canData fragments hkept hjoins

/-- A run stays in its buffers, with every list bounded at all times, if and
only if no fragment ever arrives for a full list. -/
theorem recvFrames_bounded_iff (ids : ReceiverIds) (sorter : KeySort packetKey)
    (frames : List CanFrame) :
    (∀ seen rest, frames = seen ++ rest →
        ∃ state, recvFrames ids sorter canDataTotalSize emptyState seen = .ok state ∧
          Bounded state) ↔
      ∀ seen frame rest state, frames = seen ++ frame :: rest →
        recvFrames ids sorter canDataTotalSize emptyState seen = .ok state →
          HasRoom ids state frame :=
  runEvents_good_iff (recvStep ids sorter canDataTotalSize) (EveryList ReceivedList) Bounded
    (HasRoom ids) (fun _ _ _ hinv hstep => receivedList_recvStep hinv hstep)
    (fun _ _ hinv hbounded => recvStep_bounded_iff hinv hbounded)
    (everyList_emptyState _) (everyList_emptyState _) frames

/-- A fragment count below 256 leaves a list short of full when it does not
complete it. -/
theorem length_append_of_sum_lt (hsum : canData.sum.toNat < 255)
    (hlength : fragments.length < 255) (hopen : ¬CompletesList canData fragments) :
    (fragments ++ [canData]).length < 255 := by
  rw [CompletesList] at hopen
  rw [List.length_append, List.length_singleton] at hopen ⊢
  omega

/-- Traffic without messages of 256 fragments stays in the buffers. -/
theorem recvFrames_bounded_of_sum (ids : ReceiverIds) (sorter : KeySort packetKey)
    {frames : List CanFrame}
    (hsum : ∀ frame ∈ frames, ∀ canData, KeptFragment ids frame canData →
      canData.sum.toNat < 255) :
    ∃ state, recvFrames ids sorter canDataTotalSize emptyState frames = .ok state ∧
      Bounded state := by
  have hshort : ∀ {state : RecvState},
      EveryList (fun fragments => fragments.length < 255) state → Bounded state := by
    intro state h source id fragments hlist
    have hlt : fragments.length < 255 := h source id fragments hlist
    exact hlt.le.trans (by decide)
  obtain ⟨state, hrun, -, hstate⟩ := runEvents_prefix_invariant
    (recvStep ids sorter canDataTotalSize)
    (fun _ state => EveryList ReceivedList state ∧
      EveryList (fun fragments => fragments.length < 255) state)
    ⟨everyList_emptyState _, everyList_emptyState _⟩ (by
      rintro seen frame rest state hsplit ⟨hreceived, hlists⟩
      have hmem : frame ∈ frames := by
        rw [hsplit]
        exact List.mem_append_right _ List.mem_cons_self
      have hroom : HasRoom ids state frame := by
        intro canData fragments _ hjoins hfull
        have hlt : fragments.length < 255 := hlists _ _ _ hjoins
        rw [hfull] at hlt
        exact absurd hlt (by decide)
      obtain ⟨next, hstep, -⟩ := (recvStep_bounded_iff hreceived (hshort hlists)).mpr hroom
      refine ⟨next, hstep, receivedList_recvStep hreceived hstep, hlists.recvStep ?_ ?_ hstep⟩
      · intro canData _
        exact (by decide : 1 < 255)
      · intro canData fragments hkept _ hopen hlt
        exact length_append_of_sum_lt (hsum frame hmem canData hkept) hlt hopen)
    (List.append_nil frames).symm
  exact ⟨state, hrun, hshort hstate⟩

/-- A message of 256 fragments is never complete: its list grows with every
fragment that arrives. -/
theorem recvFrames_repeated (sorter : KeySort packetKey) (size : ℕ)
    (hkept : KeptFragment ids frame canData) (hsum : canData.sum = 255) (n : ℕ) :
    ∃ state, recvFrames ids sorter size emptyState (List.replicate (n + 1) frame) = .ok state ∧
      table canData.sId state canData.packetId = some (List.replicate (n + 1) canData) := by
  induction n with
  | zero =>
    have hopens : recvStep ids sorter size emptyState frame = _ := recvStep_opens hkept rfl
    have hrun : recvFrames ids sorter size emptyState ([] ++ [frame]) = _ :=
      runEvents_concat rfl hopens
    refine ⟨_, hrun, ?_⟩
    rw [table_afterFragment, Function.update_self]
    rfl
  | succ n ih =>
    obtain ⟨state, hrun, hlist⟩ := ih
    have hopen : ¬CompletesList canData (List.replicate (n + 1) canData) := by
      have hlast : BitVec.toNat (255 : Byte) = 255 := rfl
      rw [CompletesList, hsum, hlast]
      omega
    have happends : recvStep ids sorter size state frame = _ :=
      recvStep_appends hkept hlist hopen
    have hnext := runEvents_concat hrun happends
    rw [← List.replicate_succ'] at hnext
    refine ⟨_, hnext, ?_⟩
    rw [table_afterFragment, Function.update_self, ← List.replicate_succ']

/-- Fragment 0 of a message with the given count, from module 0x10 to module
0x20, with one byte of data. -/
def firstFragment (sum : Byte) : CanFrame where
  canId := extendedId (moduleId { zeroPacket with sId := 0x10, dId := 0x20 } ||| canData2idSum sum)
  canDlc := 3
  data := [0, 0, 1, 0, 0, 0, 0, 0]
  dlc_le := by decide
  data_length := rfl

/-- A fragment that is sent 257 times leaves more than 256 entries. -/
theorem not_bounded_repeated :
    ¬∀ seen rest, List.replicate 257 (firstFragment 255) = seen ++ rest →
      ∃ state, recvFrames ⟨0x20, 0x30⟩ (insertionKeySort packetKey) canDataTotalSize emptyState
          seen = .ok state ∧ Bounded state := by
  intro h
  obtain ⟨canData, haddr, hsum⟩ : ∃ canData,
      addressedPacket ⟨0x20, 0x30⟩ (firstFragment 255) = some canData ∧ canData.sum = 255 :=
    Option.map_eq_some_iff.mp (by decide)
  have hkept : KeptFragment ⟨0x20, 0x30⟩ (firstFragment 255) canData := by
    refine ⟨haddr, ?_⟩
    rw [hsum]
    decide
  obtain ⟨state, hrun, hlist⟩ :=
    recvFrames_repeated (insertionKeySort packetKey) canDataTotalSize hkept hsum 256
  obtain ⟨other, hother, hbounded⟩ := h _ [] (List.append_nil _).symm
  rw [hrun] at hother
  cases hother
  have hlong : (List.replicate 257 canData).length ≤ packetMaxNum := hbounded _ _ _ hlist
  rw [List.length_replicate] at hlong
  exact absurd hlong (by decide)

end RobotOta.CanReassemblyBuffer
