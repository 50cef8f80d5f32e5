import RobotOta.CanFragmentation
import RobotOta.FragmentWindow

/-!
# Reassembly over a lossy, reordering bus

The 256 packet ids wrap, so a table entry may outlive its message. The entry
of a message is dropped when the message 129 numbers younger begins, which is
late enough for a fragment window of 127 messages and early enough for the id
to be free when it is used again. The invariant is that the table holds
exactly the fragments of the live messages.
-/

namespace RobotOta.CanReassemblyWindow

open ByteBuffer CanFrameCodec CanReassembly CanFragmentation DocumentedSort EventRun FragmentWindow

/-- A message of `source` that is sent in fragments to one of the receiver's
two modules. -/
structure Message (ids : ReceiverIds) (source : Byte) where
  /-- The message itself. -/
  packet : CanPacket
  /-- It comes from this source. -/
  srcId_eq : packet.srcId = source
  /-- It goes to a module of the receiver. -/
  addressed : packet.dstId = ids.rmSysctrlId ∨ packet.dstId = ids.rmUpgradeId
  /-- It takes more than one frame. -/
  long : LongLength packet.pData.length
  /-- The identifier has three bits for it. -/
  priority_le : packet.priority ≤ 7

variable {ids : ReceiverIds} {source : Byte}

/-- The packet id of message `k`. -/
def messageId (k : ℕ) : Byte := BitVec.ofNat 8 k

/-- The number of frames of message `k`. -/
def frameCount (messages : ℕ → Message ids source) (k : ℕ) : ℕ :=
  (messageFrames (messages k).packet (messageId k)).length

/-- The frame of an arrival: fragment `f.2` of message `f.1`. -/
def arrivalFrame (messages : ℕ → Message ids source) (f : ℕ × ℕ) : Option CanFrame :=
  (messageFrames (messages f.1).packet (messageId f.1))[f.2]?

/-- The frames that arrive, in order. -/
def arrivalFrames (messages : ℕ → Message ids source) (arrivals : List (ℕ × ℕ)) : List CanFrame :=
  arrivals.filterMap (arrivalFrame messages)

/-- The window of message numbers in flight. -/
def flightWindow : ℕ := 127

/-- How much younger the message is whose beginning drops an entry. -/
def evictionGap : ℕ := 129

/-- Copying within the buffer joins the payloads. -/
theorem gatherData_eq {size : ℕ} {packets : List FlexcanPacket}
    (hlen : ∀ canData ∈ packets, canData.len ≤ canDataMaxLen) (gathered : List Byte)
    (hfit : (gathered ++ packets.flatMap fun canData => canData.data.take canData.len).length ≤
      size) :
    gatherData size gathered packets =
      .ok (gathered ++ packets.flatMap fun canData => canData.data.take canData.len) := by
  induction packets generalizing gathered with
  | nil => simp [gatherData]
  | cons canData packets ih =>
    have htake : (canData.data.take canData.len).length = canData.len := by
      rw [List.length_take, canData.data_length]
      exact Nat.min_eq_left (hlen canData List.mem_cons_self)
    rw [List.flatMap_cons, ← List.append_assoc] at hfit ⊢
    have hle : gathered.length + canData.len ≤ size := by
      rw [List.length_append, List.length_append, htake] at hfit
      omega
    rw [gatherData, if_pos hle]
    exact ih (fun other hother => hlen other (List.mem_cons_of_mem _ hother)) _ hfit

/-- Whatever order its fragments arrived in, a long message is joined to the
packet it was split from. -/
theorem getCanPacketVec_fragments (sorter : KeySort packetKey) {packet : CanPacket}
    (hlong : LongLength packet.pData.length) (packetId : Byte) {order : List ℕ}
    (horder : order.Perm (List.range (pieceCount packet.pData.length))) :
    getCanPacketVec sorter canDataTotalSize (order.map (fragment packet packetId)) =
      .ok packet := by
  obtain ⟨hlo, hhi⟩ := pieceCount_bounds hlong
  have hsort : sorter.sort (order.map (fragment packet packetId)) =
      (List.range (pieceCount packet.pData.length)).map (fragment packet packetId) := by
    apply sorter.sort_eq_of_strict (horder.symm.map _)
    rw [List.pairwise_map]
    refine List.pairwise_lt_range.imp_of_mem ?_
    intro i j hi hj hij
    rw [List.mem_range] at hi hj
    simp only [packetKey, fragment, BitVec.toNat_ofNat]
    omega
  have hbytes : ((List.range (pieceCount packet.pData.length)).map
      (fragment packet packetId)).flatMap (fun canData => canData.data.take canData.len) =
      packet.pData := by
    have hpiece : ∀ i, (fragment packet packetId i).data.take (fragment packet packetId i).len =
        piece packet.pData i := fun i => take_memcpy_zero _ _
    rw [List.flatMap_map]
    simp only [hpiece]
    rw [flatMap_piece]
    apply List.take_of_length_le
    rw [pieceCount, canSubPacketSize_eq]
    omega
  have hgather : gatherData canDataTotalSize []
      ((List.range (pieceCount packet.pData.length)).map (fragment packet packetId)) =
      .ok packet.pData := by
    rw [gatherData_eq, hbytes, List.nil_append]
    · intro canData hmem
      obtain ⟨i, -, rfl⟩ := List.mem_map.mp hmem
      exact (length_piece_le _ _).trans (by decide)
    · rw [hbytes, List.nil_append]
      have htotal : canDataTotalSize = 1536 := rfl
      have := hlong.2
      omega
  obtain ⟨n, hn⟩ : ∃ n, pieceCount packet.pData.length = n + 1 :=
    ⟨_, (Nat.sub_add_cancel (by omega)).symm⟩
  rw [getCanPacketVec, hsort, hgather, hn, List.range_succ_eq_map]
  rfl

/-- Without a map for the source a fragment acts as on an empty map. -/
theorem fragmentOutcome_getD (sorter : KeySort packetKey) (size : ℕ) (canData : FlexcanPacket)
    (before : Option PacketMap) :
    fragmentOutcome sorter size canData before =
      fragmentOutcome sorter size canData (some (before.getD fun _ => none)) := by
  cases before with
  | some packets => rfl
  | none =>
    have hempty : removePacketId (fun _ => none) (canData.packetId + timeOutId) =
        fun _ => none := Function.update_eq_self _ _
    simp only [fragmentOutcome, Option.getD_none, hempty]

/-- Packet ids agree exactly when message numbers do modulo 256. -/
theorem messageId_eq_iff {j k : ℕ} : messageId j = messageId k ↔ j % 256 = k % 256 := by
  rw [messageId, messageId, ← BitVec.toNat_inj, BitVec.toNat_ofNat, BitVec.toNat_ofNat]

/-- The entry `recvFromCan` drops when `k` begins has the id of the message
129 numbers older. -/
theorem messageId_eq_evicted {j k : ℕ} :
    messageId j = messageId k + timeOutId ↔ (j + evictionGap) % 256 = k % 256 := by
  have ht : BitVec.toNat timeOutId = 127 := rfl
  rw [messageId, messageId, ← BitVec.toNat_inj, BitVec.toNat_add, ht, BitVec.toNat_ofNat,
    BitVec.toNat_ofNat, evictionGap]
  omega

section Tracking

variable {messages : ℕ → Message ids source} {count : ℕ} {arrivals seen rest : List (ℕ × ℕ)}
  {state : RecvState} {k i : ℕ}

theorem frameCount_eq (messages : ℕ → Message ids source) (k : ℕ) :
    frameCount messages k = pieceCount (messages k).packet.pData.length :=
  length_messageFrames (messages k).long _

/-- The packet map of the source, empty when there is none. -/
def table (source : Byte) (state : RecvState) : PacketMap :=
  (state.inCompletePackets source).getD fun _ => none

/-- The stored fragments of message `k`, in arrival order. -/
def storedFragments (messages : ℕ → Message ids source) (seen : List (ℕ × ℕ)) (k : ℕ) :
    List FlexcanPacket :=
  (indices seen k).map (fragment (messages k).packet (messageId k))

/-- The receiver's state after the arrivals `seen`: the queue holds the
completed messages, and the table exactly the fragments of the live ones. -/
structure Tracks (messages : ℕ → Message ids source) (seen : List (ℕ × ℕ)) (state : RecvState) :
    Prop where
  /-- The queue holds the messages that are complete, in this order. -/
  queue : state.recvList =
    (completions (frameCount messages) [] seen).map fun k => (messages k).packet
  /-- A live message has its fragments in the table. -/
  stored : ∀ k, Live (frameCount messages) evictionGap seen k →
    table source state (messageId k) = some (storedFragments messages seen k)
  /-- The table has nothing else of this source. -/
  owned : ∀ id fragments, table source state id = some fragments →
    ∃ k, Live (frameCount messages) evictionGap seen k ∧ messageId k = id

/-- Nothing is stored or queued before the first arrival. -/
theorem tracks_emptyState (messages : ℕ → Message ids source) : Tracks messages [] emptyState where
  queue := rfl
  stored := fun k hlive => by
    obtain ⟨i, hi⟩ := hlive.begun
    cases hi
  owned := fun id fragments h => by cases h

/-- One receive step on a frame of message `k`, through the table of its source. -/
theorem recvStep_arrival {sorter : KeySort packetKey} {size : ℕ} {frame : CanFrame}
    (hframe : arrivalFrame messages (k, i) = some frame) :
    recvStep ids sorter size state frame =
      match fragmentOutcome sorter size (fragment (messages k).packet (messageId k) i)
        (some (table source state)) with
      | .error fault => .error fault
      | .ok (packets, packet) => .ok (afterFragment state source packets packet) := by
  obtain ⟨hi, hrecv⟩ :=
    flexcanRecv_messageFrames (messages k).long (messages k).priority_le hframe
  have haddr : addressedPacket ids frame =
      some (fragment (messages k).packet (messageId k) i) := by
    rw [addressedPacket, hrecv, Option.filter_some_pos]
    exact decide_eq_true (messages k).addressed
  have hsource : (fragment (messages k).packet (messageId k) i).sId = source :=
    (messages k).srcId_eq
  rw [recvStep_eq, haddr]
  dsimp only
  rw [if_neg (sendable_fragment (messages k).long _ hi).1, hsource, fragmentOutcome_getD]
  rfl

@[simp] theorem table_afterFragment (packets : PacketMap) (packet : Option CanPacket) :
    table source (afterFragment state source packets packet) = packets := by
  simp [table, afterFragment]

/-- One more fragment of message `k` is stored behind the others. -/
theorem storedFragments_append_self :
    storedFragments messages (seen ++ [(k, i)]) k =
      storedFragments messages seen k ++ [fragment (messages k).packet (messageId k) i] := by
  simp [storedFragments]

theorem storedFragments_append_of_ne {j : ℕ} (h : j ≠ k) :
    storedFragments messages (seen ++ [(k, i)]) j = storedFragments messages seen j := by
  rw [storedFragments, indices_append_of_ne h, storedFragments]

/-- The fragment count test of `recvFromCan` succeeds exactly on the fragment
that completes its message. -/
theorem complete_iff_sum (h : ArrivalOrder (frameCount messages) count flightWindow arrivals)
    (hsplit : arrivals = seen ++ (k, i) :: rest) :
    (fragment (messages k).packet (messageId k) i).sum.toNat + 1 ≤
        (storedFragments messages (seen ++ [(k, i)]) k).length % 256 ↔
      Complete (frameCount messages) (seen ++ [(k, i)]) k := by
  have hafter : arrivals = (seen ++ [(k, i)]) ++ rest := by simpa using hsplit
  obtain ⟨hle, hiff, -⟩ := h.complete_iff hafter k
  have hb := pieceCount_bounds (messages k).long
  rw [frameCount_eq] at hle hiff
  rw [hiff, storedFragments, List.length_map]
  simp only [fragment, BitVec.toNat_ofNat]
  omega

/-- The first fragment of a message opens an entry and drops the one 129
numbers older. -/
theorem tracks_first (h : ArrivalOrder (frameCount messages) count flightWindow arrivals)
    (hsplit : arrivals = seen ++ (k, i) :: rest) (ht : Tracks messages seen state)
    (hfirst : ¬Begun seen k) (sorter : KeySort packetKey) (size : ℕ) :
    ∃ packets, fragmentOutcome sorter size (fragment (messages k).packet (messageId k) i)
        (some (table source state)) = .ok (packets, none) ∧
      Tracks messages (seen ++ [(k, i)]) (afterFragment state source packets none) := by
  have hgap : evictionGap + flightWindow ≤ 256 := by decide
  have hpos : 0 < flightWindow := by decide
  have hfree : table source state (messageId k) = none := by
    by_contra hne
    obtain ⟨fragments, hfr⟩ := Option.ne_none_iff_exists'.mp hne
    obtain ⟨j, hlive, hj⟩ := ht.owned _ _ hfr
    exact h.id_free hpos hgap hsplit hfirst hlive (messageId_eq_iff.mp hj)
  have hb := pieceCount_bounds (messages k).long
  have hindices : indices seen k = [] := by
    apply List.eq_nil_iff_forall_not_mem.mpr
    intro j hj
    exact hfirst ⟨j, mem_indices.mp hj⟩
  have hincomplete : ¬Complete (frameCount messages) (seen ++ [(k, i)]) k := by
    have hafter : arrivals = (seen ++ [(k, i)]) ++ rest := by simpa using hsplit
    rw [(h.complete_iff hafter k).2.1, frameCount_eq, indices_append_self, hindices]
    simp only [List.nil_append, List.length_singleton]
    omega
  have hlive : Live (frameCount messages) evictionGap (seen ++ [(k, i)]) k :=
    (h.live_append_self (by decide) hpos hsplit).mpr hincomplete
  refine ⟨Function.update (removePacketId (table source state) (messageId k + timeOutId))
    (messageId k) (some [fragment (messages k).packet (messageId k) i]), ?_, ?_, ?_, ?_⟩
  · have hid : (fragment (messages k).packet (messageId k) i).packetId = messageId k := rfl
    simp only [fragmentOutcome, hid, hfree]
  · rw [completions_append, if_neg (by simpa using hincomplete), List.append_nil]
    simpa [afterFragment] using ht.queue
  · intro j hj
    rw [table_afterFragment]
    by_cases hjk : j = k
    · subst hjk
      rw [Function.update_self, storedFragments_append_self, storedFragments, hindices]
      rfl
    · obtain ⟨hold, hne⟩ := (live_append_of_first hjk).mp hj
      have hid : messageId j ≠ messageId k := fun heq =>
        h.id_free hpos hgap hsplit hfirst hold (messageId_eq_iff.mp heq)
      have hev : messageId j ≠ messageId k + timeOutId := fun heq =>
        hne (h.eq_of_evicted hpos hgap hsplit hold (messageId_eq_evicted.mp heq))
      rw [Function.update_of_ne hid, removePacketId, Function.update_of_ne hev,
        storedFragments_append_of_ne hjk, ht.stored j hold]
  · intro id fragments hfr
    rw [table_afterFragment] at hfr
    by_cases hid : id = messageId k
    · exact ⟨k, hlive, hid.symm⟩
    · rw [Function.update_of_ne hid] at hfr
      by_cases hev : id = messageId k + timeOutId
      · rw [removePacketId, hev, Function.update_self] at hfr
        cases hfr
      · rw [removePacketId, Function.update_of_ne hev] at hfr
        obtain ⟨j, hold, rfl⟩ := ht.owned _ _ hfr
        have hjk : j ≠ k := fun heq => hid (heq ▸ rfl)
        refine ⟨j, (live_append_of_first hjk).mpr ⟨hold, fun heq => hev ?_⟩, rfl⟩
        rw [messageId_eq_evicted, heq]

/-- A message that has begun is live at its next fragment. -/
theorem live_of_begun (h : ArrivalOrder (frameCount messages) count flightWindow arrivals)
    (hsplit : arrivals = seen ++ (k, i) :: rest) (hbegun : Begun seen k) :
    Live (frameCount messages) evictionGap seen k := by
  refine ⟨hbegun, h.incomplete hsplit, fun hb => ?_⟩
  have := h.lt_of_seen hsplit hb
  simp only [evictionGap, flightWindow] at this
  omega

/-- A further fragment leaves the entries of the other messages as they are. -/
theorem Tracks.stored_other (ht : Tracks messages seen state)
    (h : ArrivalOrder (frameCount messages) count flightWindow arrivals)
    (hsplit : arrivals = seen ++ (k, i) :: rest) (hbegun : Begun seen k) {j : ℕ} (hjk : j ≠ k)
    (hj : Live (frameCount messages) evictionGap (seen ++ [(k, i)]) j) :
    messageId j ≠ messageId k ∧
      table source state (messageId j) =
        some (storedFragments messages (seen ++ [(k, i)]) j) := by
  have hold := (live_append_of_begun hbegun hjk).mp hj
  have hlive := live_of_begun h hsplit hbegun
  refine ⟨fun heq => ?_, by rw [storedFragments_append_of_ne hjk, ht.stored j hold]⟩
  exact hjk (h.live_unique (by decide) (by decide) hsplit hold hlive (messageId_eq_iff.mp heq))

/-- They still belong to messages that are live. -/
theorem Tracks.owned_other (ht : Tracks messages seen state) (hbegun : Begun seen k)
    {id : Byte} {fragments : List FlexcanPacket} (hne : id ≠ messageId k)
    (hfr : table source state id = some fragments) :
    ∃ j, Live (frameCount messages) evictionGap (seen ++ [(k, i)]) j ∧ messageId j = id := by
  obtain ⟨j, hold, rfl⟩ := ht.owned _ _ hfr
  have hjk : j ≠ k := fun heq => hne (heq ▸ rfl)
  exact ⟨j, (live_append_of_begun hbegun hjk).mpr hold, rfl⟩

/-- The fragment that completes a message joins it and clears the entry. -/
theorem tracks_completed (h : ArrivalOrder (frameCount messages) count flightWindow arrivals)
    (hsplit : arrivals = seen ++ (k, i) :: rest) (ht : Tracks messages seen state)
    (hbegun : Begun seen k) (sorter : KeySort packetKey)
    (hc : Complete (frameCount messages) (seen ++ [(k, i)]) k) :
    ∃ packets packet, fragmentOutcome sorter canDataTotalSize
        (fragment (messages k).packet (messageId k) i) (some (table source state)) =
          .ok (packets, packet) ∧
      Tracks messages (seen ++ [(k, i)]) (afterFragment state source packets packet) := by
  have hentry := ht.stored k (live_of_begun h hsplit hbegun)
  have hid : (fragment (messages k).packet (messageId k) i).packetId = messageId k := rfl
  have hsum := complete_iff_sum h hsplit
  rw [storedFragments_append_self] at hsum
  have hafter : arrivals = (seen ++ [(k, i)]) ++ rest := by simpa using hsplit
  have hperm := (h.complete_iff hafter k).2.2 hc
  rw [frameCount_eq] at hperm
  have hjoin := getCanPacketVec_fragments sorter (messages k).long (messageId k) hperm
  rw [← storedFragments, storedFragments_append_self] at hjoin
  refine ⟨removePacketId (table source state) (messageId k), some (messages k).packet,
    ?_, ?_, ?_, ?_⟩
  · simp only [fragmentOutcome, hid, hentry, if_pos (hsum.mpr hc), hjoin]
  · rw [completions_append, if_pos (by simpa using hc), List.map_append, ← ht.queue]
    rfl
  · intro j hj
    rw [table_afterFragment, removePacketId]
    have hjk : j ≠ k := fun heq => (heq ▸ hj.incomplete) hc
    obtain ⟨hne, hst⟩ := ht.stored_other h hsplit hbegun hjk hj
    rw [Function.update_of_ne hne, hst]
  · intro id fragments hfr
    rw [table_afterFragment, removePacketId] at hfr
    by_cases heq : id = messageId k
    · rw [heq, Function.update_self] at hfr
      cases hfr
    · rw [Function.update_of_ne heq] at hfr
      exact ht.owned_other hbegun heq hfr

/-- Any other further fragment joins its entry. -/
theorem tracks_joined (h : ArrivalOrder (frameCount messages) count flightWindow arrivals)
    (hsplit : arrivals = seen ++ (k, i) :: rest) (ht : Tracks messages seen state)
    (hbegun : Begun seen k) (sorter : KeySort packetKey)
    (hc : ¬Complete (frameCount messages) (seen ++ [(k, i)]) k) :
    ∃ packets packet, fragmentOutcome sorter canDataTotalSize
        (fragment (messages k).packet (messageId k) i) (some (table source state)) =
          .ok (packets, packet) ∧
      Tracks messages (seen ++ [(k, i)]) (afterFragment state source packets packet) := by
  have hentry := ht.stored k (live_of_begun h hsplit hbegun)
  have hid : (fragment (messages k).packet (messageId k) i).packetId = messageId k := rfl
  have hsum := complete_iff_sum h hsplit
  rw [storedFragments_append_self] at hsum
  refine ⟨Function.update (table source state) (messageId k)
    (some (storedFragments messages (seen ++ [(k, i)]) k)), none, ?_, ?_, ?_, ?_⟩
  · simp only [fragmentOutcome, hid, hentry, if_neg (hsum.not.mpr hc),
      storedFragments_append_self]
  · rw [completions_append, if_neg (by simpa using hc), List.append_nil]
    simpa [afterFragment] using ht.queue
  · intro j hj
    rw [table_afterFragment]
    by_cases hjk : j = k
    · rw [hjk, Function.update_self]
    · obtain ⟨hne, hst⟩ := ht.stored_other h hsplit hbegun hjk hj
      rw [Function.update_of_ne hne, hst]
  · intro id fragments hfr
    rw [table_afterFragment] at hfr
    by_cases heq : id = messageId k
    · exact ⟨k, (h.live_append_self (by decide) (by decide) hsplit).mpr hc, heq.symm⟩
    · rw [Function.update_of_ne heq] at hfr
      exact ht.owned_other hbegun heq hfr

/-- One arrival keeps the state in step with the arrivals. -/
theorem tracks_step (h : ArrivalOrder (frameCount messages) count flightWindow arrivals)
    (hsplit : arrivals = seen ++ (k, i) :: rest) (ht : Tracks messages seen state)
    (sorter : KeySort packetKey) {frame : CanFrame}
    (hframe : arrivalFrame messages (k, i) = some frame) :
    ∃ next, recvStep ids sorter canDataTotalSize state frame = .ok next ∧
      Tracks messages (seen ++ [(k, i)]) next := by
  rw [recvStep_arrival hframe]
  by_cases hbegun : Begun seen k
  · by_cases hc : Complete (frameCount messages) (seen ++ [(k, i)]) k
    · obtain ⟨packets, packet, hout, hnext⟩ := tracks_completed h hsplit ht hbegun sorter hc
      exact ⟨_, by rw [hout], hnext⟩
    · obtain ⟨packets, packet, hout, hnext⟩ := tracks_joined h hsplit ht hbegun sorter hc
      exact ⟨_, by rw [hout], hnext⟩
  · obtain ⟨packets, hout, hnext⟩ := tracks_first h hsplit ht hbegun sorter canDataTotalSize
    exact ⟨_, by rw [hout], hnext⟩

/-- Every arrival is a frame of its message. -/
theorem arrivalFrame_isSome (h : ArrivalOrder (frameCount messages) count flightWindow arrivals)
    {f : ℕ × ℕ} (hf : f ∈ arrivals) : ∃ frame, arrivalFrame messages f = some frame :=
  ⟨_, List.getElem?_eq_getElem (h.known f hf).2⟩

/-- After any part of the arrivals, the receiver has run without a fault and
its state is in step with them. -/
theorem recvFrames_tracks (h : ArrivalOrder (frameCount messages) count flightWindow arrivals)
    (sorter : KeySort packetKey) (hsplit : arrivals = seen ++ rest) :
    ∃ state, recvFrames ids sorter canDataTotalSize emptyState (arrivalFrames messages seen) =
        .ok state ∧ Tracks messages seen state := by
  rw [recvFrames, arrivalFrames, runEvents_filterMap]
  refine runEvents_prefix_invariant _ (Tracks messages) (tracks_emptyState messages) ?_ hsplit
  intro seen f rest state hsplit ht
  obtain ⟨frame, hframe⟩ := arrivalFrame_isSome h (f := f) (by simp [hsplit])
  rw [hframe]
  exact tracks_step h hsplit ht sorter hframe

/-- Reassembly over a lossy, reordering bus. Whatever is lost and reordered
inside the window, after any part of the arrivals the queue holds the completed
messages as they were sent, each once and in the order of the arrivals that
completed them, and nothing else. -/
theorem recvFrames_delivers (messages : ℕ → Message ids source) (sorter : KeySort packetKey)
    (h : ArrivalOrder (frameCount messages) count flightWindow arrivals)
    (hsplit : arrivals = seen ++ rest) :
    ∃ state, recvFrames ids sorter canDataTotalSize emptyState (arrivalFrames messages seen) =
        .ok state ∧
      state.recvList =
        (completions (frameCount messages) [] seen).map (fun k => (messages k).packet) ∧
      (completions (frameCount messages) [] seen).Nodup ∧
      ∀ k, k ∈ completions (frameCount messages) [] seen ↔
        ∀ i < frameCount messages k, (k, i) ∈ seen := by
  obtain ⟨state, hrun, ht⟩ := recvFrames_tracks h sorter hsplit
  have hsize : ∀ k, 0 < frameCount messages k := by
    intro k
    have := pieceCount_bounds (messages k).long
    rw [frameCount_eq]
    omega
  obtain ⟨hnodup, hmem⟩ := h.completions_spec hsize hsplit
  exact ⟨state, hrun, ht.queue, hnodup, hmem⟩

end Tracking

/-- Nine bytes from module 0x52, sent as two fragments. -/
def sampleMessage : Message ⟨0x31, 0x32⟩ 0x52 where
  packet := ⟨3, 0x52, 0x32, [1, 2, 3, 4, 5, 6, 7, 8, 9]⟩
  srcId_eq := rfl
  addressed := Or.inr rfl
  long := ⟨by decide, by decide⟩
  priority_le := by decide

/-- Two messages in flight: the older arrives back to front around a fragment
of the younger, whose second fragment is lost. -/
theorem recvFrames_delivers_lostFragment :
    ∃ state, recvFrames ⟨0x31, 0x32⟩ (insertionKeySort packetKey) canDataTotalSize emptyState
        (arrivalFrames (fun _ => sampleMessage) [(0, 1), (1, 0), (0, 0)]) = .ok state ∧
      state.recvList = [sampleMessage.packet] := by
  have hcount : frameCount (fun _ => sampleMessage) = fun _ => 2 :=
    funext fun k => frameCount_eq (fun _ => sampleMessage) k
  have horder : ArrivalOrder (frameCount fun _ => sampleMessage) 2 flightWindow
      [(0, 1), (1, 0), (0, 0)] := by
    rw [hcount]
    exact ⟨by decide, by decide, fun k hk => ⟨0, by interval_cases k <;> decide⟩, by decide⟩
  obtain ⟨state, hrun, hqueue, -⟩ := recvFrames_delivers (fun _ => sampleMessage)
    (insertionKeySort packetKey) horder (List.append_nil _).symm
  refine ⟨state, hrun, ?_⟩
  rw [hqueue, hcount]
  rfl

end RobotOta.CanReassemblyWindow
