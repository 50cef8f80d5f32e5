import RobotOta.FragmentationCapacity

/-!
# Sending a message

`sendCANData` waits for the socket in up to ten turns of `select` and then
sends the message; `_sendToCan` repeats a write as long as it fails with
`ENOBUFS`. What the waits and the writes come back with is given. A call that
needs a result beyond those given has not returned.
-/

namespace RobotOta.CanSend

open ByteBuffer CanFrameCodec CanReassembly CanFragmentation FragmentationCapacity

/-- What `select` comes back with. -/
inductive SelectResult where
  | ready
  | timeout
  | error
  /-- It succeeds, and the socket is not in its set. -/
  | notSet
  deriving DecidableEq

/-- What `write` comes back with. -/
inductive WriteResult where
  | success
  | enobufs
  | error
  deriving DecidableEq

/-- The socket, with the results of the writes to come and the writes made. -/
structure Socket where
  /-- How the writes to come end. -/
  results : List WriteResult
  /-- `errno` is `ENOBUFS`. -/
  noBuffers : Bool
  /-- The writes so far, each with its result. -/
  writes : List (CanFrame × WriteResult)
  /-- A call on it does not return. -/
  waiting : Bool

/-- The loop of `_sendToCan` around the writes of one frame. -/
def writeFrame (frame : CanFrame) : List WriteResult → Socket → Int × Socket
  | [], socket => (-1, { socket with results := [], waiting := true })
  | .success :: rest, socket =>
    (0, { socket with results := rest, writes := socket.writes ++ [(frame, .success)] })
  | .enobufs :: rest, socket =>
    writeFrame frame rest
      { socket with noBuffers := true, writes := socket.writes ++ [(frame, .enobufs)] }
  | .error :: rest, socket =>
    (-1, { socket with
      results := rest, noBuffers := false, writes := socket.writes ++ [(frame, .error)] })

/-- `_sendToCan`. A packet that `flexcan_send` refuses without a write leaves
`errno` as an earlier call has set it, and is then offered for ever. -/
def _sendToCan (socket : Socket) (canData : FlexcanPacket) : Int × Socket :=
  match flexcanSend canData with
  | none => (-1, if socket.noBuffers then { socket with waiting := true } else socket)
  | some frame => writeFrame frame socket.results socket

/-- How a call of `sendCANData` stands. -/
inductive SendEnd where
  | returned (ret : Int)
  | waiting
  deriving DecidableEq

/-- `sendCANData` behind a successful wait. -/
def sendReady (packet : CanPacket) (packetsId : Byte) (socket : Socket) :
    Except MemoryFault (SendEnd × Byte × Socket) :=
  match sendToCan _sendToCan packet packetsId socket with
  | .error fault => .error fault
  | .ok (ret, packetsId, socket) =>
    .ok (if socket.waiting then .waiting else .returned ret, packetsId, socket)

/-- The loop of `sendCANData`, from turn `i` on, with `ret` from the turn before. -/
def selectLoop (selects : ℕ → SelectResult) (packet : CanPacket) (packetsId : Byte)
    (socket : Socket) : (count i : ℕ) → (ret : Int) →
      Except MemoryFault (SendEnd × Byte × Socket)
  | 0, _, ret => .ok (.returned ret, packetsId, socket)
  | count + 1, i, _ =>
    match selects i with
    | .timeout => selectLoop selects packet packetsId socket count (i + 1) 0
    | .ready => sendReady packet packetsId socket
    | .error | .notSet => .ok (.returned (-1), packetsId, socket)

/-- The packet of `sendCANData`. -/
def sendPacket (sId dId : Byte) (pdata : List Byte) : CanPacket := ⟨3, sId, dId, pdata⟩

/-- `sendCANData`: how the call stands, the next value of `g_PacketsId` and the socket. -/
def sendCANData (sockFd : Int) (selects : ℕ → SelectResult) (sId dId : Byte) (pdata : List Byte)
    (packetsId : Byte) (socket : Socket) : Except MemoryFault (SendEnd × Byte × Socket) :=
  if sockFd = -1 then .ok (.returned (-1), packetsId, socket)
  else selectLoop selects (sendPacket sId dId pdata) packetsId socket 10 0 (-1)

/-- The socket in front of a call. -/
def openSocket (results : List WriteResult) (noBuffers : Bool) : Socket :=
  ⟨results, noBuffers, [], false⟩

/-- The packets of a message: one complete packet, or its pieces. -/
def messagePackets (packet : CanPacket) (packetsId : Byte) : List FlexcanPacket :=
  if h : packet.pData.length ≤ canDataMaxLen then
    [fillData { commonData packet with len := packet.pData.length } packet.pData h]
  else (List.range (pieceCount packet.pData.length)).map (fragment packet packetsId)

/-- The frames written successfully, in order. -/
def written (writes : List (CanFrame × WriteResult)) : List CanFrame :=
  (writes.filter fun w => w.2 = .success).map Prod.fst

/-- The call sees the socket writable. -/
def BecomesWritable (selects : ℕ → SelectResult) : Prop :=
  ∃ i < 10, (∀ j < i, selects j = .timeout) ∧ selects i = .ready

/-- All turns of the wait time out. -/
def AllTimeOut (selects : ℕ → SelectResult) : Prop := ∀ i < 10, selects i = .timeout

/-- The first `n` frames offered are accepted, each after some `ENOBUFS`. -/
def Accepts (n : ℕ) (results : List WriteResult) : Prop :=
  (results.filter (· ≠ .enobufs)).take n = List.replicate n .success

instance (n : ℕ) (results : List WriteResult) : Decidable (Accepts n results) :=
  inferInstanceAs (Decidable (_ = _))

/-- The call has returned, and not zero. -/
def Failed (sendEnd : SendEnd) : Prop := ∃ ret, ret ≠ 0 ∧ sendEnd = .returned ret

/-- Zero stands for a message of which every frame has been written once, in
order; where a frame fails the call fails, and writes nothing behind it. -/
structure WritesReported (frames : List CanFrame) (sendEnd : SendEnd) (after : Socket) : Prop where
  /-- Zero is returned for all of the frames only. -/
  sent : sendEnd = .returned 0 → written after.writes = frames
  /-- Behind a write that failed there is none, and the failure is returned. -/
  failed : ∀ first frame rest, after.writes = first ++ (frame, .error) :: rest →
    rest = [] ∧ Failed sendEnd

/-- What a call owes its caller: it reports its writes, and fails where the
socket does not become writable. -/
def SentOrReported (sockFd : Int) (selects : ℕ → SelectResult) (sId dId : Byte)
    (pdata : List Byte) (packetsId : Byte) (socket : Socket) : Prop :=
  ∃ sendEnd nextId after,
    sendCANData sockFd selects sId dId pdata packetsId socket = .ok (sendEnd, nextId, after) ∧
      WritesReported
        ((messagePackets (sendPacket sId dId pdata) packetsId).filterMap flexcanSend)
        sendEnd after ∧
      (¬BecomesWritable selects → Failed sendEnd)

/-- The copy of the last fragment outgrows the data cells: the count of the
pieces has wrapped, and no frame in front of that copy fails. -/
def LastCopyOverruns (pdata : List Byte) (results : List WriteResult) : Prop :=
  1530 < pdata.length ∧ Accepts ((fragmentNum pdata.length).toNat - 1) results

/-- How the writes of one frame end. -/
inductive WriteEnd (frame : CanFrame) (results : List WriteResult) (socket : Socket) :
    Int × Socket → Prop where
  | accepted (k : ℕ) (rest : List WriteResult) (after : Socket) :
    results = List.replicate k .enobufs ++ .success :: rest → after.results = rest →
    after.writes = socket.writes ++ (List.replicate k (frame, .enobufs) ++ [(frame, .success)]) →
    after.waiting = socket.waiting → WriteEnd frame results socket (0, after)
  | refused (k : ℕ) (rest : List WriteResult) (after : Socket) :
    results = List.replicate k .enobufs ++ .error :: rest →
    after.writes = socket.writes ++ (List.replicate k (frame, .enobufs) ++ [(frame, .error)]) →
    after.waiting = socket.waiting → WriteEnd frame results socket (-1, after)
  | waiting (k : ℕ) (after : Socket) :
    results = List.replicate k .enobufs →
    after.writes = socket.writes ++ List.replicate k (frame, .enobufs) →
    after.waiting = true → WriteEnd frame results socket (-1, after)

/-- A frame is offered until a write returns anything but `ENOBUFS`. -/
theorem writeFrame_ends (frame : CanFrame) (results : List WriteResult) (socket : Socket) :
    WriteEnd frame results socket (writeFrame frame results socket) := by
  induction results generalizing socket with
  | nil => exact .waiting 0 _ rfl (List.append_nil _).symm rfl
  | cons result rest ih =>
    cases result with
    | success => exact .accepted 0 rest _ rfl rfl rfl rfl
    | error => exact .refused 0 rest _ rfl rfl rfl
    | enobufs =>
      have hretry := ih { socket with
        noBuffers := true, writes := socket.writes ++ [(frame, .enobufs)] }
      rw [writeFrame]
      generalize writeFrame frame rest _ = sent at hretry
      cases hretry with
      | accepted k rest' after hresults hrest hwrites hwaiting =>
        refine .accepted (k + 1) rest' after (by rw [hresults]; rfl) hrest ?_ hwaiting
        rw [hwrites, List.append_assoc]
        rfl
      | refused k rest' after hresults hwrites hwaiting =>
        refine .refused (k + 1) rest' after (by rw [hresults]; rfl) ?_ hwaiting
        rw [hwrites, List.append_assoc]
        rfl
      | waiting k after hresults hwrites hwaiting =>
        refine .waiting (k + 1) after (by rw [hresults]; rfl) ?_ hwaiting
        rw [hwrites, List.append_assoc]
        rfl

/-- None of the writes fails for good. -/
def NoError (writes : List (CanFrame × WriteResult)) : Prop := ∀ w ∈ writes, w.2 ≠ .error

theorem noError_replicate (k : ℕ) (frame : CanFrame) :
    NoError (List.replicate k (frame, WriteResult.enobufs)) := by
  intro w hw
  rw [List.eq_of_mem_replicate hw]
  exact WriteResult.noConfusion

theorem NoError.append {first rest : List (CanFrame × WriteResult)} (hfirst : NoError first)
    (hrest : NoError rest) : NoError (first ++ rest) := by
  intro w hw
  rcases List.mem_append.mp hw with hw | hw
  · exact hfirst w hw
  · exact hrest w hw

theorem written_append (first rest : List (CanFrame × WriteResult)) :
    written (first ++ rest) = written first ++ written rest := by
  rw [written, List.filter_append, List.map_append]
  rfl

/-- Repeated offers and then a success write the frame once. -/
theorem written_retried (k : ℕ) (frame : CanFrame) :
    written (List.replicate k (frame, .enobufs) ++ [(frame, .success)]) = [frame] := by
  have hretries : written (List.replicate k (frame, .enobufs)) = [] := by
    rw [written, List.map_eq_nil_iff, List.filter_eq_nil_iff]
    intro w hw
    rw [List.eq_of_mem_replicate hw]
    exact Bool.false_ne_true
  rw [written_append, hretries]
  rfl

section Accepts

variable {results rest : List WriteResult} {k n : ℕ}

theorem filter_replicate_enobufs (k : ℕ) :
    (List.replicate k WriteResult.enobufs).filter (· ≠ .enobufs) = [] := by
  rw [List.filter_eq_nil_iff]
  intro result hresult
  rw [List.eq_of_mem_replicate hresult]
  decide

/-- One frame is accepted, and the rest decides about the others. -/
theorem accepts_succ_iff (h : results = List.replicate k .enobufs ++ .success :: rest) :
    Accepts (n + 1) results ↔ Accepts n rest := by
  rw [Accepts, h, List.filter_append, filter_replicate_enobufs, List.nil_append,
    List.filter_cons_of_pos (by decide), List.take_succ_cons, List.replicate_succ,
    List.cons_inj_right]
  rfl

theorem not_accepts_refused (h : results = List.replicate k .enobufs ++ .error :: rest) :
    ¬Accepts (n + 1) results := by
  rw [Accepts, h, List.filter_append, filter_replicate_enobufs, List.nil_append,
    List.filter_cons_of_pos (by decide), List.take_succ_cons, List.replicate_succ]
  intro hcons
  exact WriteResult.noConfusion (List.cons.inj hcons).1

theorem not_accepts_exhausted (h : results = List.replicate k .enobufs) :
    ¬Accepts (n + 1) results := by
  rw [Accepts, h, filter_replicate_enobufs, List.take_nil, List.replicate_succ]
  exact fun hnil => List.cons_ne_nil _ _ hnil.symm

end Accepts

/-- How the writes of several frames end. -/
inductive RunEnd (frames : List CanFrame) (socket : Socket) : Int × Socket → Prop where
  | accepted (added : List (CanFrame × WriteResult)) (after : Socket) :
    Accepts frames.length socket.results → after.writes = socket.writes ++ added →
    NoError added → written added = frames → after.waiting = socket.waiting →
    RunEnd frames socket (0, after)
  | refused (added : List (CanFrame × WriteResult)) (frame : CanFrame) (after : Socket) :
    ¬Accepts frames.length socket.results →
    after.writes = socket.writes ++ (added ++ [(frame, .error)]) →
    NoError added → after.waiting = socket.waiting → RunEnd frames socket (-1, after)
  | waiting (added : List (CanFrame × WriteResult)) (after : Socket) :
    ¬Accepts frames.length socket.results → after.writes = socket.writes ++ added →
    NoError added → after.waiting = true → RunEnd frames socket (-1, after)

/-- Packets with a frame each are written in order, up to the first frame that fails. -/
theorem sendAll_ends {packets : List FlexcanPacket} {frames : List CanFrame}
    (h : packets.map flexcanSend = frames.map some) (socket : Socket) :
    RunEnd frames socket (sendAll _sendToCan packets socket) := by
  induction packets generalizing frames socket with
  | nil =>
    obtain rfl : frames = [] := List.map_eq_nil_iff.mp h.symm
    exact .accepted [] socket rfl (List.append_nil _).symm (fun w hw => by cases hw) rfl rfl
  | cons canData packets ih =>
    cases frames with
    | nil => cases h
    | cons frame frames =>
      obtain ⟨hframe, hrest⟩ := List.cons.inj h
      have hone : _sendToCan socket canData = writeFrame frame socket.results socket := by
        rw [_sendToCan, hframe]
      have hend := writeFrame_ends frame socket.results socket
      rw [sendAll_cons, hone]
      generalize writeFrame frame socket.results socket = sent at hend
      cases hend with
      | refused k rest after hresults hwrites hwaiting =>
        rw [if_pos (by decide : (-1 : Int) ≠ 0)]
        exact .refused _ frame after (not_accepts_refused hresults) hwrites
          (noError_replicate k frame) hwaiting
      | waiting k after hresults hwrites hwaiting =>
        rw [if_pos (by decide : (-1 : Int) ≠ 0)]
        exact .waiting _ after (not_accepts_exhausted hresults) hwrites
          (noError_replicate k frame) hwaiting
      | accepted k rest after hresults hafter hwrites hwaiting =>
        have hsuccess : NoError (List.replicate k (frame, .enobufs) ++ [(frame, .success)]) := by
          refine (noError_replicate k frame).append fun w hw => ?_
          rw [List.mem_singleton.mp hw]
          exact WriteResult.noConfusion
        have haccepts := accepts_succ_iff (n := frames.length) hresults
        rw [if_neg (not_not.mpr rfl)]
        have hrun := ih hrest after
        dsimp only
        generalize sendAll _sendToCan packets after = run at hrun
        cases hrun with
        | accepted added final haccept hadded hno hwritten hwait =>
          refine .accepted _ final (haccepts.mpr (hafter ▸ haccept))
            (by rw [hadded, hwrites, List.append_assoc]) (hsuccess.append hno) ?_
            (hwait.trans hwaiting)
          rw [written_append, written_retried, hwritten]
          rfl
        | refused added failed final haccept hadded hno hwait =>
          exact .refused _ failed final (fun hall => haccept (hafter ▸ haccepts.mp hall))
            (by rw [hadded, hwrites, List.append_assoc, ← List.append_assoc _ added])
            (hsuccess.append hno) (hwait.trans hwaiting)
        | waiting added final haccept hadded hno hwait =>
          exact .waiting _ final (fun hall => haccept (hafter ▸ haccepts.mp hall))
            (by rw [hadded, hwrites, List.append_assoc]) (hsuccess.append hno) hwait

/-- How the wait ends. -/
theorem selectLoop_cases (selects : ℕ → SelectResult) (packet : CanPacket) (packetsId : Byte)
    (socket : Socket) (count i : ℕ) (ret : Int) :
    ((∀ j, i ≤ j → j < i + count → selects j = .timeout) ∧
      selectLoop selects packet packetsId socket count i ret =
        .ok (.returned (if count = 0 then ret else 0), packetsId, socket)) ∨
    ∃ k, i ≤ k ∧ k < i + count ∧ (∀ j, i ≤ j → j < k → selects j = .timeout) ∧
      selects k ≠ .timeout ∧ selectLoop selects packet packetsId socket count i ret =
        if selects k = .ready then sendReady packet packetsId socket
        else .ok (.returned (-1), packetsId, socket) := by
  induction count generalizing i ret with
  | zero => exact Or.inl ⟨fun j hlo hhi => by omega, rfl⟩
  | succ count ih =>
    rw [selectLoop]
    cases hselect : selects i with
    | timeout =>
      have hhead : ∀ j, i ≤ j → ¬i + 1 ≤ j → selects j = .timeout := by
        intro j hlo hhi
        obtain rfl : j = i := by omega
        exact hselect
      rcases ih (i + 1) 0 with ⟨hall, hloop⟩ | ⟨k, hlo, hhi, hbefore, hk, hloop⟩
      · refine Or.inl ⟨fun j hlo hhi => ?_, ?_⟩
        · by_cases hj : i + 1 ≤ j
          · exact hall j hj (by omega)
          · exact hhead j hlo hj
        · rw [hloop, ite_self, if_neg (Nat.succ_ne_zero count)]
      · refine Or.inr ⟨k, by omega, by omega, fun j hj hjk => ?_, hk, hloop⟩
        by_cases hj' : i + 1 ≤ j
        · exact hbefore j hj' hjk
        · exact hhead j hj hj'
    | ready =>
      refine Or.inr ⟨i, le_rfl, by omega, fun j hlo hhi => by omega, by simp [hselect], ?_⟩
      rw [if_pos hselect]
    | error =>
      refine Or.inr ⟨i, le_rfl, by omega, fun j hlo hhi => by omega, by simp [hselect], ?_⟩
      rw [if_neg (by simp [hselect])]
    | notSet =>
      refine Or.inr ⟨i, le_rfl, by omega, fun j hlo hhi => by omega, by simp [hselect], ?_⟩
      rw [if_neg (by simp [hselect])]

section Call

variable {sockFd : Int} {selects : ℕ → SelectResult} {sId dId : Byte} {pdata : List Byte}
  {packetsId : Byte} {socket : Socket}

/-- On an open socket the call waits in vain and returns zero, sends the message
behind its wait, or fails in it. -/
theorem sendCANData_cases (hsock : sockFd ≠ -1) :
    (AllTimeOut selects ∧ ¬BecomesWritable selects ∧
      sendCANData sockFd selects sId dId pdata packetsId socket =
        .ok (.returned 0, packetsId, socket)) ∨
    (¬AllTimeOut selects ∧ BecomesWritable selects ∧
      sendCANData sockFd selects sId dId pdata packetsId socket =
        sendReady (sendPacket sId dId pdata) packetsId socket) ∨
    (¬AllTimeOut selects ∧ ¬BecomesWritable selects ∧
      sendCANData sockFd selects sId dId pdata packetsId socket =
        .ok (.returned (-1), packetsId, socket)) := by
  rw [sendCANData, if_neg hsock]
  rcases selectLoop_cases selects (sendPacket sId dId pdata) packetsId socket 10 0 (-1) with
    ⟨hall, hloop⟩ | ⟨k, -, hk, hbefore, hanswer, hloop⟩
  · refine Or.inl ⟨fun i hi => hall i (by omega) (by omega), ?_, hloop⟩
    rintro ⟨i, hi, -, hready⟩
    rw [hall i (by omega) (by omega)] at hready
    cases hready
  · have htimeout : ¬AllTimeOut selects := fun hall => hanswer (hall k (by omega))
    by_cases hready : selects k = .ready
    · rw [if_pos hready] at hloop
      exact Or.inr (Or.inl ⟨htimeout,
        ⟨k, by omega, fun j hj => hbefore j (by omega) hj, hready⟩, hloop⟩)
    · rw [if_neg hready] at hloop
      refine Or.inr (Or.inr ⟨htimeout, ?_, hloop⟩)
      rintro ⟨i, hi, hearlier, hthen⟩
      rcases Nat.lt_trichotomy i k with hlt | rfl | hlt
      · rw [hbefore i (by omega) hlt] at hthen
        cases hthen
      · exact hready hthen
      · exact hanswer (hearlier k hlt)

/-- A call without writes that does not return zero reports them. -/
theorem writesReported_of_none {frames : List CanFrame} {sendEnd : SendEnd} {after : Socket}
    (hwrites : after.writes = []) (hzero : sendEnd ≠ .returned 0) :
    WritesReported frames sendEnd after := by
  refine ⟨fun h => absurd h hzero, fun first frame rest h => ?_⟩
  rw [hwrites] at h
  exact absurd h.symm (by simp)

/-- A run over frames reports its writes, for any list of frames that agrees
with its own where it accepts them. -/
theorem writesReported_of_runEnd {frames owed : List CanFrame} {results : List WriteResult}
    {noBuffers : Bool} {ret : Int} {after : Socket}
    (h : RunEnd frames (openSocket results noBuffers) (ret, after))
    (howed : ret = 0 → frames = owed) :
    WritesReported owed (if after.waiting then .waiting else .returned ret) after := by
  have hclean : ∀ added, after.writes = [] ++ added → NoError added →
      ∀ first frame rest, ¬after.writes = first ++ (frame, .error) :: rest := by
    intro added hadded hno first frame rest hsplit
    rw [hadded, List.nil_append] at hsplit
    exact hno (frame, .error) (by rw [hsplit]; simp) rfl
  cases h with
  | accepted added after _ hwrites hno hwritten hwaiting =>
    refine ⟨fun _ => ?_, fun first frame rest hsplit =>
      absurd hsplit (hclean added hwrites hno first frame rest)⟩
    rw [hwrites, ← howed rfl]
    exact hwritten
  | waiting added after _ hwrites hno hwaiting =>
    rw [if_pos hwaiting]
    exact ⟨fun hend => SendEnd.noConfusion hend, fun first frame rest hsplit =>
      absurd hsplit (hclean added hwrites hno first frame rest)⟩
  | refused added failed after _ hwrites hno hwaiting =>
    have hreturned : ¬after.waiting = true := by
      rw [hwaiting]
      exact Bool.false_ne_true
    rw [if_neg hreturned]
    refine ⟨fun hend => absurd (SendEnd.returned.inj hend) (by decide),
      fun first frame rest hsplit => ⟨?_, -1, by decide, rfl⟩⟩
    rcases List.eq_nil_or_concat rest with rfl | ⟨before, last, rfl⟩
    · rfl
    · -- the failure behind `first` would be one of the writes before the last
      rw [hwrites, ← List.append_assoc, List.concat_eq_append, ← List.cons_append,
        ← List.append_assoc] at hsplit
      have hadded := (List.append_inj' hsplit rfl).1
      refine absurd rfl (hno (frame, .error) ?_)
      have hmem : (frame, WriteResult.error) ∈ ([] : List (CanFrame × WriteResult)) ++ added := by
        change (frame, WriteResult.error) ∈ (openSocket results noBuffers).writes ++ added
        rw [hadded]
        simp
      exact hmem

/-- Packets that `flexcan_send` takes have a frame each. -/
theorem map_flexcanSend_eq {packets : List FlexcanPacket}
    (h : ∀ canData ∈ packets, (flexcanSend canData).isSome) :
    packets.map flexcanSend = (packets.filterMap flexcanSend).map some := by
  induction packets with
  | nil => rfl
  | cons canData packets ih =>
    obtain ⟨frame, hframe⟩ := Option.isSome_iff_exists.mp (h canData List.mem_cons_self)
    rw [List.map_cons, List.filterMap_cons_some hframe, List.map_cons, hframe,
      ih fun other hother => h other (List.mem_cons_of_mem _ hother)]

theorem isSome_flexcanSend {canData : FlexcanPacket} (h : Sendable canData) :
    (flexcanSend canData).isSome := by
  obtain ⟨frame, hframe, -⟩ := flexcanRecv_flexcanSend h
  rw [hframe]
  rfl

/-- Pieces have a frame each, also where only the first of them are sent. -/
theorem isSome_flexcanSend_fragments {packet : CanPacket} (packetId : Byte) {n : ℕ}
    (hn : n ≤ pieceCount packet.pData.length) :
    ∀ canData ∈ (List.range n).map (fragment packet packetId), (flexcanSend canData).isSome := by
  intro canData hmem
  obtain ⟨i, hi, rfl⟩ := List.mem_map.mp hmem
  exact isSome_flexcanSend (sendable_of_piece packetId ((List.mem_range.mp hi).trans_le hn))

/-- What a call behind its wait owes its caller. -/
def ReadyReported (packet : CanPacket) (packetsId : Byte) (socket : Socket) : Prop :=
  ∃ sendEnd nextId after, sendReady packet packetsId socket = .ok (sendEnd, nextId, after) ∧
    WritesReported ((messagePackets packet packetsId).filterMap flexcanSend) sendEnd after

/-- Without a fault, a run over frames decides. -/
theorem readyReported_of_runEnd {packet : CanPacket} {nextId : Byte} {sent : Int × Socket}
    {frames : List CanFrame} {results : List WriteResult} {noBuffers : Bool}
    (hsend : sendToCan _sendToCan packet packetsId (openSocket results noBuffers) =
      .ok (sent.1, nextId, sent.2))
    (hrun : RunEnd frames (openSocket results noBuffers) sent)
    (howed : sent.1 = 0 → frames = (messagePackets packet packetsId).filterMap flexcanSend) :
    ReadyReported packet packetsId (openSocket results noBuffers) := by
  refine ⟨_, nextId, sent.2, ?_, writesReported_of_runEnd hrun howed⟩
  rw [sendReady, hsend]

variable {packet : CanPacket} {results : List WriteResult}

/-- Up to eight bytes are one frame, and no bytes are refused. -/
theorem readyReported_short (hshort : packet.pData.length ≤ canDataMaxLen) (packetsId : Byte)
    (noBuffers : Bool) : ReadyReported packet packetsId (openSocket results noBuffers) := by
  obtain ⟨canData, hcanData⟩ : ∃ canData, fillData
    { commonData packet with len := packet.pData.length } packet.pData hshort = canData := ⟨_, rfl⟩
  have hpackets : messagePackets packet packetsId = [canData] := by
    rw [messagePackets, dif_pos hshort, hcanData]
  have hsend : sendToCan _sendToCan packet packetsId (openSocket results noBuffers) =
      .ok ((_sendToCan (openSocket results noBuffers) canData).1, packetsId,
        (_sendToCan (openSocket results noBuffers) canData).2) := by
    rw [sendToCan, dif_pos hshort, hcanData]
  by_cases hpos : 1 ≤ packet.pData.length
  · have hsendable : Sendable canData := hcanData ▸ ⟨hpos, hshort⟩
    have hsome : ∀ other ∈ [canData], (flexcanSend other).isSome := by
      intro other hother
      rw [List.mem_singleton.mp hother]
      exact isSome_flexcanSend hsendable
    have hrun := sendAll_ends (map_flexcanSend_eq hsome) (openSocket results noBuffers)
    rw [sendAll_singleton] at hrun
    exact readyReported_of_runEnd hsend hrun fun _ => by rw [hpackets]
  · have hrefused : flexcanSend canData = none := by
      rw [← hcanData, flexcanSend, dif_pos]
      left
      exact Nat.le_of_not_lt hpos
    rw [_sendToCan, hrefused] at hsend
    cases noBuffers with
    | true =>
      refine ⟨_, _, _, by rw [sendReady, hsend], writesReported_of_none rfl ?_⟩
      exact SendEnd.noConfusion
    | false =>
      refine ⟨_, _, _, by rw [sendReady, hsend], writesReported_of_none rfl ?_⟩
      exact fun hend => absurd (SendEnd.returned.inj hend) (by decide : (-1 : Int) ≠ 0)

/-- Up to 255 pieces are one frame each. -/
theorem readyReported_long (hlong : LongLength packet.pData.length) (packetsId : Byte)
    (noBuffers : Bool) : ReadyReported packet packetsId (openSocket results noBuffers) := by
  have hpackets : messagePackets packet packetsId =
      (List.range (pieceCount packet.pData.length)).map (fragment packet packetsId) :=
    dif_neg (Nat.not_le_of_lt hlong.1)
  refine readyReported_of_runEnd (sendToCan_long _sendToCan packetsId hlong _)
    (sendAll_ends (map_flexcanSend_eq (isSome_flexcanSend_fragments packetsId le_rfl)) _) ?_
  intro _
  rw [hpackets]

/-- Beyond them the call stops at a frame that fails, or runs into the fault. -/
theorem readyReported_overlong (hover : 1530 < packet.pData.length)
    (hlen : packet.pData.length < 2 ^ 32) (packetsId : Byte) (noBuffers : Bool) :
    if Accepts ((fragmentNum packet.pData.length).toNat - 1) results then
      ∃ fault, sendReady packet packetsId (openSocket results noBuffers) = .error fault
    else ReadyReported packet packetsId (openSocket results noBuffers) := by
  have hframes := map_flexcanSend_eq
    (isSome_flexcanSend_fragments packetsId (fragmentNum_lt_pieceCount hover).le)
  have hrun := sendAll_ends hframes (openSocket results noBuffers)
  have hsend := sendToCan_overlong _sendToCan hover hlen packetsId (openSocket results noBuffers)
  have hcount := congrArg List.length hframes
  rw [List.length_map, List.length_map, List.length_map, List.length_range] at hcount
  generalize sendAll _sendToCan _ _ = sent at hrun hsend
  dsimp only at hsend
  split_ifs with haccepts
  · rw [hcount] at haccepts
    cases hrun with
    | accepted added after _ _ _ _ _ =>
      rw [if_neg (not_not.mpr rfl)] at hsend
      exact ⟨_, by rw [sendReady, hsend]⟩
    | refused added frame after hnot _ _ _ => exact absurd haccepts hnot
    | waiting added after hnot _ _ _ => exact absurd haccepts hnot
  · rw [hcount] at haccepts
    have hret : sent.1 ≠ 0 := by
      cases hrun with
      | accepted added after hall _ _ _ _ => exact absurd hall haccepts
      | refused added frame after _ _ _ _ => exact (by decide : (-1 : Int) ≠ 0)
      | waiting added after _ _ _ _ => exact (by decide : (-1 : Int) ≠ 0)
    rw [if_pos hret] at hsend
    exact readyReported_of_runEnd hsend hrun fun hzero => absurd hzero hret

/-- A call behind its wait reports its writes if and only if the last copy fits. -/
theorem readyReported_iff (hlen : packet.pData.length < 2 ^ 32) (packetsId : Byte)
    (noBuffers : Bool) :
    ReadyReported packet packetsId (openSocket results noBuffers) ↔
      ¬LastCopyOverruns packet.pData results := by
  by_cases hover : 1530 < packet.pData.length
  · have hend := @readyReported_overlong packet results hover hlen packetsId noBuffers
    split_ifs at hend with haccepts
    · refine iff_of_false ?_ (not_not.mpr ⟨hover, haccepts⟩)
      obtain ⟨fault, hfault⟩ := hend
      rintro ⟨sendEnd, nextId, after, hok, -⟩
      rw [hfault] at hok
      cases hok
    · exact iff_of_true hend fun h => haccepts h.2
  · refine iff_of_true ?_ fun h => hover h.1
    by_cases hshort : packet.pData.length ≤ canDataMaxLen
    · exact readyReported_short hshort packetsId noBuffers
    · exact readyReported_long ⟨Nat.lt_of_not_le hshort, Nat.le_of_not_lt hover⟩ packetsId noBuffers

end Call

/-- A call sends what it reports if and only if its ten turns do not all time out
and it does not get as far as a last copy that overruns. -/
theorem sentOrReported_iff (sockFd : Int) (selects : ℕ → SelectResult) (sId dId : Byte)
    (pdata : List Byte) (packetsId : Byte) (results : List WriteResult) (noBuffers : Bool)
    (hlen : pdata.length < 2 ^ 31) :
    SentOrReported sockFd selects sId dId pdata packetsId (openSocket results noBuffers) ↔
      sockFd = -1 ∨ ¬AllTimeOut selects ∧
        ¬(BecomesWritable selects ∧ LastCopyOverruns pdata results) := by
  by_cases hsock : sockFd = -1
  · refine iff_of_true ⟨.returned (-1), packetsId, openSocket results noBuffers, ?_,
      writesReported_of_none rfl (by decide), fun _ => ⟨-1, by decide, rfl⟩⟩ (Or.inl hsock)
    rw [sendCANData, if_pos hsock]
  rw [or_iff_right hsock, SentOrReported]
  rcases @sendCANData_cases sockFd selects sId dId pdata packetsId
    (openSocket results noBuffers) hsock with
    ⟨hall, hnever, hcall⟩ | ⟨htimeout, hwritable, hcall⟩ | ⟨htimeout, hnever, hcall⟩
  · rw [hcall]
    refine iff_of_false ?_ (fun h => h.1 hall)
    rintro ⟨sendEnd, nextId, after, hend, -, hfailed⟩
    obtain ⟨ret, hret, hreturned⟩ := hfailed hnever
    cases hend
    exact hret (SendEnd.returned.inj hreturned).symm
  · have hlen' : (sendPacket sId dId pdata).pData.length < 2 ^ 32 := by
      change pdata.length < 2 ^ 32
      omega
    have hready := @readyReported_iff _ results hlen' packetsId noBuffers
    rw [hcall]
    constructor
    · rintro ⟨sendEnd, nextId, after, hend, hwrites, -⟩
      exact ⟨htimeout, fun h => hready.mp ⟨sendEnd, nextId, after, hend, hwrites⟩ h.2⟩
    · intro h
      obtain ⟨sendEnd, nextId, after, hend, hwrites⟩ :=
        hready.mpr fun hover => h.2 ⟨hwritable, hover⟩
      exact ⟨sendEnd, nextId, after, hend, hwrites, fun hnever => absurd hwritable hnever⟩
  · rw [hcall]
    refine iff_of_true ⟨.returned (-1), packetsId, openSocket results noBuffers, rfl,
      writesReported_of_none rfl (by decide), fun _ => ⟨-1, by decide, rfl⟩⟩
      ⟨htimeout, fun h => hnever h.1⟩

/-- A message of two fragments, for which the first write finds no buffers. -/
def tenBytes : List Byte := [1, 2, 3, 4, 5, 6, 7, 8, 9, 10]

/-- The socket is writable in the second turn of the wait. -/
def secondTurn : ℕ → SelectResult
  | 0 => .timeout
  | _ => .ready

/-- Both fragments are written, the first one in its second write, and the call
returns zero. -/
theorem sentOrReported_iff_twoFragments :
    SentOrReported 3 secondTurn 0x41 0x10 tenBytes 0
        (openSocket [.enobufs, .success, .success] false) ∧
      ∃ nextId first second after,
        sendCANData 3 secondTurn 0x41 0x10 tenBytes 0
            (openSocket [.enobufs, .success, .success] false) =
          .ok (.returned 0, nextId, after) ∧
        (messagePackets (sendPacket 0x41 0x10 tenBytes) 0).filterMap flexcanSend =
          [first, second] ∧
        after.writes = [(first, .enobufs), (first, .success), (second, .success)] := by
  have hnot : ¬AllTimeOut secondTurn := fun h => SelectResult.noConfusion (h 1 (by decide))
  have hshort : ¬LastCopyOverruns tenBytes [.enobufs, .success, .success] :=
    fun h => absurd h.1 (by decide)
  refine ⟨(sentOrReported_iff 3 secondTurn 0x41 0x10 tenBytes 0 [.enobufs, .success, .success]
    false (by decide)).mpr (Or.inr ⟨hnot, fun h => hshort h.2⟩), ?_⟩
  exact ⟨_, _, _, _, rfl, rfl, rfl⟩

/-- A socket that never becomes writable: all turns time out, and the call
returns zero although nothing has been written. -/
theorem not_sentOrReported_timeout :
    ¬SentOrReported 3 (fun _ => .timeout) 0x41 0x10 [1, 2, 3] 0 (openSocket [.success] false) := by
  rintro ⟨sendEnd, nextId, after, hend, -, hfailed⟩
  have hcall : sendCANData 3 (fun _ => .timeout) 0x41 0x10 [1, 2, 3] 0
      (openSocket [.success] false) = .ok (.returned 0, 0, openSocket [.success] false) := rfl
  rw [hcall] at hend
  have hnever : ¬BecomesWritable fun _ => .timeout := by
    rintro ⟨i, -, -, hready⟩
    cases hready
  obtain ⟨ret, hret, hreturned⟩ := hfailed hnever
  cases hend
  exact hret (SendEnd.returned.inj hreturned).symm

end RobotOta.CanSend
