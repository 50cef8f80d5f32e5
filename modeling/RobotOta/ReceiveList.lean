import RobotOta.BoardUpgrade
import RobotOta.RecordedRun
import Mathlib.Data.List.ReduceOption

/-!
# Reading from the receive list

`readCANData` beside the receive thread. The two share `RecvList` under a
mutex, so the thread appends a packet in one step, and the reader looks at the
list, takes its first packet or reads its clock in one step. A schedule is any
order of such steps.
-/

namespace RobotOta.ReceiveList

open ByteBuffer CanFrameCodec CanReassembly BoardUpgrade RequestProgram

/-- A packet of `RecvList`: it has a first byte, and one block of memory holds it. -/
structure ListedPacket extends CanPacket where
  /-- It has a first byte. -/
  nonempty : 1 ≤ pData.length
  /-- Its length is an `int`. -/
  fits : pData.length < 2 ^ 31

/-- The arguments of `readCANData`. Behind a `pdata` that is not null there is
room for `len` bytes. -/
structure ReadCall where
  /-- The module whose packet is expected. -/
  expSId : Byte
  /-- The first byte that is expected. -/
  expMsgType : Byte
  /-- The number of bytes asked for. -/
  len : ℕ
  /-- The time to wait, in seconds. -/
  timeout : Int
  /-- The cells behind `pdata`, if it is not null. -/
  pdata : Option { cells : List Byte // len ≤ cells.length }

/-- The bytes behind `pdata`. -/
def ReadCall.cells (call : ReadCall) : Option (List Byte) := call.pdata.map Subtype.val

/-- The packet is the one that the call waits for. -/
def ReadCall.Expects (call : ReadCall) (packet : ListedPacket) : Prop :=
  expected call.expSId call.expMsgType packet.toCanPacket

instance (call : ReadCall) (packet : ListedPacket) : Decidable (call.Expects packet) :=
  inferInstanceAs (Decidable (expected _ _ _))

/-- Where the reader stands in `readCANData`. -/
inductive ReaderPc where
  /-- In front of `isRecvListEmpty`. -/
  | emptyCheck
  /-- In front of `popFromRecvList`, on a list that was not empty. -/
  | pop
  /-- In front of `time`, at the end of a round. -/
  | clock
  | returned (ret : Int)
  deriving DecidableEq

/-- The list, the reader and the bytes behind `pdata`. -/
structure ReadState where
  /-- The packets that wait. -/
  recvList : List ListedPacket
  /-- Where the reader stands. -/
  pc : ReaderPc
  /-- The cells behind `pdata`. -/
  pdata : Option (List Byte)

/-- `pushToRecvList`. -/
def pushToRecvList (packet : ListedPacket) (state : ReadState) : ReadState :=
  { state with recvList := state.recvList ++ [packet] }

/-- The number of bytes that are copied from a packet. -/
def copyLength (len : ℕ) (packet : ListedPacket) : ℕ :=
  if len < packet.pData.length then len else packet.pData.length

/-- `popFromRecvList` and what the reader does with its packet. -/
def popFromRecvList (call : ReadCall) (state : ReadState) : ReadState :=
  match state.recvList with
  | [] => { state with pc := .clock }
  | packet :: rest =>
    if call.Expects packet then
      { recvList := rest
        pc := .returned (BitVec.ofNat 32 packet.pData.length).toInt
        pdata := state.pdata.map fun cells =>
          memcpy cells 0 (packet.pData.take (copyLength call.len packet)) }
    else { state with recvList := rest, pc := .clock }

/-- The end of a round. -/
def readClock (call : ReadCall) (start now : Int) (state : ReadState) : ReadState :=
  if 0 < call.timeout then
    if call.timeout ≥ now - start then { state with pc := .emptyCheck }
    else { state with pc := .returned (-1) }
  else { state with pc := .emptyCheck }

/-- The reader's next step; `now` is the time if this step asks for it. -/
def readerStep (call : ReadCall) (start now : Int) (state : ReadState) : ReadState :=
  match state.pc with
  | .emptyCheck => { state with pc := if state.recvList.isEmpty then .clock else .pop }
  | .pop => popFromRecvList call state
  | .clock => readClock call start now state
  | .returned _ => state

/-- A step of one of the two threads. -/
inductive ListEvent where
  | push (packet : ListedPacket)
  | reader (now : Int)

/-- One step of a schedule. -/
def listStep (call : ReadCall) (start : Int) (state : ReadState) : ListEvent → ReadState
  | .push packet => pushToRecvList packet state
  | .reader now => readerStep call start now state

/-- `readCANData` up to its loop. -/
def beginRead (sockFd : Int) (call : ReadCall) (recvList : List ListedPacket) : ReadState where
  recvList := recvList
  pc :=
    if sockFd = -1 then .returned (-1)
    else if call.timeout < 0 then .returned (-1)
    else .emptyCheck
  pdata := call.cells

/-- The state after a schedule. -/
def readRun (sockFd : Int) (call : ReadCall) (start : Int) (recvList : List ListedPacket)
    (events : List ListEvent) : ReadState :=
  events.foldl (listStep call start) (beginRead sockFd call recvList)

/-- The packets that arrive during a schedule. -/
def pushedPackets (events : List ListEvent) : List ListedPacket :=
  events.filterMap fun
    | .push packet => some packet
    | .reader _ => none

/-- The buffer holds the first `n` bytes of a packet, and beyond them what it held. -/
def Holds (n : ℕ) (bytes cells cells' : List Byte) : Prop :=
  cells'.take n = bytes.take n ∧ cells'.drop n = cells.drop n ∧ cells'.length = cells.length

/-- The reader has taken the first packet it waits for and the ones in front of
it, and its result is that packet. -/
def TookFirst (call : ReadCall) (arrived : List ListedPacket) (after : ReadState) (ret : Int) :
    Prop :=
  ∃ before packet, arrived = before ++ packet :: after.recvList ∧
    (∀ other ∈ before, ¬call.Expects other) ∧ call.Expects packet ∧
    ret = packet.pData.length ∧
    match call.cells, after.pdata with
    | none, none => True
    | some cells, some cells' =>
      Holds (min call.len packet.pData.length) packet.pData cells cells'
    | _, _ => False

/-- The reader has taken none that it waits for, and nothing of the others. -/
def TookNone (call : ReadCall) (arrived : List ListedPacket) (after : ReadState) : Prop :=
  ∃ before, arrived = before ++ after.recvList ∧ (∀ other ∈ before, ¬call.Expects other) ∧
    after.pdata = call.cells

/-- How far a read has come with these answers of its pops. A call on a closed
socket, or with a negative timeout, gives up without any. -/
inductive Reading (sockFd : Int) (call : ReadCall) (arrived : List ListedPacket)
    (answers : List (Option ListedPacket)) : ReadState → Prop where
  | searching (state : ReadState) : sockFd ≠ -1 → ¬call.timeout < 0 →
    state.pc = .emptyCheck ∨ state.pc = .pop ∨ state.pc = .clock ∧ answers ≠ [] →
    arrived = answers.reduceOption ++ state.recvList → state.pdata = call.cells →
    Reading sockFd call arrived answers state
  | gaveUp (state : ReadState) : state.pc = .returned (-1) →
    (sockFd = -1 ∨ call.timeout < 0) ∧ answers = [] ∨ sockFd ≠ -1 ∧ answers ≠ [] →
    arrived = answers.reduceOption ++ state.recvList → state.pdata = call.cells →
    Reading sockFd call arrived answers state
  | took (packet : ListedPacket) (state : ReadState) : sockFd ≠ -1 → call.Expects packet →
    state.pc = .returned packet.pData.length →
    arrived = answers.reduceOption ++ packet :: state.recvList →
    state.pdata = call.cells.map (fun cells =>
      memcpy cells 0 (packet.pData.take (copyLength call.len packet))) →
    Reading sockFd call arrived answers state

/-- None of the answers is the packet that the call waits for. -/
def Misses (call : ReadCall) (answers : List (Option ListedPacket)) : Prop :=
  ∀ packet ∈ answers.reduceOption, ¬call.Expects packet

section Steps

variable {sockFd start : Int} {call : ReadCall} {arrived : List ListedPacket}
  {answers : List (Option ListedPacket)} {state : ReadState}

/-- The length of a packet is its return value. -/
theorem returned_length (packet : ListedPacket) :
    (BitVec.ofNat 32 packet.pData.length).toInt = packet.pData.length := by
  have hfits := packet.fits
  have hlen : (BitVec.ofNat 32 packet.pData.length).toNat = packet.pData.length := by
    rw [BitVec.toNat_ofNat]
    omega
  rw [BitVec.toInt_eq_toNat_of_lt (by omega), hlen]

/-- A packet that arrives is the last one in the list. -/
theorem reading_push (h : Reading sockFd call arrived answers state) (packet : ListedPacket) :
    Reading sockFd call (arrived ++ [packet]) answers (pushToRecvList packet state) := by
  cases h with
  | searching _ hsock htimeout hpc harrived hpdata =>
    refine .searching _ hsock htimeout hpc ?_ hpdata
    rw [harrived, List.append_assoc]
    rfl
  | gaveUp _ hpc hwhy harrived hpdata =>
    refine .gaveUp _ hpc hwhy ?_ hpdata
    rw [harrived, List.append_assoc]
    rfl
  | took first _ hsock hexpects hpc harrived hpdata =>
    refine .took first _ hsock hexpects hpc ?_ hpdata
    rw [harrived, List.append_assoc]
    rfl

/-- A further answer that is not the packet. -/
theorem Misses.snoc (h : Misses call answers) {answer : Option ListedPacket}
    (hanswer : ∀ packet, answer = some packet → ¬call.Expects packet) :
    Misses call (answers ++ [answer]) := by
  intro packet hpacket
  rw [List.reduceOption_append, List.mem_append] at hpacket
  rcases hpacket with hpacket | hpacket
  · exact h packet hpacket
  · exact hanswer packet (by simpa [List.reduceOption_mem_iff, eq_comm] using hpacket)

/-- A pop takes the packet that the call waits for, or another one, or none. -/
theorem reading_pop (hsock : sockFd ≠ -1) (htimeout : ¬call.timeout < 0)
    (harrived : arrived = answers.reduceOption ++ state.recvList)
    (hpdata : state.pdata = call.cells) (hmisses : Misses call answers) :
    ∃ answers', Reading sockFd call arrived answers' (popFromRecvList call state) ∧
      Misses call answers' := by
  unfold popFromRecvList
  cases hlist : state.recvList with
  | nil =>
    rw [hlist] at harrived
    refine ⟨answers ++ [none], .searching _ hsock htimeout (Or.inr (Or.inr ⟨rfl, by simp⟩)) ?_
      hpdata, hmisses.snoc fun packet hpacket => by cases hpacket⟩
    rw [List.reduceOption_append, List.reduceOption_cons_of_none, List.reduceOption_nil,
      List.append_nil]
    exact harrived
  | cons packet rest =>
    rw [hlist] at harrived
    dsimp only
    by_cases hexpects : call.Expects packet
    · rw [if_pos hexpects]
      refine ⟨answers, .took packet _ hsock hexpects ?_ harrived ?_, hmisses⟩
      · rw [returned_length]
      · rw [hpdata]
    · rw [if_neg hexpects]
      refine ⟨answers ++ [some packet],
        .searching _ hsock htimeout (Or.inr (Or.inr ⟨rfl, by simp⟩)) ?_ hpdata,
        hmisses.snoc fun other hother => ?_⟩
      · rw [List.reduceOption_append, List.reduceOption_cons_of_some, List.reduceOption_nil,
          List.append_assoc]
        exact harrived
      · obtain rfl := Option.some.inj hother
        exact hexpects

/-- The clock sends the reader into another round, or away. -/
theorem reading_clock (hsock : sockFd ≠ -1) (htimeout : ¬call.timeout < 0)
    (hsome : answers ≠ []) (harrived : arrived = answers.reduceOption ++ state.recvList)
    (hpdata : state.pdata = call.cells) (start now : Int) :
    Reading sockFd call arrived answers (readClock call start now state) := by
  unfold readClock
  split_ifs
  · exact .searching _ hsock htimeout (Or.inl rfl) harrived hpdata
  · exact .gaveUp _ rfl (Or.inr ⟨hsock, hsome⟩) harrived hpdata
  · exact .searching _ hsock htimeout (Or.inl rfl) harrived hpdata

/-- A step of the reader on its way leads on, to the packet, or to its end. -/
theorem reading_readerStep (h : Reading sockFd call arrived answers state)
    (hmisses : Misses call answers) (start now : Int) :
    ∃ answers', Reading sockFd call arrived answers' (readerStep call start now state) ∧
      Misses call answers' := by
  cases h with
  | gaveUp _ hpc hwhy harrived hpdata =>
    rw [readerStep, hpc]
    exact ⟨answers, .gaveUp _ hpc hwhy harrived hpdata, hmisses⟩
  | took packet _ hsock hexpects hpc harrived hpdata =>
    rw [readerStep, hpc]
    exact ⟨answers, .took packet _ hsock hexpects hpc harrived hpdata, hmisses⟩
  | searching _ hsock htimeout hpc harrived hpdata =>
    rcases hpc with hpc | hpc | ⟨hpc, hsome⟩
    · rw [readerStep, hpc]
      dsimp only
      split_ifs
      · refine ⟨answers ++ [none], .searching _ hsock htimeout (Or.inr (Or.inr ⟨rfl, by simp⟩)) ?_
          hpdata, hmisses.snoc fun packet hpacket => by cases hpacket⟩
        rw [List.reduceOption_append, List.reduceOption_cons_of_none, List.reduceOption_nil,
          List.append_nil]
        exact harrived
      · exact ⟨answers, .searching _ hsock htimeout (Or.inr (Or.inl rfl)) harrived hpdata, hmisses⟩
    · rw [readerStep, hpc]
      exact reading_pop hsock htimeout harrived hpdata hmisses
    · rw [readerStep, hpc]
      exact ⟨answers, reading_clock hsock htimeout hsome harrived hpdata start now, hmisses⟩

/-- A step of a schedule keeps the reader on its way. -/
theorem reading_listStep (h : Reading sockFd call arrived answers state)
    (hmisses : Misses call answers) (start : Int) (event : ListEvent) :
    ∃ answers', Reading sockFd call (arrived ++ pushedPackets [event]) answers'
      (listStep call start state event) ∧ Misses call answers' := by
  cases event with
  | push packet => exact ⟨answers, reading_push h packet, hmisses⟩
  | reader now =>
    rw [pushedPackets, List.filterMap_cons_none rfl, List.filterMap_nil, List.append_nil]
    exact reading_readerStep h hmisses start now

/-- The reader starts with what is in the list. -/
theorem reading_beginRead (sockFd : Int) (call : ReadCall) (recvList : List ListedPacket) :
    Reading sockFd call recvList [] (beginRead sockFd call recvList) := by
  by_cases hsock : sockFd = -1
  · exact .gaveUp _ (if_pos hsock) (Or.inl ⟨Or.inl hsock, rfl⟩) rfl rfl
  · by_cases htimeout : call.timeout < 0
    · refine .gaveUp _ ?_ (Or.inl ⟨Or.inr htimeout, rfl⟩) rfl rfl
      rw [beginRead, if_neg hsock, if_pos htimeout]
    · refine .searching _ hsock htimeout (Or.inl ?_) rfl rfl
      rw [beginRead, if_neg hsock, if_neg htimeout]

/-- A whole schedule keeps the reader on its way. -/
theorem reading_readRun (sockFd : Int) (call : ReadCall) (start : Int)
    (recvList : List ListedPacket) (events : List ListEvent) :
    ∃ answers, Reading sockFd call (recvList ++ pushedPackets events) answers
      (readRun sockFd call start recvList events) ∧ Misses call answers := by
  induction events using List.reverseRecOn with
  | nil =>
    refine ⟨[], ?_, fun packet hpacket => by cases hpacket⟩
    rw [pushedPackets, List.filterMap_nil, List.append_nil]
    exact reading_beginRead sockFd call recvList
  | append_singleton events event ih =>
    obtain ⟨answers, hreading, hmisses⟩ := ih
    rw [readRun, List.foldl_append, pushedPackets, List.filterMap_append, ← List.append_assoc]
    exact reading_listStep hreading hmisses start event

/-- The copy of a packet holds its first bytes. -/
theorem holds_memcpy {len : ℕ} (packet : ListedPacket) {cells : List Byte}
    (hroom : len ≤ cells.length) :
    Holds (min len packet.pData.length) packet.pData cells
      (memcpy cells 0 (packet.pData.take (copyLength len packet))) := by
  have hcopy : copyLength len packet = min len packet.pData.length := by
    unfold copyLength
    split_ifs <;> omega
  have hblock : (packet.pData.take (copyLength len packet)).length =
      min len packet.pData.length := by
    rw [hcopy, List.length_take]
    omega
  have htake := take_memcpy_zero cells (packet.pData.take (copyLength len packet))
  rw [hblock] at htake
  refine ⟨by rw [htake, hcopy], ?_, length_memcpy (by omega)⟩
  rw [memcpy_zero, hblock]
  exact List.drop_left' hblock

end Steps

/-- A read that returns has either taken the first packet it waits for, with the
ones in front of it, and returns its length, or has taken none and returns -1. -/
theorem readRun_firstMatch (sockFd : Int) (call : ReadCall) (start : Int)
    (recvList : List ListedPacket) (events : List ListEvent) (ret : Int)
    (hreturned : (readRun sockFd call start recvList events).pc = .returned ret) :
    (0 ≤ ret → TookFirst call (recvList ++ pushedPackets events)
      (readRun sockFd call start recvList events) ret) ∧
    (ret = -1 → TookNone call (recvList ++ pushedPackets events)
      (readRun sockFd call start recvList events)) ∧
    (0 ≤ ret ∨ ret = -1) := by
  obtain ⟨answers, hreading, hmisses⟩ := reading_readRun sockFd call start recvList events
  generalize readRun sockFd call start recvList events = after at hreading hreturned
  cases hreading with
  | searching _ _ _ hpc _ _ =>
    rcases hpc with hpc | hpc | ⟨hpc, -⟩ <;> exact absurd (hpc.symm.trans hreturned) (by simp)
  | gaveUp _ hpc _ harrived hpdata =>
    obtain rfl : -1 = ret := ReaderPc.returned.inj (hpc.symm.trans hreturned)
    exact ⟨fun h => absurd h (by decide), fun _ => ⟨_, harrived, hmisses, hpdata⟩, Or.inr rfl⟩
  | took packet _ _ hexpects hpc harrived hpdata =>
    obtain rfl : (packet.pData.length : Int) = ret :=
      ReaderPc.returned.inj (hpc.symm.trans hreturned)
    refine ⟨fun _ => ⟨_, packet, harrived, hmisses, hexpects, rfl, ?_⟩, fun h => by omega,
      Or.inl (by omega)⟩
    rw [hpdata, ReadCall.cells]
    cases call.pdata with
    | none => trivial
    | some cells => exact holds_memcpy packet cells.2

/-- A call with room for three bytes. -/
def answerCall : ReadCall where
  expSId := 0x21
  expMsgType := 0x31
  len := 3
  timeout := 1
  pdata := some ⟨[0, 0, 0, 7], by decide⟩

/-- A packet of the expected type from another module. -/
def foreignPacket : ListedPacket :=
  { priority := 3, srcId := 0x22, dstId := 0x10, pData := [0x31], nonempty := by decide,
    fits := by decide }

/-- The answer. -/
def answerPacket : ListedPacket :=
  { priority := 3, srcId := 0x21, dstId := 0x10, pData := [0x31, 2], nonempty := by decide,
    fits := by decide }

/-- The answer arrives while the reader drops another packet. -/
def lateSchedule : List ListEvent :=
  [.reader 0, .reader 0, .push answerPacket, .reader 1, .reader 1, .reader 1, .push foreignPacket]

/-- The read returns the length of the answer, behind the packet dropped and in
front of the one that comes later. -/
theorem readRun_firstMatch_late :
    (readRun 3 answerCall 0 [foreignPacket] lateSchedule).pc = .returned 2 ∧
      (0 ≤ (2 : Int) → TookFirst answerCall ([foreignPacket] ++ pushedPackets lateSchedule)
        (readRun 3 answerCall 0 [foreignPacket] lateSchedule) 2) ∧
      ((2 : Int) = -1 → TookNone answerCall ([foreignPacket] ++ pushedPackets lateSchedule)
        (readRun 3 answerCall 0 [foreignPacket] lateSchedule)) ∧
      (0 ≤ (2 : Int) ∨ (2 : Int) = -1) :=
  ⟨rfl, readRun_firstMatch 3 answerCall 0 [foreignPacket] lateSchedule 2 rfl⟩

/-- A clock that has run out ends the read within a round. -/
theorem returns_of_expired {call : ReadCall} {start now : Int} (htimeout : 0 < call.timeout)
    (hnow : call.timeout < now - start) (state : ReadState) :
    ∃ ret, (readerStep call start now
      (readerStep call start now (readerStep call start now state))).pc = .returned ret := by
  have hstay : ∀ state ret, state.pc = .returned ret →
      (readerStep call start now state).pc = .returned ret := by
    intro state ret hpc
    rw [readerStep, hpc]
    exact hpc
  have hclock : ∀ state, state.pc = .clock →
      (readerStep call start now state).pc = .returned (-1) := by
    intro state hpc
    rw [readerStep, hpc]
    dsimp only
    rw [readClock, if_pos htimeout, if_neg (by omega)]
  have hpop : ∀ state, state.pc = .pop → ∃ ret,
      (readerStep call start now (readerStep call start now state)).pc = .returned ret := by
    intro state hpc
    have hone : readerStep call start now state = popFromRecvList call state := by
      rw [readerStep, hpc]
    rw [hone]
    unfold popFromRecvList
    split
    · exact ⟨-1, hclock _ rfl⟩
    · split_ifs
      · exact ⟨_, hstay _ _ rfl⟩
      · exact ⟨-1, hclock _ rfl⟩
  cases hpc : state.pc with
  | returned ret => exact ⟨ret, hstay _ _ (hstay _ _ (hstay _ _ hpc))⟩
  | clock => exact ⟨-1, hstay _ _ (hstay _ _ (hclock _ hpc))⟩
  | pop =>
    obtain ⟨ret, hret⟩ := hpop state hpc
    exact ⟨ret, hstay _ _ hret⟩
  | emptyCheck =>
    have hone : readerStep call start now state =
        { state with pc := if state.recvList.isEmpty then .clock else .pop } := by
      rw [readerStep, hpc]
    rw [hone]
    split_ifs
    · exact ⟨-1, hstay _ _ (hclock _ rfl)⟩
    · exact hpop _ rfl

section Upgrade

/-- What a pop answers the program of the upgrade. -/
def popEvent (call : ReadCall) (answer : Option ListedPacket) :
    Event UpdateRequest UpdateAnswer :=
  ⟨.popFromRecvList call.expSId call.expMsgType, answer.map ListedPacket.toCanPacket⟩

variable {call : ReadCall}

/-- An answer that the call does not wait for ends the round. -/
theorem records_readRound_miss {answer : Option ListedPacket}
    (hmiss : ∀ packet, answer = some packet → ¬call.Expects packet)
    {otherwise : UpdateM (Int × List Byte)} {result : Int × List Byte}
    {record : List (Event UpdateRequest UpdateAnswer)} (h : Records otherwise result record) :
    Records (readRound call.expSId call.expMsgType call.len otherwise) result
      (popEvent call answer :: record) := by
  refine records_of_request ?_
  cases answer with
  | none => exact h
  | some packet =>
    have hnot : ¬expected call.expSId call.expMsgType packet.toCanPacket := hmiss packet rfl
    change Records (if expected call.expSId call.expMsgType packet.toCanPacket then _ else _) _ _
    rw [if_neg hnot]
    exact h

/-- The packet that it waits for ends the read. -/
theorem records_readRound_took {packet : ListedPacket} (hexpects : call.Expects packet)
    (otherwise : UpdateM (Int × List Byte)) :
    Records (readRound call.expSId call.expMsgType call.len otherwise)
      (packet.pData.length, packet.pData.take call.len) [popEvent call (some packet)] := by
  refine records_of_request ?_
  have hyes : expected call.expSId call.expMsgType packet.toCanPacket := hexpects
  change Records (if expected call.expSId call.expMsgType packet.toCanPacket then _ else _) _ _
  rw [if_pos hyes]
  exact Exec.pure

/-- Answers that the call does not wait for lead its loop from round to round. -/
theorem records_readLoop {answers : List (Option ListedPacket)}
    (hmisses : ∀ answer ∈ answers, ∀ packet, answer = some packet → ¬call.Expects packet)
    {rounds : ℕ} {result : Int × List Byte} {record : List (Event UpdateRequest UpdateAnswer)}
    (h : Records (readLoop call.expSId call.expMsgType call.len rounds) result record) :
    Records (readLoop call.expSId call.expMsgType call.len (answers.length + rounds)) result
      (answers.map (popEvent call) ++ record) := by
  induction answers with
  | nil =>
    rw [List.length_nil, Nat.zero_add]
    exact h
  | cons answer answers ih =>
    rw [List.length_cons, Nat.succ_add]
    exact records_readRound_miss (hmisses answer List.mem_cons_self)
      (ih fun other hother => hmisses other (List.mem_cons_of_mem _ hother))

/-- The packets that a record of the program has popped. -/
def poppedPackets (record : List (Event UpdateRequest UpdateAnswer)) : List CanPacket :=
  record.filterMap fun
    | ⟨.popFromRecvList _ _, some packet⟩ => some packet
    | _ => none

theorem poppedPackets_popEvent (answers : List (Option ListedPacket)) :
    poppedPackets (answers.map (popEvent call)) =
      answers.reduceOption.map ListedPacket.toCanPacket := by
  induction answers with
  | nil => rfl
  | cons answer answers ih =>
    cases answer with
    | none => exact ih
    | some packet =>
      rw [List.reduceOption_cons_of_some, List.map_cons, List.map_cons, ← ih]
      rfl

/-- Only the loop of a read pops packets. -/
theorem poppedPackets_loop (sockFd : Int) (timeout rounds : ℕ)
    (record : List (Event UpdateRequest UpdateAnswer)) :
    poppedPackets (⟨.sockFd, sockFd⟩ :: ⟨.waitRounds timeout, rounds⟩ :: record) =
      poppedPackets record := rfl

/-- On an open socket the program is its loop. -/
theorem records_readCANData {sockFd : Int} (hsock : sockFd ≠ -1) (timeout : ℕ) {rounds : ℕ}
    {result : Int × List Byte} {record : List (Event UpdateRequest UpdateAnswer)}
    (h : Records (readLoop call.expSId call.expMsgType call.len rounds) result record) :
    Records (BoardUpgrade.readCANData call.expSId call.expMsgType call.len timeout) result
      (⟨.sockFd, sockFd⟩ :: ⟨.waitRounds timeout, rounds⟩ :: record) := by
  refine records_of_request ?_
  change Records (if sockFd = -1 then _ else _) _ _
  rw [if_neg hsock]
  exact records_of_request h

/-- Every schedule under which the read returns is a run of the read that the
upgrade makes: with the same result, the same packets popped and the bytes that
are copied. -/
theorem readRun_refines {sockFd start : Int} {timeout : ℕ} (htimeout : call.timeout = timeout)
    {recvList : List ListedPacket} {events : List ListEvent} {ret : Int}
    (hreturned : (readRun sockFd call start recvList events).pc = .returned ret) :
    ∃ bytes record,
      Records (BoardUpgrade.readCANData call.expSId call.expMsgType call.len timeout) (ret, bytes)
        record ∧
      (recvList ++ pushedPackets events).map ListedPacket.toCanPacket = poppedPackets record ++
        (readRun sockFd call start recvList events).recvList.map ListedPacket.toCanPacket ∧
      (readRun sockFd call start recvList events).pdata =
        call.cells.map fun cells => memcpy cells 0 bytes := by
  obtain ⟨answers, hreading, hmisses⟩ := reading_readRun sockFd call start recvList events
  have hmiss : ∀ answer ∈ answers, ∀ packet, answer = some packet → ¬call.Expects packet := by
    rintro answer hanswer packet rfl
    exact hmisses packet (List.reduceOption_mem_iff.mpr hanswer)
  generalize readRun sockFd call start recvList events = after at hreading hreturned ⊢
  cases hreading with
  | searching _ _ _ hpc _ _ =>
    rcases hpc with hpc | hpc | ⟨hpc, -⟩ <;> exact absurd (hpc.symm.trans hreturned) (by simp)
  | gaveUp _ hpc hwhy harrived hpdata =>
    obtain rfl : -1 = ret := ReaderPc.returned.inj (hpc.symm.trans hreturned)
    have hsame : after.pdata = call.cells.map fun cells => memcpy cells 0 [] := by
      rw [hpdata]
      cases call.cells with
      | none => rfl
      | some cells => exact congrArg some (memcpy_zero cells []).symm
    rcases hwhy with ⟨hclosed, rfl⟩ | ⟨hsock, hsome⟩
    · have hsock : sockFd = -1 := hclosed.resolve_right (by omega)
      refine ⟨[], [⟨.sockFd, (-1 : Int)⟩], records_of_request ?_, ?_, hsame⟩
      · exact Exec.pure
      · rw [harrived]
        rfl
    · -- the round behind the last answer is the last one before the timeout
      obtain ⟨earlier, last, rfl⟩ := (List.eq_nil_or_concat' answers).resolve_left hsome
      have hlast : Records (readLoop call.expSId call.expMsgType call.len 0) (-1, [])
          [popEvent call last] :=
        records_readRound_miss (hmiss last (by simp)) Exec.pure
      have hloop := records_readLoop (fun answer hanswer =>
        hmiss answer (List.mem_append_left _ hanswer)) hlast
      refine ⟨[], _, records_readCANData hsock timeout hloop, ?_, hsame⟩
      rw [poppedPackets_loop, ← List.map_singleton, ← List.map_append, poppedPackets_popEvent,
        harrived, List.map_append]
  | took packet _ hsock hexpects hpc harrived hpdata =>
    obtain rfl : (packet.pData.length : Int) = ret :=
      ReaderPc.returned.inj (hpc.symm.trans hreturned)
    have hlast : Records (readLoop call.expSId call.expMsgType call.len 0)
        (packet.pData.length, packet.pData.take call.len) [popEvent call (some packet)] :=
      records_readRound_took hexpects _
    refine ⟨_, _, records_readCANData hsock timeout (records_readLoop hmiss hlast), ?_, ?_⟩
    · rw [poppedPackets_loop, ← List.map_singleton, ← List.map_append, poppedPackets_popEvent,
        harrived, List.reduceOption_append, List.map_append, List.map_append]
      simp
    · have hcopy : packet.pData.take (copyLength call.len packet) = packet.pData.take call.len := by
        unfold copyLength
        split_ifs with hlong
        · rfl
        · rw [List.take_length, List.take_of_length_le (Nat.le_of_not_lt hlong)]
      rw [hpdata, hcopy]

end Upgrade

end RobotOta.ReceiveList
