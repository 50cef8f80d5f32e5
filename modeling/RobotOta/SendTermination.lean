import RobotOta.CanSend
import Mathlib.Data.Set.Finite.Lattice
import Mathlib.Order.Interval.Finset.Nat

/-!
# The end of the sending loop

`_sendToCan` offers a packet again while `flexcan_send` is negative and `errno`
is `ENOBUFS`. A successful write leaves `errno` alone, and so does a packet that
`flexcan_send` refuses by itself. The loop is followed turn by turn here, against
an endless sequence of write results; a call that has not returned after a given
number of turns of one of its loops is cut off there.
-/

namespace RobotOta.SendTermination

open CanFrameCodec CanReassembly CanFragmentation FragmentationCapacity CanSend EventRun

/-- The line: how many writes have been made, and whether `errno` is `ENOBUFS`. -/
structure Line where
  /-- How many writes have been made. -/
  writes : ℕ
  /-- `errno` is `ENOBUFS`. -/
  noBuffers : Bool
  deriving DecidableEq

/-- The line behind one more write. -/
def Line.written (line : Line) : WriteResult → Int × Line
  | .success => (0, ⟨line.writes + 1, line.noBuffers⟩)
  | .enobufs => (-1, ⟨line.writes + 1, true⟩)
  | .error => (-1, ⟨line.writes + 1, false⟩)

/-- `flexcan_send` on the line: a packet without a frame is refused without a write. -/
def offer (results : ℕ → WriteResult) (canData : FlexcanPacket) (line : Line) : Int × Line :=
  match flexcanSend canData with
  | none => (-1, line)
  | some _ => line.written (results line.writes)

/-- The loop of `_sendToCan`, or nothing where it has not ended after so many turns. -/
def sendLoop (results : ℕ → WriteResult) (canData : FlexcanPacket) :
    (turns : ℕ) → Line → Option (Int × Line)
  | 0, _ => none
  | turns + 1, line =>
    let (ret, next) := offer results canData line
    if ret < 0 ∧ next.noBuffers = true then sendLoop results canData turns next
    else some (ret, next)

/-- `_sendToCan`, with nothing for the line from a loop on that has not ended. -/
def _sendToCan (results : ℕ → WriteResult) (turns : ℕ) (line : Option Line)
    (canData : FlexcanPacket) : Int × Option Line :=
  match line.bind (sendLoop results canData turns) with
  | none => (-1, none)
  | some (ret, next) => (ret, some next)

/-- What outlives a call: `g_PacketsId` and the line. -/
structure Sender where
  /-- `g_PacketsId`. -/
  packetsId : Byte
  /-- The line behind the last call. -/
  line : Line
  deriving DecidableEq

/-- Why a call does not come back. -/
inductive Stop where
  | fault (fault : MemoryFault)
  | looping
  deriving DecidableEq

/-- How a call ends on the line that its loops have left. -/
def callEnd (packetsId : Byte) : Option Line → Except Stop Sender
  | none => .error .looping
  | some line => .ok ⟨packetsId, line⟩

/-- One call of `sendToCan`. -/
def callStep (results : ℕ → WriteResult) (turns : ℕ) (sender : Sender) (packet : CanPacket) :
    Except Stop Sender :=
  match sendToCan (_sendToCan results turns) packet sender.packetsId (some sender.line) with
  | .error fault => .error (.fault fault)
  | .ok (_, packetsId, line) => callEnd packetsId line

/-- Calls one after the other. -/
def runCalls (results : ℕ → WriteResult) (turns : ℕ) (sender : Sender)
    (calls : List CanPacket) : Except Stop Sender :=
  runEvents (callStep results turns) sender calls

/-- The packet has no data, and `errno` is still `ENOBUFS`. -/
def Stuck (sender : Sender) (packet : CanPacket) : Prop :=
  packet.pData = [] ∧ sender.line.noBuffers = true

variable {results : ℕ → WriteResult} {canData : FlexcanPacket} {turns turns' : ℕ}
  {line next : Line} {sender after : Sender} {packet : CanPacket}

/-- One turn of the loop. -/
theorem sendLoop_succ (turns : ℕ) (line : Line) :
    sendLoop results canData (turns + 1) line =
      if (offer results canData line).1 < 0 ∧
          (offer results canData line).2.noBuffers = true then
        sendLoop results canData turns (offer results canData line).2
      else some (offer results canData line) := rfl

/-- A packet that is refused without a write is offered for ever where `errno`
is `ENOBUFS`. -/
theorem sendLoop_refused (hrefused : flexcanSend canData = none)
    (hbuffers : line.noBuffers = true) (turns : ℕ) :
    sendLoop results canData turns line = none := by
  have hoffer : offer results canData line = (-1, line) := by rw [offer, hrefused]
  induction turns with
  | zero => rfl
  | succ turns ih =>
    rw [sendLoop_succ, hoffer, if_pos ⟨neg_one_lt_zero, hbuffers⟩, ih]

/-- Otherwise it is given up at once. -/
theorem sendLoop_given_up (hrefused : flexcanSend canData = none)
    (hbuffers : line.noBuffers = false) (turns : ℕ) :
    sendLoop results canData (turns + 1) line = some (-1, line) := by
  have hoffer : offer results canData line = (-1, line) := by rw [offer, hrefused]
  rw [sendLoop_succ, hoffer, if_neg (by simp [hbuffers])]

/-- A frame is offered no longer than `ENOBUFS` comes back. -/
theorem sendLoop_ends {last : ℕ} (hlast : ∀ n, last ≤ n → results n ≠ .enobufs)
    (hframe : (flexcanSend canData).isSome) (hturns : last < turns + line.writes)
    (hpos : 1 ≤ turns) : ∃ ret next, sendLoop results canData turns line = some (ret, next) := by
  obtain ⟨frame, hframe⟩ := Option.isSome_iff_exists.mp hframe
  induction turns generalizing line with
  | zero => omega
  | succ turns ih =>
    have hoffer : offer results canData line = line.written (results line.writes) := by
      rw [offer, hframe]
    rw [sendLoop_succ, hoffer]
    cases hresult : results line.writes with
    | success => exact ⟨0, _, if_neg (by simp [Line.written])⟩
    | error => exact ⟨-1, _, if_neg (by simp [Line.written])⟩
    | enobufs =>
      have hbefore : line.writes < last := by
        by_contra hle
        exact hlast line.writes (Nat.le_of_not_lt hle) hresult
      obtain ⟨ret, next, hrest⟩ := @ih ⟨line.writes + 1, true⟩
        (by dsimp only; omega) (by omega)
      exact ⟨ret, next, hrest⟩

/-- The number of turns a loop is given does not matter once it has ended. -/
theorem sendLoop_agree {first second : Int × Line}
    (hfirst : sendLoop results canData turns line = some first)
    (hsecond : sendLoop results canData turns' line = some second) : first = second := by
  induction turns generalizing line turns' with
  | zero => cases hfirst
  | succ turns ih =>
    cases turns' with
    | zero => cases hsecond
    | succ turns' =>
      rw [sendLoop_succ] at hfirst hsecond
      by_cases hagain : (offer results canData line).1 < 0 ∧
          (offer results canData line).2.noBuffers = true
      · rw [if_pos hagain] at hfirst hsecond
        exact ih hfirst hsecond
      · rw [if_neg hagain] at hfirst hsecond
        exact Option.some.inj (hfirst.symm.trans hsecond)

/-- What a loop that has ended hands on. -/
theorem _sendToCan_some {ret : Int} (hloop : sendLoop results canData turns line =
    some (ret, next)) : _sendToCan results turns (some line) canData = (ret, some next) := by
  rw [_sendToCan, Option.bind_some, hloop]

/-- A message whose packets have a frame each is sent, up to the first of them
that fails for good. -/
theorem sendAll_ends {last : ℕ} (hlast : ∀ n, last ≤ n → results n ≠ .enobufs)
    {packets : List FlexcanPacket}
    (hframes : ∀ canData ∈ packets, (flexcanSend canData).isSome) (line : Line) :
    ∃ ret next, sendAll (_sendToCan results (last + 1)) packets (some line) =
      (ret, some next) := by
  induction packets generalizing line with
  | nil => exact ⟨0, line, rfl⟩
  | cons canData packets ih =>
    obtain ⟨ret, next, hloop⟩ := @sendLoop_ends _ _ (last + 1) line _ hlast
      (hframes canData List.mem_cons_self) (by omega) (by omega)
    rw [sendAll_cons, _sendToCan_some hloop]
    by_cases hret : ret ≠ 0
    · exact ⟨ret, next, if_pos hret⟩
    · rw [if_neg hret]
      exact ih (fun other hother => hframes other (List.mem_cons_of_mem _ hother)) next

/-- Two runs over a message that both end agree. -/
theorem sendAll_agree {packets : List FlexcanPacket} {ret ret' : Int} {line' : Line}
    (hfirst : sendAll (_sendToCan results turns) packets (some line) = (ret, some next))
    (hsecond : sendAll (_sendToCan results turns') packets (some line) = (ret', some line')) :
    next = line' := by
  induction packets generalizing line with
  | nil =>
    cases hfirst
    cases hsecond
    rfl
  | cons canData packets ih =>
    have hend : ∀ {n : ℕ} {ret : Int} {next : Line},
        sendAll (_sendToCan results n) (canData :: packets) (some line) = (ret, some next) →
          ∃ first, sendLoop results canData n line = some first := by
      intro n ret next hall
      rw [sendAll_cons, _sendToCan, Option.bind_some] at hall
      cases hloop : sendLoop results canData n line with
      | some first => exact ⟨first, rfl⟩
      | none =>
        rw [hloop] at hall
        cases hall
    obtain ⟨first, hloop⟩ := hend hfirst
    obtain ⟨second, hloop'⟩ := hend hsecond
    obtain rfl := sendLoop_agree hloop hloop'
    rw [sendAll_cons, _sendToCan_some hloop] at hfirst
    rw [sendAll_cons, _sendToCan_some hloop'] at hsecond
    by_cases hret : first.1 ≠ 0
    · rw [if_pos hret] at hfirst hsecond
      cases hfirst
      cases hsecond
      rfl
    · rw [if_neg hret] at hfirst hsecond
      exact ih hfirst hsecond

/-- `g_PacketsId` behind a call. -/
def nextPacketsId (packet : CanPacket) (packetsId : Byte) : Byte :=
  if packet.pData.length ≤ canDataMaxLen then packetsId else packetsId + 1

/-- A call with at most 1530 bytes hands the packets of its message to the loop,
one after the other. -/
theorem callStep_eq (hlen : packet.pData.length ≤ 1530) (turns : ℕ) (sender : Sender) :
    callStep results turns sender packet =
      callEnd (nextPacketsId packet sender.packetsId)
        (sendAll (_sendToCan results turns) (messagePackets packet sender.packetsId)
          (some sender.line)).2 := by
  by_cases hshort : packet.pData.length ≤ canDataMaxLen
  · rw [callStep, sendToCan, dif_pos hshort, messagePackets, dif_pos hshort, sendAll_singleton,
      nextPacketsId, if_pos hshort]
  · have hlong : LongLength packet.pData.length := by
      refine ⟨?_, hlen⟩
      have hmax : canDataMaxLen = 8 := rfl
      omega
    rw [callStep, sendToCan_long _ sender.packetsId hlong, messagePackets, dif_neg hshort,
      nextPacketsId, if_neg hshort]

/-- The packets of a message that has data have a frame each. -/
theorem isSome_flexcanSend_message (hdata : packet.pData ≠ [])
    (packetsId : Byte) :
    ∀ canData ∈ messagePackets packet packetsId, (flexcanSend canData).isSome := by
  rw [messagePackets]
  split_ifs with hshort
  · intro canData hmem
    rw [List.mem_singleton.mp hmem]
    exact isSome_flexcanSend ⟨List.length_pos_iff.mpr hdata, hshort⟩
  · exact isSome_flexcanSend_fragments packetsId le_rfl

/-- A message without data is a single packet that has no frame. -/
theorem messagePackets_empty (hdata : packet.pData = []) (packetsId : Byte) :
    ∃ canData, messagePackets packet packetsId = [canData] ∧ flexcanSend canData = none := by
  have hlength : packet.pData.length = 0 := by
    rw [hdata]
    rfl
  have hshort : packet.pData.length ≤ canDataMaxLen := by omega
  refine ⟨_, by rw [messagePackets, dif_pos hshort], ?_⟩
  rw [flexcanSend, dif_pos]
  exact Or.inl hlength.le

/-- With enough turns for every loop, a call comes back unless it is stuck. -/
theorem callStep_returns {last : ℕ} (hlast : ∀ n, last ≤ n → results n ≠ .enobufs)
    (hlen : packet.pData.length ≤ 1530) (hsound : ¬Stuck sender packet) :
    ∃ after, callStep results (last + 1) sender packet = .ok after := by
  rw [callStep_eq hlen]
  by_cases hdata : packet.pData = []
  · have hbuffers : sender.line.noBuffers = false := by
      by_contra h
      exact hsound ⟨hdata, Bool.eq_true_of_not_eq_false h⟩
    obtain ⟨canData, hpackets, hrefused⟩ := messagePackets_empty hdata sender.packetsId
    rw [hpackets, sendAll_singleton, _sendToCan_some (sendLoop_given_up hrefused hbuffers last)]
    exact ⟨_, rfl⟩
  · obtain ⟨ret, next, hall⟩ := sendAll_ends hlast
      (isSome_flexcanSend_message hdata sender.packetsId) sender.line
    rw [hall]
    exact ⟨_, rfl⟩

/-- A stuck call never comes back. -/
theorem callStep_stuck (hstuck : Stuck sender packet) (turns : ℕ) :
    callStep results turns sender packet = .error .looping := by
  obtain ⟨hdata, hbuffers⟩ := hstuck
  have hlen : packet.pData.length ≤ 1530 := by
    rw [hdata]
    exact Nat.zero_le _
  obtain ⟨canData, hpackets, hrefused⟩ := messagePackets_empty hdata sender.packetsId
  rw [callStep_eq hlen, hpackets, sendAll_singleton, _sendToCan, Option.bind_some,
    sendLoop_refused hrefused hbuffers]
  rfl

/-- Two calls from one state that both come back agree. -/
theorem callStep_agree (hlen : packet.pData.length ≤ 1530) {other : Sender}
    (hfirst : callStep results turns sender packet = .ok after)
    (hsecond : callStep results turns' sender packet = .ok other) : after = other := by
  rw [callStep_eq hlen] at hfirst hsecond
  have hsplit : ∀ {sent : Int × Option Line} {next : Sender} {packetsId : Byte},
      callEnd packetsId sent.2 = .ok next →
        sent = (sent.1, some next.line) ∧ packetsId = next.packetsId := by
    rintro ⟨ret, line⟩ next packetsId h
    cases line with
    | none => cases h
    | some line =>
      cases h
      exact ⟨rfl, rfl⟩
  obtain ⟨hline, hid⟩ := hsplit hfirst
  obtain ⟨hline', hid'⟩ := hsplit hsecond
  have hsame := sendAll_agree hline hline'
  cases after with
  | mk packetsId line =>
    cases other with
    | mk packetsId' line' =>
      dsimp only at hid hid' hsame
      rw [← hid, ← hid', hsame]

/-- So do runs of calls. -/
theorem runCalls_agree {calls : List CanPacket}
    (hlen : ∀ packet ∈ calls, packet.pData.length ≤ 1530) {other : Sender}
    (hfirst : runCalls results turns sender calls = .ok after)
    (hsecond : runCalls results turns' sender calls = .ok other) : after = other := by
  induction calls generalizing sender with
  | nil =>
    cases hfirst
    cases hsecond
    rfl
  | cons packet calls ih =>
    rw [runCalls, runEvents] at hfirst hsecond
    cases hstep : callStep results turns sender packet with
    | error stop =>
      rw [hstep] at hfirst
      cases hfirst
    | ok next =>
      cases hstep' : callStep results turns' sender packet with
      | error stop =>
        rw [hstep'] at hsecond
        cases hsecond
      | ok next' =>
        obtain rfl := callStep_agree (hlen packet List.mem_cons_self) hstep hstep'
        rw [hstep] at hfirst
        rw [hstep'] at hsecond
        exact ih (fun other hother => hlen other (List.mem_cons_of_mem _ hother)) hfirst hsecond

/-- With enough turns for every loop, a run without a stuck call comes back. -/
theorem runCalls_returns {last : ℕ} (hlast : ∀ n, last ≤ n → results n ≠ .enobufs)
    {calls : List CanPacket} (hlen : ∀ packet ∈ calls, packet.pData.length ≤ 1530)
    (hsound : ∀ seen packet rest before, calls = seen ++ packet :: rest →
      runCalls results (last + 1) sender seen = .ok before → ¬Stuck before packet) :
    ∃ after, runCalls results (last + 1) sender calls = .ok after := by
  obtain ⟨after, hrun, -⟩ := runEvents_prefix_invariant (callStep results (last + 1))
    (fun seen state => runCalls results (last + 1) sender seen = .ok state) rfl (by
      intro seen packet rest state hsplit hrun
      have hmem : packet ∈ calls := by
        rw [hsplit]
        exact List.mem_append_right _ List.mem_cons_self
      obtain ⟨next, hnext⟩ := callStep_returns hlast (hlen packet hmem)
        (hsound seen packet rest state hsplit hrun)
      exact ⟨next, hnext, runEvents_concat hrun hnext⟩)
    (List.append_nil calls).symm
  exact ⟨after, hrun⟩

/-- Where the line is busy only finitely often, every call comes back if and only
if none of them has an empty payload while `errno` is still `ENOBUFS`. -/
theorem callsReturn_iff (hfinite : {n | results n = .enobufs}.Finite) (sender : Sender)
    (calls : List CanPacket) (hlen : ∀ packet ∈ calls, packet.pData.length ≤ 1530) :
    (∃ turns after, runCalls results turns sender calls = .ok after) ↔
      ∀ seen packet rest turns before, calls = seen ++ packet :: rest →
        runCalls results turns sender seen = .ok before → ¬Stuck before packet := by
  constructor
  · rintro ⟨turns, after, hrun⟩ seen packet rest turns' before rfl hbefore hstuck
    rw [runCalls, runEvents_append] at hrun
    cases hseen : runEvents (callStep results turns) sender seen with
    | error stop =>
      rw [hseen] at hrun
      cases hrun
    | ok state =>
      have hsame : before = state := runCalls_agree
        (fun other hother => hlen other (List.mem_append_left _ hother)) hbefore hseen
      rw [hseen] at hrun
      dsimp only at hrun
      rw [runEvents, callStep_stuck (hsame ▸ hstuck)] at hrun
      cases hrun
  · intro hsound
    obtain ⟨bound, hbound⟩ := hfinite.bddAbove
    have hlast : ∀ n, bound + 1 ≤ n → results n ≠ .enobufs := by
      intro n hn hbusy
      have hle : n ≤ bound := hbound hbusy
      omega
    obtain ⟨after, hrun⟩ := runCalls_returns hlast hlen
      fun seen packet rest before hsplit hrun => hsound seen packet rest _ before hsplit hrun
    exact ⟨_, after, hrun⟩

/-- A line that is busy once, at the first write. -/
def busyOnce (n : ℕ) : WriteResult := if n = 0 then .enobufs else .success

theorem busyOnce_finite : {n | busyOnce n = .enobufs}.Finite := by
  refine (Set.finite_singleton 0).subset fun n hn => ?_
  by_contra hne
  have hsuccess : busyOnce n = .success := if_neg hne
  rw [Set.mem_ofPred_eq, hsuccess] at hn
  cases hn

/-- A message of one byte, then an empty one. -/
def emptyAfterByte : List CanPacket := [⟨3, 0x41, 0x10, [1]⟩, ⟨3, 0x41, 0x10, []⟩]

/-- In front of the first call `errno` is clear. -/
def clearSender : Sender := ⟨0, ⟨0, false⟩⟩

theorem callsReturn_iff_busyOnce :
    (∃ turns after, runCalls busyOnce turns clearSender emptyAfterByte = .ok after) ↔
      ∀ seen packet rest turns before, emptyAfterByte = seen ++ packet :: rest →
        runCalls busyOnce turns clearSender seen = .ok before → ¬Stuck before packet :=
  callsReturn_iff busyOnce_finite clearSender emptyAfterByte (by decide)

/-- The byte is sent at the second attempt, which leaves `ENOBUFS` behind, and
the empty message is offered for ever, on a line that accepts every frame. -/
theorem not_callsReturn_busyOnce :
    ¬((∀ packet ∈ emptyAfterByte, packet.pData.length ≤ 1530) →
      {n | busyOnce n = .enobufs}.Finite →
      ∃ turns after, runCalls busyOnce turns clearSender emptyAfterByte = .ok after) := by
  intro h
  obtain ⟨turns, after, hrun⟩ := h (by decide) busyOnce_finite
  have htwo : runCalls busyOnce 2 clearSender [⟨3, 0x41, 0x10, [1]⟩] = .ok ⟨0, ⟨2, true⟩⟩ := rfl
  rw [emptyAfterByte, runCalls, runEvents] at hrun
  cases hstep : callStep busyOnce turns clearSender ⟨3, 0x41, 0x10, [1]⟩ with
  | error stop =>
    rw [hstep] at hrun
    cases hrun
  | ok next =>
    have hone : runCalls busyOnce turns clearSender [⟨3, 0x41, 0x10, [1]⟩] = .ok next := by
      rw [runCalls, runEvents, hstep]
      rfl
    have hsame : next = ⟨0, ⟨2, true⟩⟩ := runCalls_agree (by decide) hone htwo
    rw [hstep] at hrun
    dsimp only at hrun
    rw [runEvents, hsame, callStep_stuck ⟨rfl, rfl⟩] at hrun
    cases hrun

/-- A loop over a frame that ends makes the writes of `writeFrame`, with the results
of as many writes as it had turns. -/
theorem sendLoop_writeFrame {ret : Int} {socket : Socket} {frame : CanFrame}
    (hframe : flexcanSend canData = some frame)
    (hloop : sendLoop results canData turns line = some (ret, next))
    (hbuffers : socket.noBuffers = line.noBuffers) :
    ∃ after, writeFrame frame ((List.range' line.writes turns).map results) socket =
        (ret, after) ∧
      after.noBuffers = next.noBuffers ∧ after.waiting = socket.waiting ∧
      after.writes.length = socket.writes.length + (next.writes - line.writes) ∧
      line.writes ≤ next.writes := by
  induction turns generalizing line socket with
  | zero => cases hloop
  | succ turns ih =>
    have hoffer : offer results canData line = line.written (results line.writes) := by
      rw [offer, hframe]
    rw [sendLoop_succ, hoffer] at hloop
    rw [List.range'_succ, List.map_cons]
    cases hresult : results line.writes with
    | success =>
      rw [hresult, Line.written, if_neg (by simp)] at hloop
      cases hloop
      exact ⟨_, rfl, hbuffers, rfl, by simp, by simp⟩
    | error =>
      rw [hresult, Line.written, if_neg (by simp)] at hloop
      cases hloop
      exact ⟨_, rfl, rfl, rfl, by simp, by simp⟩
    | enobufs =>
      rw [hresult, Line.written, if_pos (by simp)] at hloop
      obtain ⟨after, hafter, hnext, hwaiting, hwrites, hle⟩ := @ih _
        { socket with noBuffers := true, writes := socket.writes ++ [(frame, .enobufs)] }
        hloop rfl
      rw [List.length_append, List.length_singleton] at hwrites
      dsimp only at hwrites hle
      exact ⟨after, hafter, hnext, hwaiting, by omega, by omega⟩

/-- A loop that ends is the call of the model over a list of write results. -/
theorem sendLoop_refines {ret : Int} {socket : Socket}
    (hloop : sendLoop results canData turns line = some (ret, next))
    (hresults : socket.results = (List.range' line.writes turns).map results)
    (hbuffers : socket.noBuffers = line.noBuffers) :
    ∃ after, CanSend._sendToCan socket canData = (ret, after) ∧
      after.noBuffers = next.noBuffers ∧ after.waiting = socket.waiting ∧
      after.writes.length = socket.writes.length + (next.writes - line.writes) ∧
      line.writes ≤ next.writes := by
  cases hframe : flexcanSend canData with
  | none =>
    cases turns with
    | zero => cases hloop
    | succ turns =>
      cases hbusy : line.noBuffers with
      | true =>
        rw [sendLoop_refused hframe hbusy] at hloop
        cases hloop
      | false =>
        rw [sendLoop_given_up hframe hbusy] at hloop
        cases hloop
        rw [hbusy] at hbuffers
        refine ⟨socket, ?_, hbuffers.trans hbusy.symm, rfl, by omega, le_rfl⟩
        rw [CanSend._sendToCan, hframe]
        simp [hbuffers]
  | some frame =>
    have hcall : CanSend._sendToCan socket canData = writeFrame frame socket.results socket := by
      rw [CanSend._sendToCan, hframe]
    rw [hcall, hresults]
    exact sendLoop_writeFrame hframe hloop hbuffers

end RobotOta.SendTermination
