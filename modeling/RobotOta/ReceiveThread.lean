import RobotOta.CanReassembly

/-!
# The receive thread of the CAN device

`openCANDevice`, `closeCANDevice` and `thread_recv`, one access to a shared
variable at a time, in any order of the threads. Between an open and a close the
caller takes packets; the bytes on the bus and the outcomes of the system calls
are arbitrary. A move of a thread that is blocked or gone changes nothing. A
thread is in the middle of `recvFromCan` from the read of a frame to the end of its
handling; a clear of the fragments that falls between is a data race. The accesses to
the plain variables `sock_fd` and `g_flag` count as atomic.
-/

namespace RobotOta.ReceiveThread

open CanFrameCodec DocumentedSort EventRun CanReassembly

/-- What a receive thread does next. -/
inductive RecvPc where
  /-- `g_flag = true` -/
  | setFlag
  /-- `while (g_flag)` -/
  | testFlag
  /-- `FD_SET(sock_fd, &rfd)` -/
  | setFd
  /-- `select(sock_fd + 1, ..)` -/
  | select
  /-- `FD_ISSET(sock_fd, &rfd)` -/
  | isSet
  /-- `recvFromCan()`, up to the frame it reads. -/
  | receive
  /-- The rest of `recvFromCan()`. -/
  | handle (frame : CanFrame)
  | exited
  deriving DecidableEq

/-- What the caller of the device does next. -/
inductive MainPc where
  /-- `sock_fd = flexcan_device_open()` -/
  | deviceOpen
  /-- `pthread_create` -/
  | create
  /-- `InCompletePackets.clear()` -/
  | clearPackets
  /-- `pthread_mutex_init` -/
  | mutexInit
  /-- The device is in use; `closeCANDevice` begins with `sock_fd = -1`. -/
  | opened
  /-- `flexcan_device_close()` -/
  | deviceClose
  /-- `g_flag = false` -/
  | clearFlag
  /-- `pthread_join` -/
  | join
  /-- `pthread_mutex_destroy` -/
  | mutexDestroy
  deriving DecidableEq

/-- The states of `list_mutex`. -/
inductive MutexState where
  | unset
  | ready
  | destroyed
  deriving DecidableEq

/-- The variables the threads share, and where each thread is. -/
structure DeviceState where
  /-- Where the caller is. -/
  main : MainPc
  /-- Where each thread is that was ever created. -/
  threads : List RecvPc
  /-- `g_recvThread`: the last thread created. -/
  gRecvThread : Option ℕ
  /-- `sock_fd`. -/
  sockFd : Int
  /-- `g_flag`. -/
  gFlag : Bool
  /-- `list_mutex`. -/
  listMutex : MutexState
  /-- `InCompletePackets` and `RecvList`. -/
  recv : RecvState

/-- As the program starts. -/
def DeviceState.initial : DeviceState :=
  ⟨.deviceOpen, [], none, -1, true, .unset, emptyState⟩

/-- What a receive thread is told. -/
structure RecvAnswer where
  /-- The result of `select`. -/
  ret : Int
  /-- The result of `FD_ISSET`. -/
  isSet : Bool
  /-- The frame, unless the read fails. -/
  frame : Option CanFrame

/-- Undefined behaviour of the threads. -/
inductive DeviceFault where
  /-- `FD_SET` or `FD_ISSET` of a negative descriptor. -/
  | badDescriptor
  /-- The fragments are cleared while a thread puts one there. -/
  | clearRace
  /-- A frame is handled beyond a buffer. -/
  | memory (fault : MemoryFault)
  deriving DecidableEq

/-- The moves of the threads. `none` is an open or a `pthread_create` that fails. -/
inductive Move where
  | main (answer : Option ℕ)
  | pop
  | recv (thread : ℕ) (answer : RecvAnswer)

section Steps

variable (ids : ReceiverIds) (sorter : KeySort packetKey) (size : ℕ)

/-- The caller waits in `pthread_join` until the last thread created has exited. -/
def DeviceState.joined (state : DeviceState) : Prop :=
  (state.gRecvThread.bind fun thread => state.threads[thread]?) = some .exited

instance (state : DeviceState) : Decidable state.joined := inferInstanceAs (Decidable (_ = _))

/-- The frame goes into `InCompletePackets`. -/
def isFragment (frame : CanFrame) : Bool :=
  (addressedPacket ids frame).any fun canData => canData.sum ≠ 0

/-- The thread is putting a fragment into `InCompletePackets`. -/
def RecvPc.fills : RecvPc → Bool
  | .handle frame => isFragment ids frame
  | _ => false

/-- The step of the caller is a data race. -/
def DeviceState.races (state : DeviceState) : Prop :=
  state.main = .clearPackets ∧ state.threads.any (RecvPc.fills ids) = true

instance (state : DeviceState) : Decidable (state.races ids) :=
  inferInstanceAs (Decidable (_ ∧ _))

/-- A step of `openCANDevice` or `closeCANDevice`. -/
def mainStep (state : DeviceState) (answer : Option ℕ) : DeviceState :=
  match state.main with
  | .deviceOpen =>
    match answer with
    | none => { state with sockFd := -1 }
    | some fd => { state with sockFd := fd, main := .create }
  | .create =>
    match answer with
    -- The socket stays open.
    | none => { state with main := .deviceOpen }
    | some _ =>
      { state with
        threads := state.threads ++ [.setFlag]
        gRecvThread := some state.threads.length
        main := .clearPackets }
  | .clearPackets =>
    { state with recv := ⟨fun _ => none, state.recv.recvList⟩, main := .mutexInit }
  | .mutexInit => { state with listMutex := .ready, main := .opened }
  | .opened => { state with sockFd := -1, main := .deviceClose }
  | .deviceClose => { state with main := .clearFlag }
  | .clearFlag => { state with gFlag := false, main := .join }
  | .join => if state.joined then { state with main := .mutexDestroy } else state
  | .mutexDestroy => { state with listMutex := .destroyed, main := .deviceOpen }

/-- `popFromRecvList`, while the device is in use. -/
def popStep (state : DeviceState) : DeviceState :=
  if state.main = .opened then
    { state with recv := ⟨state.recv.inCompletePackets, state.recv.recvList.tail⟩ }
  else state

/-- A step of `thread_recv`. -/
def recvThreadStep (state : DeviceState) (thread : ℕ) (answer : RecvAnswer) :
    Except DeviceFault DeviceState :=
  let goTo (pc : RecvPc) : DeviceState := { state with threads := state.threads.set thread pc }
  match state.threads[thread]? with
  | none => .ok state
  | some .setFlag => .ok { goTo .testFlag with gFlag := true }
  | some .testFlag => .ok (goTo (if state.gFlag then .setFd else .exited))
  | some .setFd => if state.sockFd < 0 then .error .badDescriptor else .ok (goTo .select)
  | some .select => .ok (goTo (if 0 < answer.ret then .isSet else .testFlag))
  | some .isSet =>
    if state.sockFd < 0 then .error .badDescriptor
    else .ok (goTo (if answer.isSet then .receive else .testFlag))
  | some .receive =>
    match answer.frame with
    | none => .ok (goTo .testFlag)
    | some frame => .ok (goTo (.handle frame))
  | some (.handle frame) =>
    match recvStep ids sorter size state.recv frame with
    | .error fault => .error (.memory fault)
    | .ok recv => .ok { goTo .testFlag with recv := recv }
  | some .exited => .ok state

/-- One move. -/
def step (state : DeviceState) : Move → Except DeviceFault DeviceState
  | .main answer => if state.races ids then .error .clearRace else .ok (mainStep state answer)
  | .pop => .ok (popStep state)
  | .recv thread answer => recvThreadStep ids sorter size state thread answer

/-- A state some order of moves leads to. -/
def Reachable (state : DeviceState) : Prop :=
  ∃ moves, runEvents (step ids sorter size) DeviceState.initial moves = .ok state

end Steps

/-- How the flag and the place of a receive thread change. -/
inductive Goes : (flag : Bool) → (pc : RecvPc) → (flag' : Bool) → (pc' : RecvPc) → Prop
  | setFlag (flag : Bool) : Goes flag .setFlag true .testFlag
  | again : Goes true .testFlag true .setFd
  | exits : Goes false .testFlag false .exited
  | setFd (flag : Bool) : Goes flag .setFd flag .select
  | select (flag : Bool) : Goes flag .select flag .testFlag
  | ready (flag : Bool) : Goes flag .select flag .isSet
  | isSet (flag : Bool) : Goes flag .isSet flag .testFlag
  | readable (flag : Bool) : Goes flag .isSet flag .receive
  | receive (flag : Bool) : Goes flag .receive flag .testFlag
  | read (flag : Bool) (frame : CanFrame) : Goes flag .receive flag (.handle frame)
  | handle (flag : Bool) (frame : CanFrame) : Goes flag (.handle frame) flag .testFlag

section Inversion

variable {ids : ReceiverIds} {sorter : KeySort packetKey} {size : ℕ} {state next : DeviceState}

theorem goes_testFlag (flag : Bool) :
    Goes flag .testFlag flag (if flag then .setFd else .exited) := by
  cases flag with
  | false => exact .exits
  | true => exact .again

/-- A step of the caller that is no data race. -/
theorem step_main {answer : Option ℕ} (h : step ids sorter size state (.main answer) = .ok next) :
    next = mainStep state answer := by
  rw [step] at h
  split_ifs at h
  exact (Except.ok.inj h).symm

/-- Nothing races with the caller unless it clears the fragments. -/
theorem step_main_of_ne (hmain : state.main ≠ .clearPackets) (answer : Option ℕ) :
    step ids sorter size state (.main answer) = .ok (mainStep state answer) := by
  have hcalm : ¬state.races ids := fun hraces => hmain hraces.1
  rw [step, if_neg hcalm]

/-- The caller leaves the threads alone, or creates one. -/
theorem mainStep_threads (state : DeviceState) (answer : Option ℕ) :
    (mainStep state answer).threads = state.threads ∨
      (mainStep state answer).threads = state.threads ++ [.setFlag] := by
  cases hmain : state.main with
  | create =>
    rw [mainStep.eq_def, hmain]
    cases answer with
    | none => exact .inl rfl
    | some _ => exact .inr rfl
  | deviceOpen =>
    rw [mainStep.eq_def, hmain]
    cases answer <;> exact .inl rfl
  | join =>
    rw [mainStep.eq_def, hmain]
    dsimp only
    split_ifs <;> exact .inl rfl
  | _ =>
    rw [mainStep.eq_def, hmain]
    exact .inl rfl

/-- The descriptor is open where a thread needs it. -/
def RecvPc.NeedsSocket (pc : RecvPc) : Prop := pc = .setFd ∨ pc = .isSet

theorem not_needsSocket {pc : RecvPc} (h : pc ≠ .setFd ∧ pc ≠ .isSet) : ¬pc.NeedsSocket := by
  rintro (rfl | rfl)
  · exact h.1 rfl
  · exact h.2 rfl

/-- A thread that is there and has not exited moves by itself. -/
theorem recvThreadStep_cases {thread : ℕ} {answer : RecvAnswer}
    (h : recvThreadStep ids sorter size state thread answer = .ok next) :
    (next = state ∧ ∀ pc, state.threads[thread]? = some pc → pc = .exited) ∨
      ∃ pc flag' pc' recv', state.threads[thread]? = some pc ∧ Goes state.gFlag pc flag' pc' ∧
        (pc.NeedsSocket → 0 ≤ state.sockFd) ∧
        (∀ frame, pc = .handle frame →
          recvStep ids sorter size state.recv frame = .ok recv') ∧
        next = { state with
          threads := state.threads.set thread pc', gFlag := flag', recv := recv' } := by
  unfold recvThreadStep at h
  dsimp only at h
  cases hpc : state.threads[thread]? with
  | none =>
    rw [hpc] at h
    cases h
    exact .inl ⟨rfl, fun _ h => nomatch h⟩
  | some pc =>
    rw [hpc] at h
    have hfree {pc : RecvPc} (hpc : pc ≠ .setFd ∧ pc ≠ .isSet) :
        pc.NeedsSocket → 0 ≤ state.sockFd := fun hneeds => absurd hneeds (not_needsSocket hpc)
    cases pc with
    | setFlag =>
      cases h
      exact .inr ⟨_, _, _, _, rfl, .setFlag _, hfree (by decide), nofun, rfl⟩
    | testFlag =>
      cases h
      exact .inr ⟨_, _, _, _, rfl, goes_testFlag _, hfree (by decide), nofun, rfl⟩
    | setFd =>
      dsimp only at h
      split_ifs at h with hfd
      cases h
      exact .inr ⟨_, _, _, _, rfl, .setFd _, fun _ => not_lt.mp hfd, nofun, rfl⟩
    | select =>
      by_cases hret : 0 < answer.ret
      · dsimp only at h
        rw [if_pos hret] at h
        cases h
        exact .inr ⟨_, _, _, _, rfl, .ready _, hfree (by decide), nofun, rfl⟩
      · dsimp only at h
        rw [if_neg hret] at h
        cases h
        exact .inr ⟨_, _, _, _, rfl, .select _, hfree (by decide), nofun, rfl⟩
    | isSet =>
      dsimp only at h
      split_ifs at h with hfd hset
      · cases h
        exact .inr ⟨_, _, _, _, rfl, .readable _, fun _ => not_lt.mp hfd, nofun, rfl⟩
      · cases h
        exact .inr ⟨_, _, _, _, rfl, .isSet _, fun _ => not_lt.mp hfd, nofun, rfl⟩
    | receive =>
      cases hframe : answer.frame with
      | none =>
        rw [hframe] at h
        cases h
        exact .inr ⟨_, _, _, _, rfl, .receive _, hfree (by decide), nofun, rfl⟩
      | some frame =>
        rw [hframe] at h
        cases h
        exact .inr ⟨_, _, _, _, rfl, .read _ frame, hfree (by decide), nofun, rfl⟩
    | handle frame =>
      dsimp only at h
      cases hrecv : recvStep ids sorter size state.recv frame with
      | error fault =>
        rw [hrecv] at h
        cases h
      | ok recv =>
        rw [hrecv] at h
        cases h
        refine .inr ⟨_, _, _, recv, rfl, .handle _ frame, hfree ⟨nofun, nofun⟩, ?_, rfl⟩
        rintro _ ⟨⟩
        exact hrecv
    | exited =>
      cases h
      exact .inl ⟨rfl, fun _ h => (Option.some.inj h).symm⟩

/-- Nothing goes on behind the exit. -/
theorem Goes.alive {flag flag' : Bool} {pc pc' : RecvPc} (h : Goes flag pc flag' pc') :
    pc ≠ .exited := by
  cases h <;> exact nofun

end Inversion

end RobotOta.ReceiveThread
