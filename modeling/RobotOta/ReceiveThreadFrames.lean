import RobotOta.ReceiveThread

/-!
# What a session receives

The frames a receive thread has handled since `openCANDevice` last cleared the
fragments decide what the device holds, whatever the other moves were: the
fragments are those of `recvFrames` over these frames, and so is the end of the
queue. What was received before the clear is lost, unless it was complete; what
is still queued from an earlier session is not. The threads add undefined behaviour
of their own: the descriptor -1, and a clear in the middle of a fragment.
-/

namespace RobotOta.ReceiveThread

open CanFrameCodec DocumentedSort EventRun CanReassembly

/-- The frame a move handles. -/
def handled (state : DeviceState) : Move → List CanFrame
  | .main _ => []
  | .pop => []
  | .recv thread _ =>
    match state.threads[thread]? with
    | some (.handle frame) => [frame]
    | _ => []

/-- The frames handled since the fragments were cleared. -/
def sinceClear (state : DeviceState) (frames : List CanFrame) : Move → List CanFrame
  | .main _ => if state.main = .clearPackets then [] else frames
  | .pop => frames
  | .recv thread answer => frames ++ handled state (.recv thread answer)

/-- A move, with the frames handled since the clear. -/
def tracedStep (ids : ReceiverIds) (sorter : KeySort packetKey) (size : ℕ)
    (traced : DeviceState × List CanFrame) (move : Move) :
    Except DeviceFault (DeviceState × List CanFrame) :=
  match step ids sorter size traced.1 move with
  | .error fault => .error fault
  | .ok next => .ok (next, sinceClear traced.1 traced.2 move)

/-- Where a move is undefined behaviour: a thread takes the descriptor while it is
-1, the fragments are cleared while a thread puts one there, or a frame is handled that
`recvFrames` cannot handle behind the ones since the clear. -/
inductive Fails (ids : ReceiverIds) (sorter : KeySort packetKey) (size : ℕ) (state : DeviceState)
    (frames : List CanFrame) : Move → DeviceFault → Prop
  | badDescriptor {thread : ℕ} {answer : RecvAnswer} {pc : RecvPc}
    (hpc : state.threads[thread]? = some pc) (hneeds : pc.NeedsSocket)
    (hclosed : state.sockFd < 0) :
    Fails ids sorter size state frames (.recv thread answer) .badDescriptor
  | clearRace {answer : Option ℕ} (hraces : state.races ids) :
    Fails ids sorter size state frames (.main answer) .clearRace
  | memory {thread : ℕ} {answer : RecvAnswer} {frame : CanFrame} {fault : MemoryFault}
    (hpc : state.threads[thread]? = some (.handle frame))
    (hfault : recvFrames ids sorter size emptyState (frames ++ [frame]) = .error fault) :
    Fails ids sorter size state frames (.recv thread answer) (.memory fault)

section Overlap

variable {α : Type*} {queue pushed added : List α}

/-- One list ends with the other. -/
def Overlap (queue pushed : List α) : Prop := queue <:+ pushed ∨ pushed <:+ queue

theorem Overlap.append (h : Overlap queue pushed) (added : List α) :
    Overlap (queue ++ added) (pushed ++ added) := by
  obtain h | h := h
  · exact .inl (List.suffix_append_self_iff.mpr h)
  · exact .inr (List.suffix_append_self_iff.mpr h)

theorem Overlap.tail (h : Overlap queue pushed) : Overlap queue.tail pushed := by
  obtain h | h := h
  · exact .inl ((List.tail_suffix queue).trans h)
  · cases queue with
    | nil => exact .inr h
    | cons first queue =>
      rcases List.suffix_cons_iff.mp h with rfl | h
      · exact .inl (List.suffix_cons first queue)
      · exact .inr h

end Overlap

section Frames

variable {ids : ReceiverIds} {sorter : KeySort packetKey} {size : ℕ}
  {state next : DeviceState} {frames : List CanFrame}

/-- What is queued plays no part in the receive step. -/
theorem recvStep_queue (ids : ReceiverIds) (sorter : KeySort packetKey) (size : ℕ)
    (inCompletePackets : Byte → Option PacketMap) (queue : List CanPacket) (frame : CanFrame) :
    recvStep ids sorter size ⟨inCompletePackets, queue⟩ frame =
      match recvStep ids sorter size ⟨inCompletePackets, []⟩ frame with
      | .error fault => .error fault
      | .ok next => .ok ⟨next.inCompletePackets, queue ++ next.recvList⟩ := by
  rw [recvStep_eq, recvStep_eq]
  cases addressedPacket ids frame with
  | none =>
    dsimp only
    rw [List.append_nil]
  | some canData =>
    dsimp only
    by_cases hsum : canData.sum = 0
    · rw [if_pos hsum, if_pos hsum]
      rfl
    · rw [if_neg hsum, if_neg hsum]
      cases fragmentOutcome sorter size canData (inCompletePackets canData.sId) with
      | error fault => rfl
      | ok outcome => rfl

/-- The device is where `recvFrames` gets with these frames, up to what was queued before
and what has been taken since. -/
def Tracks (ids : ReceiverIds) (sorter : KeySort packetKey) (size : ℕ) (state : DeviceState)
    (frames : List CanFrame) : Prop :=
  ∃ delivered, recvFrames ids sorter size emptyState frames =
    .ok ⟨state.recv.inCompletePackets, delivered⟩ ∧ Overlap state.recv.recvList delivered

/-- A move that receives nothing. -/
theorem Tracks.keep (h : Tracks ids sorter size state frames) (hrecv : next.recv = state.recv) :
    Tracks ids sorter size next frames := by
  rw [Tracks, hrecv]
  exact h

/-- One more frame for `recvFrames`. -/
theorem recvFrames_snoc (ids : ReceiverIds) (sorter : KeySort packetKey) (size : ℕ)
    {state : RecvState} (h : recvFrames ids sorter size emptyState frames = .ok state)
    (frame : CanFrame) :
    recvFrames ids sorter size emptyState (frames ++ [frame]) =
      recvStep ids sorter size state frame := by
  rw [recvFrames] at h
  rw [recvFrames, runEvents_append, h]
  dsimp only
  rw [runEvents]
  cases recvStep ids sorter size state frame with
  | error fault => rfl
  | ok next => rfl

/-- A frame that is handled is one more frame, for the device and for `recvFrames`. -/
theorem tracks_recv (h : Tracks ids sorter size state frames) {frame : CanFrame} {recv : RecvState}
    (hrecv : recvStep ids sorter size state.recv frame = .ok recv) (hnext : next.recv = recv) :
    Tracks ids sorter size next (frames ++ [frame]) := by
  obtain ⟨delivered, hrun, hoverlap⟩ := h
  have hstate : state.recv = ⟨state.recv.inCompletePackets, state.recv.recvList⟩ := rfl
  rw [hstate, recvStep_queue] at hrecv
  have hspec := recvFrames_snoc ids sorter size hrun frame
  rw [recvStep_queue] at hspec
  cases hfresh : recvStep ids sorter size ⟨state.recv.inCompletePackets, []⟩ frame with
  | error fault =>
    rw [hfresh] at hrecv
    cases hrecv
  | ok fresh =>
    rw [hfresh] at hrecv hspec
    obtain rfl := Except.ok.inj hrecv
    rw [Tracks, hnext]
    exact ⟨delivered ++ fresh.recvList, hspec, hoverlap.append _⟩

/-- A fault of the device is one of `recvFrames`. -/
theorem recvStep_error_iff (h : Tracks ids sorter size state frames) (frame : CanFrame)
    (fault : MemoryFault) :
    recvStep ids sorter size state.recv frame = .error fault ↔
      recvFrames ids sorter size emptyState (frames ++ [frame]) = .error fault := by
  obtain ⟨delivered, hrun, -⟩ := h
  have hstate : state.recv = ⟨state.recv.inCompletePackets, state.recv.recvList⟩ := rfl
  rw [recvFrames_snoc ids sorter size hrun, hstate, recvStep_queue,
    recvStep_queue _ _ _ _ delivered]
  cases recvStep ids sorter size ⟨state.recv.inCompletePackets, []⟩ frame with
  | error fault => rfl
  | ok next =>
    constructor
    · intro hfault
      cases hfault
    · intro hfault
      cases hfault

/-- Only clearing the fragments touches what is received. -/
theorem mainStep_recv (hmain : state.main ≠ .clearPackets) (answer : Option ℕ) :
    (mainStep state answer).recv = state.recv := by
  rw [mainStep.eq_def]
  cases hpc : state.main with
  | clearPackets => exact absurd hpc hmain
  | deviceOpen => cases answer <;> rfl
  | create => cases answer <;> rfl
  | join =>
    dsimp only
    split_ifs <;> rfl
  | _ => rfl

theorem tracks_mainStep (h : Tracks ids sorter size state frames) (answer : Option ℕ) :
    Tracks ids sorter size (mainStep state answer) (sinceClear state frames (.main answer)) := by
  rw [sinceClear]
  by_cases hmain : state.main = .clearPackets
  · rw [if_pos hmain, mainStep.eq_def, hmain]
    exact ⟨[], rfl, .inr List.nil_suffix⟩
  · rw [if_neg hmain]
    exact h.keep (mainStep_recv hmain answer)

theorem tracks_popStep (h : Tracks ids sorter size state frames) :
    Tracks ids sorter size (popStep state) frames := by
  rw [popStep]
  split_ifs
  · obtain ⟨delivered, hrun, hoverlap⟩ := h
    exact ⟨delivered, hrun, hoverlap.tail⟩
  · exact h

/-- A thread that handles no frame receives nothing, unless it takes the descriptor
while it is -1. -/
theorem recvThreadStep_other {thread : ℕ} {answer : RecvAnswer}
    (hpc : ∀ frame, state.threads[thread]? ≠ some (.handle frame)) :
    (recvThreadStep ids sorter size state thread answer = .error .badDescriptor ∧
      ∃ pc, state.threads[thread]? = some pc ∧ pc.NeedsSocket ∧ state.sockFd < 0) ∨
      (∀ pc, state.threads[thread]? = some pc → pc.NeedsSocket → ¬state.sockFd < 0) ∧
      ∃ next, recvThreadStep ids sorter size state thread answer = .ok next ∧
        next.recv = state.recv := by
  have hfree {pc other : RecvPc} (hpc : pc ≠ .setFd ∧ pc ≠ .isSet) (heq : some pc = some other)
      (hneeds : other.NeedsSocket) : ¬state.sockFd < 0 := by
    obtain rfl := Option.some.inj heq
    exact absurd hneeds (not_needsSocket hpc)
  unfold recvThreadStep
  dsimp only
  cases hplace : state.threads[thread]? with
  | none => exact .inr ⟨nofun, _, rfl, rfl⟩
  | some pc =>
    cases pc with
    | handle frame => exact absurd hplace (hpc frame)
    | setFd =>
      dsimp only
      by_cases hclosed : state.sockFd < 0
      · rw [if_pos hclosed]
        exact .inl ⟨rfl, _, rfl, .inl rfl, hclosed⟩
      · rw [if_neg hclosed]
        exact .inr ⟨fun _ _ _ => hclosed, _, rfl, rfl⟩
    | isSet =>
      dsimp only
      by_cases hclosed : state.sockFd < 0
      · rw [if_pos hclosed]
        exact .inl ⟨rfl, _, rfl, .inr rfl, hclosed⟩
      · rw [if_neg hclosed]
        exact .inr ⟨fun _ _ _ => hclosed, _, rfl, rfl⟩
    | receive =>
      cases answer.frame with
      | none => exact .inr ⟨fun _ => hfree (by decide), _, rfl, rfl⟩
      | some frame => exact .inr ⟨fun _ => hfree (by decide), _, rfl, rfl⟩
    | _ => exact .inr ⟨fun _ => hfree (by decide), _, rfl, rfl⟩

/-- A thread that handles a frame. -/
theorem recvThreadStep_handle {thread : ℕ} {answer : RecvAnswer} {frame : CanFrame}
    (hpc : state.threads[thread]? = some (.handle frame)) :
    recvThreadStep ids sorter size state thread answer =
      match recvStep ids sorter size state.recv frame with
      | .error fault => .error (.memory fault)
      | .ok recv =>
        .ok { state with threads := state.threads.set thread .testFlag, recv := recv } := by
  unfold recvThreadStep
  cases hrecv : recvStep ids sorter size state.recv frame with
  | error fault => simp only [hpc, hrecv]
  | ok recv => simp only [hpc, hrecv]

/-- A thread that handles a frame handles it, and no other does. -/
theorem handled_recv (state : DeviceState) (thread : ℕ) (answer : RecvAnswer) :
    (∃ frame, state.threads[thread]? = some (.handle frame) ∧
      handled state (.recv thread answer) = [frame]) ∨
      (∀ frame, state.threads[thread]? ≠ some (.handle frame)) ∧
        handled state (.recv thread answer) = [] := by
  rw [handled]
  cases state.threads[thread]? with
  | none => exact .inr ⟨nofun, rfl⟩
  | some pc =>
    cases pc with
    | handle frame => exact .inl ⟨frame, rfl, rfl⟩
    | _ => exact .inr ⟨nofun, rfl⟩

theorem tracks_step (h : Tracks ids sorter size state frames) {move : Move}
    (hstep : step ids sorter size state move = .ok next) :
    Tracks ids sorter size next (sinceClear state frames move) := by
  cases move with
  | main answer =>
    obtain rfl := step_main hstep
    exact tracks_mainStep h answer
  | pop =>
    cases hstep
    exact tracks_popStep h
  | recv thread answer =>
    rw [sinceClear]
    rw [step] at hstep
    rcases handled_recv state thread answer with ⟨frame, hpc, hhandled⟩ | ⟨hpc, hhandled⟩
    · rw [hhandled]
      rw [recvThreadStep_handle hpc] at hstep
      cases hrecv : recvStep ids sorter size state.recv frame with
      | error fault =>
        rw [hrecv] at hstep
        cases hstep
      | ok recv =>
        rw [hrecv] at hstep
        cases hstep
        exact tracks_recv h hrecv rfl
    · rw [hhandled, List.append_nil]
      rcases recvThreadStep_other hpc with ⟨hfault, -⟩ | ⟨-, other, hother, hsame⟩
      · rw [hfault] at hstep
        cases hstep
      · rw [hother] at hstep
        cases hstep
        exact h.keep hsame

/-- A move is undefined behaviour exactly there. -/
theorem step_error_iff (h : Tracks ids sorter size state frames) (move : Move)
    (fault : DeviceFault) :
    step ids sorter size state move = .error fault ↔
      Fails ids sorter size state frames move fault := by
  cases move with
  | main answer =>
    rw [step]
    constructor
    · intro hfault
      split_ifs at hfault with hraces
      cases hfault
      exact .clearRace hraces
    · intro hfails
      cases hfails with
      | clearRace hraces => exact if_pos hraces
  | pop =>
    constructor
    · intro hfault
      cases hfault
    · intro hfails
      cases hfails
  | recv thread answer =>
    rw [step]
    rcases handled_recv state thread answer with ⟨frame, hpc, -⟩ | ⟨hpc, -⟩
    · rw [recvThreadStep_handle hpc]
      constructor
      · intro hfault
        cases hrecv : recvStep ids sorter size state.recv frame with
        | error found =>
          rw [hrecv] at hfault
          cases hfault
          exact .memory hpc ((recvStep_error_iff h frame found).mp hrecv)
        | ok recv =>
          rw [hrecv] at hfault
          cases hfault
      · intro hfails
        cases hfails with
        | badDescriptor hother hneeds hclosed =>
          obtain rfl := Option.some.inj (hother.symm.trans hpc)
          exact hneeds.elim (fun heq => RecvPc.noConfusion heq) fun heq => RecvPc.noConfusion heq
        | memory hother hfault =>
          obtain rfl := RecvPc.handle.inj (Option.some.inj (hother.symm.trans hpc))
          rw [(recvStep_error_iff h _ _).mpr hfault]
    · rcases recvThreadStep_other hpc with
        ⟨hfault, pc, hplace, hneeds, hclosed⟩ | ⟨hopen, other, hother, -⟩
      · rw [hfault]
        constructor
        · intro heq
          cases heq
          exact .badDescriptor hplace hneeds hclosed
        · intro hfails
          cases hfails with
          | badDescriptor hplace hneeds hclosed => rfl
          | memory hframe hfault => exact absurd hframe (hpc _)
      · rw [hother]
        constructor
        · intro hfault
          cases hfault
        · intro hfails
          cases hfails with
          | badDescriptor hplace hneeds hclosed => exact absurd hclosed (hopen _ hplace hneeds)
          | memory hframe hfault => exact absurd hframe (hpc _)

theorem tracks_initial : Tracks ids sorter size DeviceState.initial [] :=
  ⟨[], rfl, .inl (List.suffix_refl _)⟩

/-- The cells of a fragment with one byte. -/
def earlyCells : List Byte := [0, 0, 1, 0, 0, 0, 0, 0]

theorem three_le_canDataMaxLen : 3 ≤ canDataMaxLen := by decide

theorem earlyCells_length : earlyCells.length = canDataMaxLen := rfl

/-- The first of two fragments. -/
def earlyFrame : CanFrame where
  canId := extendedId (moduleId { zeroPacket with sId := 0x52, dId := 0x32 } ||| canData2idSum 1)
  canDlc := 3
  data := earlyCells
  dlc_le := three_le_canDataMaxLen
  data_length := earlyCells_length

/-- A thread that reads it. -/
def earlyFragment : RecvAnswer := ⟨1, true, some earlyFrame⟩

/-- It reads the frame before the fragments are cleared, and again behind that. -/
def earlyMoves : List Move :=
  [.main (some 3), .main (some 0)] ++ List.replicate 7 (.recv 0 earlyFragment) ++ [.main none] ++
    List.replicate 6 (.recv 0 earlyFragment)

/-- The device behind these moves. -/
def earlyState (recv : RecvState) : DeviceState :=
  ⟨.mutexInit, [.testFlag], some 0, 3, true, .unset, recv⟩

end Frames

end RobotOta.ReceiveThread
