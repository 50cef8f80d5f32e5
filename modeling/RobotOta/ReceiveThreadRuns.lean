import RobotOta.ReceiveThread

/-!
# Sessions of the CAN device

Over any number of sessions and any order of the moves there is one receive
thread at a time, and it belongs to the session that is open. A close that clears
the flag while the thread is away from its start and from the descriptor, which is
-1 by then, gets it back after at most three more moves of it. Any other waits until
the thread takes that descriptor.
-/

namespace RobotOta.ReceiveThread

open CanFrameCodec DocumentedSort EventRun CanReassembly

/-- The caller has created a thread it has not joined. -/
def MainPc.HasThread (pc : MainPc) : Prop :=
  pc ∈ [.clearPackets, .mutexInit, .opened, .deviceClose, .clearFlag, .join]

instance (pc : MainPc) : Decidable pc.HasThread := inferInstanceAs (Decidable (_ ∈ _))

/-- The mutex is initialised and not destroyed. -/
def MainPc.HasMutex (pc : MainPc) : Prop :=
  pc ∈ [.opened, .deviceClose, .clearFlag, .join, .mutexDestroy]

instance (pc : MainPc) : Decidable pc.HasMutex := inferInstanceAs (Decidable (_ ∈ _))

/-- The descriptor is the open one. -/
def MainPc.HasSocket (pc : MainPc) : Prop :=
  pc ∈ [.create, .clearPackets, .mutexInit, .opened]

instance (pc : MainPc) : Decidable pc.HasSocket := inferInstanceAs (Decidable (_ ∈ _))

/-- The descriptor is given up, and the thread not joined yet. -/
def MainPc.Closing (pc : MainPc) : Prop := pc ∈ [.deviceClose, .clearFlag, .join]

instance (pc : MainPc) : Decidable pc.Closing := inferInstanceAs (Decidable (_ ∈ _))

/-- What every move keeps. -/
structure Sound (state : DeviceState) : Prop where
  /-- A thread that runs is the one in `g_RecvThread`, and the main thread will join it. -/
  alive : ∀ thread pc, state.threads[thread]? = some pc → pc ≠ .exited →
    state.gRecvThread = some thread ∧ state.main.HasThread
  /-- The thread to be joined has been started. -/
  latest : state.main.HasThread →
    ∃ thread, state.gRecvThread = some thread ∧ thread < state.threads.length
  /-- The mutex of the list is ready where it is used. -/
  mutex : state.main.HasMutex → state.listMutex = .ready
  /-- The socket is open where it is used. -/
  socket : state.main.HasSocket → 0 ≤ state.sockFd
  /-- The descriptor has been given up behind `flexcan_device_close`. -/
  closing : state.main.Closing → state.sockFd < 0

section Sound

variable {ids : ReceiverIds} {sorter : KeySort packetKey} {size : ℕ} {state next : DeviceState}

theorem sound_initial : Sound DeviceState.initial where
  alive := fun thread pc h => by
    rw [DeviceState.initial, List.getElem?_nil] at h
    cases h
  latest := fun h => absurd h (by decide)
  mutex := fun h => absurd h (by decide)
  socket := fun h => absurd h (by decide)
  closing := fun h => absurd h (by decide)

/-- A move of the caller that changes none of the threads. -/
theorem Sound.keep_threads (h : Sound state) (main : MainPc) {sockFd : Int} {gFlag : Bool}
    {listMutex : MutexState} {recv : RecvState} (hthread : main.HasThread ↔ state.main.HasThread)
    (hmutex : main.HasMutex → listMutex = .ready) (hsocket : main.HasSocket → 0 ≤ sockFd)
    (hclosing : main.Closing → sockFd < 0) :
    Sound { state with
      main := main, sockFd := sockFd, gFlag := gFlag, listMutex := listMutex, recv := recv } where
  alive := fun thread pc hpc hne => by
    rw [hthread]
    exact h.alive thread pc hpc hne
  latest := fun hmain => h.latest (hthread.mp hmain)
  mutex := hmutex
  socket := hsocket
  closing := hclosing

/-- No thread is alive outside a session. -/
theorem Sound.none_alive (h : Sound state) (hmain : ¬ state.main.HasThread) :
    ∀ (thread : ℕ) (pc : RecvPc), state.threads[thread]? = some pc → pc = .exited :=
  fun thread pc hpc =>
  not_not.mp fun hne => hmain (h.alive thread pc hpc hne).2

/-- The last thread created is the only one alive. -/
theorem Sound.only_alive (h : Sound state) {last thread : ℕ} {pc : RecvPc}
    (hlast : state.gRecvThread = some last) (hpc : state.threads[thread]? = some pc)
    (halive : pc ≠ .exited) : thread = last := by
  obtain ⟨hthread, -⟩ := h.alive thread pc hpc halive
  exact Option.some.inj (hthread.symm.trans hlast)

theorem sound_create (h : Sound state) (hmain : state.main = .create) (answer : Option ℕ) :
    Sound (mainStep state answer) := by
  have hnone := h.none_alive (by rw [hmain]; decide)
  have hsocket := h.socket (by rw [hmain]; decide)
  rw [mainStep.eq_def, hmain]
  cases answer with
  | none =>
    exact h.keep_threads .deviceOpen (by rw [hmain]; decide) (fun h => absurd h (by decide))
      (fun h => absurd h (by decide)) fun h => absurd h (by decide)
  | some handle =>
    have hclear : MainPc.clearPackets.HasThread ∧ ¬ MainPc.clearPackets.HasMutex ∧
        ¬ MainPc.clearPackets.Closing := by decide
    refine ⟨?_, ?_, fun h => absurd h hclear.2.1, fun _ => hsocket, fun h => absurd h hclear.2.2⟩
    · intro thread pc hpc hne
      refine ⟨?_, hclear.1⟩
      by_cases hold : thread < state.threads.length
      · rw [List.getElem?_append_left hold] at hpc
        exact absurd (hnone thread pc hpc) hne
      · have hlt : thread < (state.threads ++ [RecvPc.setFlag]).length :=
          (List.getElem?_eq_some_iff.mp hpc).choose
        rw [List.length_append, List.length_singleton] at hlt
        exact congrArg some (by omega)
    · intro _
      refine ⟨_, rfl, ?_⟩
      rw [List.length_append, List.length_singleton]
      exact Nat.lt_succ_self _

/-- Behind the join the thread is gone. -/
theorem sound_join (h : Sound state) (hmain : state.main = .join) (answer : Option ℕ) :
    Sound (mainStep state answer) := by
  rw [mainStep.eq_def, hmain]
  dsimp only
  by_cases hjoined : state.joined
  · rw [if_pos hjoined]
    have hdestroy : ¬ MainPc.mutexDestroy.HasThread ∧ ¬ MainPc.mutexDestroy.HasSocket ∧
        ¬ MainPc.mutexDestroy.Closing := by decide
    refine ⟨?_, fun h => absurd h hdestroy.1, fun _ => h.mutex (by rw [hmain]; decide),
      fun h => absurd h hdestroy.2.1, fun h => absurd h hdestroy.2.2⟩
    intro thread pc hpc hne
    obtain ⟨hlast, -⟩ := h.alive thread pc hpc hne
    rw [DeviceState.joined, hlast, Option.bind_some] at hjoined
    exact absurd (Option.some.inj (hpc.symm.trans hjoined)) hne
  · rw [if_neg hjoined]
    exact h

theorem sound_mainStep (h : Sound state) (answer : Option ℕ) : Sound (mainStep state answer) := by
  cases hmain : state.main with
  | create => exact sound_create h hmain answer
  | join => exact sound_join h hmain answer
  | deviceOpen =>
    rw [mainStep.eq_def, hmain]
    cases answer with
    | none =>
      exact h.keep_threads .deviceOpen (by rw [hmain]) (fun h => absurd h (by decide))
        (fun h => absurd h (by decide)) fun h => absurd h (by decide)
    | some fd =>
      exact h.keep_threads .create (by rw [hmain]; decide) (fun h => absurd h (by decide))
        (fun _ => Int.natCast_nonneg fd) fun h => absurd h (by decide)
  | clearPackets =>
    rw [mainStep.eq_def, hmain]
    exact h.keep_threads .mutexInit (by rw [hmain]; decide) (fun h => absurd h (by decide))
      (fun _ => h.socket (by rw [hmain]; decide)) fun h => absurd h (by decide)
  | mutexInit =>
    rw [mainStep.eq_def, hmain]
    exact h.keep_threads .opened (by rw [hmain]; decide) (fun _ => rfl)
      (fun _ => h.socket (by rw [hmain]; decide)) fun h => absurd h (by decide)
  | opened =>
    rw [mainStep.eq_def, hmain]
    exact h.keep_threads .deviceClose (by rw [hmain]; decide)
      (fun _ => h.mutex (by rw [hmain]; decide)) (fun h => absurd h (by decide)) fun _ => by decide
  | deviceClose =>
    rw [mainStep.eq_def, hmain]
    exact h.keep_threads .clearFlag (by rw [hmain]; decide)
      (fun _ => h.mutex (by rw [hmain]; decide)) (fun h => absurd h (by decide))
      fun _ => h.closing (by rw [hmain]; decide)
  | clearFlag =>
    rw [mainStep.eq_def, hmain]
    exact h.keep_threads .join (by rw [hmain]; decide)
      (fun _ => h.mutex (by rw [hmain]; decide)) (fun h => absurd h (by decide))
      fun _ => h.closing (by rw [hmain]; decide)
  | mutexDestroy =>
    rw [mainStep.eq_def, hmain]
    exact h.keep_threads .deviceOpen (by rw [hmain]; decide) (fun h => absurd h (by decide))
      (fun h => absurd h (by decide)) fun h => absurd h (by decide)

/-- A move of a receive thread moves it alone. -/
theorem sound_recvThreadStep (h : Sound state) {thread : ℕ} {answer : RecvAnswer}
    (hstep : recvThreadStep ids sorter size state thread answer = .ok next) : Sound next := by
  obtain ⟨rfl, -⟩ | ⟨pc, flag', pc', recv', hpc, hgoes, -, -, rfl⟩ := recvThreadStep_cases hstep
  · exact h
  refine ⟨?_, ?_, h.mutex, h.socket, h.closing⟩
  · intro other otherPc hother hne
    by_cases heq : other = thread
    · rw [heq]
      exact h.alive thread pc hpc hgoes.alive
    · rw [List.getElem?_set_ne (Ne.symm heq)] at hother
      exact h.alive other otherPc hother hne
  · intro hmain
    rw [List.length_set]
    exact h.latest hmain

theorem sound_step (h : Sound state) {move : Move}
    (hstep : step ids sorter size state move = .ok next) : Sound next := by
  cases move with
  | main answer =>
    obtain rfl := step_main hstep
    exact sound_mainStep h answer
  | pop =>
    cases hstep
    rw [popStep]
    split_ifs
    · exact h.keep_threads _ Iff.rfl h.mutex h.socket h.closing
    · exact h
  | recv thread answer => exact sound_recvThreadStep h hstep

theorem Reachable.sound (h : Reachable ids sorter size state) : Sound state := by
  obtain ⟨moves, hrun⟩ := h
  exact runEvents_invariant _ (fun _ _ _ hsound hstep => sound_step hsound hstep) sound_initial hrun

/-- Whatever the order of the moves and however many sessions there were, at most one receive
thread is alive, and only in a session. It finds the mutex unusable only while
`openCANDevice` has not initialised it yet, and the descriptor -1 only once `closeCANDevice`
has begun. -/
theorem receivers_sound (h : Reachable ids sorter size state) {thread : ℕ} {pc : RecvPc}
    (hpc : state.threads[thread]? = some pc) (halive : pc ≠ .exited) :
    (∀ other otherPc, state.threads[other]? = some otherPc → otherPc ≠ .exited → other = thread) ∧
      state.gRecvThread = some thread ∧ state.main.HasThread ∧
      (state.listMutex = .ready ∨ state.main = .clearPackets ∨ state.main = .mutexInit) ∧
      (0 ≤ state.sockFd ∨ state.main = .deviceClose ∨ state.main = .clearFlag ∨
        state.main = .join) := by
  have hsound := h.sound
  obtain ⟨hlast, hmain⟩ := hsound.alive thread pc hpc halive
  have hmutex := hsound.mutex
  have hsocket := hsound.socket
  refine ⟨?_, hlast, hmain, ?_, ?_⟩
  · intro other otherPc hother hne
    exact hsound.only_alive hlast hother hne
  · generalize state.main = main at hmain hmutex
    cases main <;> first | exact absurd hmain (by decide) | exact .inl (hmutex (by decide)) | skip
    · exact .inr (.inl rfl)
    · exact .inr (.inr rfl)
  · generalize state.main = main at hmain hsocket
    cases main <;> first | exact absurd hmain (by decide) | exact .inl (hsocket (by decide)) | skip
    · exact .inr (.inl rfl)
    · exact .inr (.inr (.inl rfl))
    · exact .inr (.inr (.inr rfl))

/-- A session is over, and in the second one the new thread has set the flag. -/
def sampleSession : DeviceState :=
  ⟨.opened, [.exited, .testFlag], some 1, 4, true, .ready, emptyState⟩

/-- A thread whose calls time out. -/
def idle : RecvAnswer := ⟨0, false, none⟩

/-- The first thread waits in `select` when its session is closed. -/
def sampleMoves : List Move :=
  [.main (some 3), .main (some 0), .recv 0 idle, .main none, .recv 0 idle, .main none,
    .recv 0 idle, .main none, .main none, .main none, .recv 0 idle, .recv 0 idle, .main none,
    .main none, .main (some 4), .main (some 0), .main none, .recv 1 idle, .main none]

theorem sampleSession_reachable (ids : ReceiverIds) (sorter : KeySort packetKey) (size : ℕ) :
    Reachable ids sorter size sampleSession :=
  ⟨sampleMoves, rfl⟩

/-- The thread of the second session is the only one. -/
theorem receivers_sound_sample :
    sampleSession.gRecvThread = some 1 ∧ ∀ other otherPc,
      sampleSession.threads[other]? = some otherPc → otherPc ≠ .exited → other = 1 := by
  obtain ⟨hone, hlast, -⟩ := receivers_sound
    (sampleSession_reachable ⟨0x31, 0x32⟩ (insertionKeySort packetKey) canDataTotalSize)
    (rfl : sampleSession.threads[1]? = some .testFlag) nofun
  exact ⟨hlast, hone⟩

end Sound

section Close

variable {ids : ReceiverIds} {sorter : KeySort packetKey} {size : ℕ} {state next last : DeviceState}
  {thread : ℕ} {moves : List Move}

/-- A close that finds the thread here waits until the thread runs into undefined
behaviour: it starts, and sets the flag again; it is about to take the descriptor,
which is -1; or it handles a frame beyond its buffer. -/
def Stuck (ids : ReceiverIds) (sorter : KeySort packetKey) (size : ℕ) (recv : RecvState)
    (pc : RecvPc) : Prop :=
  pc = .setFlag ∨ pc.NeedsSocket ∨
    ∃ frame fault, pc = .handle frame ∧ recvStep ids sorter size recv frame = .error fault

/-- The moves a thread has left when the flag is cleared. -/
def RecvPc.movesLeft : RecvPc → ℕ
  | .setFlag => 4
  | .receive => 3
  | .handle _ => 2
  | .select => 2
  | .setFd => 1
  | .isSet => 1
  | .testFlag => 1
  | .exited => 0

theorem movesLeft_le {pc : RecvPc} (h : pc ≠ .setFlag) : pc.movesLeft ≤ 3 := by
  cases pc with
  | setFlag => exact absurd rfl h
  | handle frame => exact (by decide : 2 ≤ 3)
  | _ => decide

theorem movesLeft_eq_zero {pc : RecvPc} (h : pc.movesLeft = 0) : pc = .exited := by
  cases pc with
  | exited => rfl
  | handle frame => exact absurd h (by decide : ¬2 = 0)
  | _ => exact absurd h (by decide)

/-- With the flag cleared and no descriptor each move of a thread that has started
leads to its exit. -/
theorem Goes.movesLeft_lt {pc pc' : RecvPc} {flag' : Bool} (h : Goes false pc flag' pc')
    (hset : pc ≠ .setFlag) (hfree : ¬pc.NeedsSocket) :
    flag' = false ∧ pc' ≠ .setFlag ∧ pc'.movesLeft < pc.movesLeft := by
  cases h with
  | setFlag => exact absurd rfl hset
  | setFd => exact absurd (.inl rfl) hfree
  | isSet => exact absurd (.inr rfl) hfree
  | readable => exact absurd (.inr rfl) hfree
  | _ => exact ⟨rfl, nofun, by simp only [RecvPc.movesLeft]; decide⟩

/-- A thread that starts sets the flag. -/
theorem Goes.started {flag flag' : Bool} {pc' : RecvPc} (h : Goes flag .setFlag flag' pc') :
    flag' = true ∧ pc' = .testFlag := by
  cases h
  exact ⟨rfl, rfl⟩

/-- With the flag set a thread goes on. -/
theorem Goes.goesOn {flag' : Bool} {pc' : RecvPc} (h : Goes true .testFlag flag' pc') :
    pc' = .setFd := by
  cases h
  rfl

/-- The caller waits for a thread that is alive. -/
theorem mainStep_waits (hmain : state.main = .join) (hlast : state.gRecvThread = some thread)
    {pc : RecvPc} (hpc : state.threads[thread]? = some pc) (halive : pc ≠ .exited)
    (answer : Option ℕ) : mainStep state answer = state := by
  have hblocked : ¬ state.joined := by
    rw [DeviceState.joined, hlast, Option.bind_some, hpc]
    exact fun h => halive (Option.some.inj h)
  rw [mainStep.eq_def, hmain]
  dsimp only
  rw [if_neg hblocked]

/-- Nothing is taken from the queue while it waits. -/
theorem popStep_waits (hmain : state.main = .join) : popStep state = state := by
  have hclosed : state.main ≠ .opened := by
    rw [hmain]
    decide
  rw [popStep, if_neg hclosed]

/-- A move of this thread. -/
def Move.isOf (thread : ℕ) : Move → Bool
  | .recv other _ => other = thread
  | _ => false

/-- While the caller waits for a thread that is alive, only its own moves change
anything. -/
theorem waiting_step (hsound : Sound state) (hmain : state.main = .join)
    (hlast : state.gRecvThread = some thread) {pc : RecvPc}
    (hpc : state.threads[thread]? = some pc) (halive : pc ≠ .exited) {move : Move}
    (hstep : step ids sorter size state move = .ok next) :
    (next = state ∧ move.isOf thread = false) ∨
      move.isOf thread = true ∧ ∃ flag' pc' recv', Goes state.gFlag pc flag' pc' ∧
        (pc.NeedsSocket → 0 ≤ state.sockFd) ∧
        (∀ frame, pc = .handle frame → recvStep ids sorter size state.recv frame = .ok recv') ∧
        next = { state with
          threads := state.threads.set thread pc', gFlag := flag', recv := recv' } := by
  cases move with
  | main answer =>
    obtain rfl := step_main hstep
    exact .inl ⟨mainStep_waits hmain hlast hpc halive answer, rfl⟩
  | pop =>
    cases hstep
    exact .inl ⟨popStep_waits hmain, rfl⟩
  | recv other answer =>
    obtain ⟨rfl, hgone⟩ | ⟨otherPc, flag', pc', recv', hother, hgoes, hsocket, hrecv, rfl⟩ :=
      recvThreadStep_cases hstep
    · by_cases heq : other = thread
      · rw [heq] at hgone
        exact absurd (hgone pc hpc) halive
      · exact .inl ⟨rfl, decide_eq_false heq⟩
    · obtain rfl : other = thread := hsound.only_alive hlast hother hgoes.alive
      obtain rfl : otherPc = pc := Option.some.inj (hother.symm.trans hpc)
      exact .inr ⟨decide_eq_true rfl, flag', pc', recv', hgoes, hsocket, hrecv, rfl⟩

/-- A thread on its way to undefined behaviour, with the moves it can still make. -/
inductive Doomed (ids : ReceiverIds) (sorter : KeySort packetKey) (size : ℕ)
    (state : DeviceState) : RecvPc → ℕ → Prop
  | setFlag {left : ℕ} : Doomed ids sorter size state .setFlag (left + 2)
  | testFlag {left : ℕ} (h : state.gFlag = true) :
    Doomed ids sorter size state .testFlag (left + 1)
  | needsSocket {pc : RecvPc} {left : ℕ} (h : pc.NeedsSocket) :
    Doomed ids sorter size state pc left
  | handle {frame : CanFrame} {fault : MemoryFault} {left : ℕ}
    (h : recvStep ids sorter size state.recv frame = .error fault) :
    Doomed ids sorter size state (.handle frame) left

theorem Stuck.doomed {pc : RecvPc} (h : Stuck ids sorter size state.recv pc) :
    Doomed ids sorter size state pc 2 := by
  rcases h with rfl | hsocket | ⟨frame, fault, rfl, hfault⟩
  · exact .setFlag
  · exact .needsSocket hsocket
  · exact .handle hfault

theorem Doomed.alive {pc : RecvPc} {left : ℕ} (h : Doomed ids sorter size state pc left) :
    pc ≠ .exited := by
  cases h with
  | needsSocket h => rcases h with rfl | rfl <;> exact nofun
  | _ => exact nofun

/-- The close waits for such a thread. -/
structure Lost (ids : ReceiverIds) (sorter : KeySort packetKey) (size thread left : ℕ)
    (state : DeviceState) : Prop where
  /-- The main thread waits in `pthread_join`. -/
  main : state.main = .join
  /-- It waits for this thread. -/
  last : state.gRecvThread = some thread
  /-- The thread is on its way to undefined behaviour. -/
  place : ∃ pc, state.threads[thread]? = some pc ∧ Doomed ids sorter size state pc left

/-- Each move of the thread takes one of those it can make, and no move ends the wait. -/
theorem lost_step (hsound : Sound state) {left : ℕ} (h : Lost ids sorter size thread left state)
    {move : Move} (hstep : step ids sorter size state move = .ok next) :
    ∃ left', left = left' + (if move.isOf thread then 1 else 0) ∧
      Lost ids sorter size thread left' next := by
  obtain ⟨hmain, hlast, pc, hpc, hdoomed⟩ := h
  have hclosed : state.sockFd < 0 := hsound.closing (by rw [hmain]; decide)
  rcases waiting_step hsound hmain hlast hpc hdoomed.alive hstep with
    ⟨rfl, hother⟩ | ⟨hown, flag', pc', recv', hgoes, hsocket, hrecv, rfl⟩
  · rw [hother]
    exact ⟨left, rfl, hmain, hlast, pc, hpc, hdoomed⟩
  have hplace : (state.threads.set thread pc')[thread]? = some pc' :=
    List.getElem?_set_self (List.getElem?_eq_some_iff.mp hpc).choose
  rw [hown]
  cases hdoomed with
  | @setFlag left =>
    obtain ⟨rfl, rfl⟩ := hgoes.started
    exact ⟨left + 1, rfl, hmain, hlast, _, hplace, .testFlag rfl⟩
  | @testFlag left hflag =>
    rw [hflag] at hgoes
    obtain rfl := hgoes.goesOn
    exact ⟨left, rfl, hmain, hlast, _, hplace, .needsSocket (.inl rfl)⟩
  | needsSocket hneeds => exact absurd (hsocket hneeds) (not_le.mpr hclosed)
  | handle hfault =>
    rw [hrecv _ rfl] at hfault
    cases hfault

/-- Nor do any number of moves. -/
theorem lost_run (hsound : Sound state) {left : ℕ} (h : Lost ids sorter size thread left state)
    (hrun : runEvents (step ids sorter size) state moves = .ok last) :
    moves.countP (Move.isOf thread) ≤ left ∧ last.main = .join := by
  induction moves generalizing state left with
  | nil =>
    cases hrun
    exact ⟨Nat.zero_le _, h.main⟩
  | cons move moves ih =>
    rw [runEvents] at hrun
    cases hstep : step ids sorter size state move with
    | error fault =>
      rw [hstep] at hrun
      cases hrun
    | ok next =>
      rw [hstep] at hrun
      obtain ⟨left', rfl, hnext⟩ := lost_step hsound h hstep
      obtain ⟨hcount, hmain⟩ := ih (sound_step hsound hstep) hnext hrun
      refine ⟨?_, hmain⟩
      rw [List.countP_cons]
      omega

/-- The thread has exited, or the close waits for it with the flag cleared, and it
has so many moves left. -/
def Stopping (thread left : ℕ) (state : DeviceState) : Prop :=
  ∃ pc, state.threads[thread]? = some pc ∧ (pc = .exited ∨
    state.main = .join ∧ state.gRecvThread = some thread ∧ state.gFlag = false ∧
      pc ≠ .setFlag ∧ pc.movesLeft ≤ left)

/-- A thread that has exited stays so. -/
theorem exited_step (hexited : state.threads[thread]? = some .exited) {move : Move}
    (hstep : step ids sorter size state move = .ok next) :
    next.threads[thread]? = some .exited := by
  cases move with
  | main answer =>
    obtain rfl := step_main hstep
    rcases mainStep_threads state answer with hsame | hcreated
    · rw [hsame, hexited]
    · rw [hcreated, List.getElem?_append_left (List.getElem?_eq_some_iff.mp hexited).choose,
        hexited]
  | pop =>
    cases hstep
    rw [popStep]
    split_ifs <;> exact hexited
  | recv other answer =>
    obtain ⟨rfl, -⟩ | ⟨pc, flag', pc', recv', hpc, hgoes, -, -, rfl⟩ := recvThreadStep_cases hstep
    · exact hexited
    by_cases heq : other = thread
    · rw [heq, hexited] at hpc
      exact absurd (Option.some.inj hpc).symm hgoes.alive
    · rw [List.getElem?_set_ne heq]
      exact hexited

/-- Each move of the thread takes one of those it has left. -/
theorem stopping_step (hsound : Sound state) {left : ℕ} (h : Stopping thread left state)
    {move : Move} (hstep : step ids sorter size state move = .ok next) :
    Stopping thread (left - if move.isOf thread then 1 else 0) next := by
  obtain ⟨pc, hpc, rfl | ⟨hmain, hlast, hflag, hset, hleft⟩⟩ := h
  · exact ⟨.exited, exited_step hpc hstep, .inl rfl⟩
  by_cases hexited : pc = .exited
  · rw [hexited] at hpc
    exact ⟨.exited, exited_step hpc hstep, .inl rfl⟩
  have hclosed : state.sockFd < 0 := hsound.closing (by rw [hmain]; decide)
  rcases waiting_step hsound hmain hlast hpc hexited hstep with
    ⟨rfl, hother⟩ | ⟨hown, flag', pc', recv', hgoes, hsocket, -, rfl⟩
  · rw [hother]
    exact ⟨pc, hpc, .inr ⟨hmain, hlast, hflag, hset, hleft⟩⟩
  · have hlt := (List.getElem?_eq_some_iff.mp hpc).choose
    have hfree : ¬pc.NeedsSocket := fun hneeds => absurd (hsocket hneeds) (not_le.mpr hclosed)
    rw [hflag] at hgoes
    obtain ⟨hflag', hset', hless⟩ := hgoes.movesLeft_lt hset hfree
    refine ⟨pc', List.getElem?_set_self hlt, .inr ⟨hmain, hlast, hflag', hset', ?_⟩⟩
    rw [hown, if_pos rfl]
    omega

/-- So do the moves of a run. -/
theorem stopping_run (hsound : Sound state) {left : ℕ} (h : Stopping thread left state)
    (hrun : runEvents (step ids sorter size) state moves = .ok last) :
    Stopping thread (left - moves.countP (Move.isOf thread)) last := by
  induction moves generalizing state left with
  | nil =>
    cases hrun
    exact h
  | cons move moves ih =>
    rw [runEvents] at hrun
    cases hstep : step ids sorter size state move with
    | error fault =>
      rw [hstep] at hrun
      cases hrun
    | ok next =>
      rw [hstep] at hrun
      have hmore := ih (sound_step hsound hstep) (stopping_step hsound h hstep) hrun
      rw [Nat.sub_sub, Nat.add_comm] at hmore
      rw [List.countP_cons]
      exact hmore

/-- A thread that is not stuck, and whose calls time out, is at its test of the flag or
gone behind its next move. -/
theorem idle_step {pc : RecvPc} (hpc : state.threads[thread]? = some pc)
    (hfree : ¬Stuck ids sorter size state.recv pc) (hflag : state.gFlag = false) :
    ∃ next pc', step ids sorter size state (.recv thread idle) = .ok next ∧
      next.threads[thread]? = some pc' ∧
      (pc' = .exited ∨ pc' = .testFlag ∧ pc ≠ .testFlag) ∧
      next.main = state.main ∧ next.gRecvThread = state.gRecvThread ∧ next.gFlag = false := by
  have hlt := (List.getElem?_eq_some_iff.mp hpc).choose
  rw [step, recvThreadStep]
  dsimp only
  rw [hpc]
  cases pc with
  | setFlag => exact absurd (.inl rfl) hfree
  | setFd => exact absurd (.inr (.inl (.inl rfl))) hfree
  | isSet => exact absurd (.inr (.inl (.inr rfl))) hfree
  | testFlag =>
    refine ⟨_, .exited, rfl, ?_, .inl rfl, rfl, rfl, hflag⟩
    rw [hflag]
    exact List.getElem?_set_self hlt
  | select =>
    have hne : RecvPc.select ≠ .testFlag := fun heq => RecvPc.noConfusion heq
    exact ⟨_, .testFlag, rfl, List.getElem?_set_self hlt, .inr ⟨rfl, hne⟩, rfl, rfl, hflag⟩
  | receive =>
    have hne : RecvPc.receive ≠ .testFlag := fun heq => RecvPc.noConfusion heq
    exact ⟨_, .testFlag, rfl, List.getElem?_set_self hlt, .inr ⟨rfl, hne⟩, rfl, rfl, hflag⟩
  | handle frame =>
    have hne : RecvPc.handle frame ≠ .testFlag := fun heq => RecvPc.noConfusion heq
    cases hrecv : recvStep ids sorter size state.recv frame with
    | error fault => exact absurd (.inr (.inr ⟨frame, fault, rfl, hrecv⟩)) hfree
    | ok recv =>
      refine ⟨{ state with threads := state.threads.set thread .testFlag, recv := recv },
        .testFlag, ?_, List.getElem?_set_self hlt, .inr ⟨rfl, hne⟩, rfl, rfl, hflag⟩
      dsimp only
      rw [hrecv]
  | exited => exact ⟨_, .exited, rfl, hpc, .inl rfl, rfl, rfl, hflag⟩

/-- At the test of the flag, or gone, no thread is stuck. -/
theorem not_stuck {pc : RecvPc} (h : pc = .exited ∨ pc = .testFlag) {recv : RecvState} :
    ¬Stuck ids sorter size recv pc := by
  rintro (rfl | (rfl | rfl) | ⟨frame, fault, rfl, -⟩)
  · exact h.elim nofun nofun
  · exact h.elim nofun nofun
  · exact h.elim nofun nofun
  · exact h.elim nofun nofun

/-- The close can return from a thread that is not stuck. -/
theorem free_returns (hmain : state.main = .join) (hlast : state.gRecvThread = some thread)
    {pc : RecvPc} (hpc : state.threads[thread]? = some pc)
    (hfree : ¬Stuck ids sorter size state.recv pc) (hflag : state.gFlag = false) :
    ∃ moves last, runEvents (step ids sorter size) state moves = .ok last ∧
      last.main = .mutexDestroy := by
  obtain ⟨first, pc₁, hfirst, hpc₁, hplace₁, hmain₁, hlast₁, hflag₁⟩ := idle_step hpc hfree hflag
  obtain ⟨second, pc₂, hsecond, hpc₂, hplace₂, hmain₂, hlast₂, -⟩ :=
    @idle_step ids sorter size first thread pc₁ hpc₁
      (not_stuck (hplace₁.imp_right And.left)) hflag₁
  have hgone : pc₂ = .exited := by
    rcases hplace₁ with rfl | ⟨rfl, -⟩
    · have hstays := exited_step hpc₁ hsecond
      exact Option.some.inj (hpc₂.symm.trans hstays)
    · exact hplace₂.resolve_right fun h => absurd rfl h.2
  have hjoined : second.joined := by
    rw [DeviceState.joined, hlast₂, hlast₁, hlast, Option.bind_some, hpc₂, hgone]
  refine ⟨[.recv thread idle, .recv thread idle, .main none],
    { second with main := .mutexDestroy }, ?_, rfl⟩
  have hjoin : second.main = .join := hmain₂.trans (hmain₁.trans hmain)
  rw [runEvents, hfirst]
  dsimp only
  rw [runEvents, hsecond]
  dsimp only
  rw [runEvents, step_main_of_ne (by rw [hjoin]; decide), mainStep.eq_def, hjoin]
  dsimp only
  rw [if_pos hjoined]
  rfl

/-- The close, from the clear of the flag on. It waits in every run without undefined
behaviour if and only if its thread is stuck then, and such a thread makes at most two
more moves before it runs into undefined behaviour; any other has exited behind three
more of its moves. -/
theorem close_waits_iff (h : Reachable ids sorter size state) (hmain : state.main = .clearFlag) :
    ∃ thread pc, state.gRecvThread = some thread ∧ state.threads[thread]? = some pc ∧
      ((∀ moves last,
          runEvents (step ids sorter size) state (.main none :: moves) = .ok last →
          last.main = .join) ↔ Stuck ids sorter size state.recv pc) ∧
      (Stuck ids sorter size state.recv pc → ∀ moves last,
        runEvents (step ids sorter size) state (.main none :: moves) = .ok last →
        moves.countP (Move.isOf thread) ≤ 2) ∧
      (¬Stuck ids sorter size state.recv pc → ∀ moves last,
        runEvents (step ids sorter size) state (.main none :: moves) = .ok last →
        3 ≤ moves.countP (Move.isOf thread) → last.threads[thread]? = some .exited) := by
  have hsound := h.sound
  obtain ⟨thread, hlast, hlt⟩ := hsound.latest (by rw [hmain]; decide)
  have hpc : state.threads[thread]? = some state.threads[thread] := List.getElem?_eq_getElem hlt
  generalize state.threads[thread] = pc at hpc
  have hcleared : mainStep state none = { state with gFlag := false, main := .join } := by
    rw [mainStep.eq_def, hmain]
  have hnext : Sound { state with gFlag := false, main := .join } := by
    rw [← hcleared]
    exact sound_mainStep hsound none
  have hsteps : ∀ moves, runEvents (step ids sorter size) state (.main none :: moves) =
      runEvents (step ids sorter size) { state with gFlag := false, main := .join } moves := by
    intro moves
    rw [runEvents, step_main_of_ne (by rw [hmain]; decide), hcleared]
  simp only [hsteps]
  have hlost : Stuck ids sorter size state.recv pc →
      Lost ids sorter size thread 2 { state with gFlag := false, main := .join } :=
    fun hstuck => ⟨rfl, hlast, pc, hpc, Stuck.doomed hstuck⟩
  refine ⟨thread, pc, hlast, hpc, ⟨fun hwaits => ?_, fun hstuck moves last hrun => ?_⟩,
    fun hstuck moves last hrun => ?_, fun hfree moves last hrun hcount => ?_⟩
  · by_contra hfree
    obtain ⟨moves, last, hrun, hreturned⟩ := @free_returns ids sorter size
      { state with gFlag := false, main := .join } thread rfl hlast pc hpc hfree rfl
    rw [hwaits moves last hrun] at hreturned
    cases hreturned
  · exact (lost_run hnext (hlost hstuck) hrun).2
  · exact (lost_run hnext (hlost hstuck) hrun).1
  · have hset : pc ≠ .setFlag := fun hset => hfree (.inl hset)
    have hstop : Stopping thread 3 { state with gFlag := false, main := .join } :=
      ⟨pc, hpc, .inr ⟨rfl, hlast, rfl, hset, movesLeft_le hset⟩⟩
    obtain ⟨lastPc, hlastPc, hexited⟩ := stopping_run hnext hstop hrun
    rw [Nat.sub_eq_zero_of_le hcount] at hexited
    rcases hexited with rfl | ⟨-, -, -, -, hleft⟩
    · exact hlastPc
    · rw [hlastPc, movesLeft_eq_zero (Nat.le_zero.mp hleft)]

/-- A close that was faster than the start of the thread. -/
def hurriedClose : DeviceState := ⟨.clearFlag, [.setFlag], some 0, -1, true, .ready, emptyState⟩

/-- A close that finds its thread in `select`. -/
def calmClose : DeviceState := ⟨.clearFlag, [.select], some 0, -1, true, .ready, emptyState⟩

/-- The first waits as long as its thread goes right; the second gets its thread back. -/
theorem close_waits_sample :
    (∀ moves last, runEvents (step ⟨0x31, 0x32⟩ (insertionKeySort packetKey) canDataTotalSize)
        hurriedClose (.main none :: moves) = .ok last → last.main = .join) ∧
      ∀ moves last, runEvents (step ⟨0x31, 0x32⟩ (insertionKeySort packetKey) canDataTotalSize)
        calmClose (.main none :: moves) = .ok last → 3 ≤ moves.countP (Move.isOf 0) →
        last.threads[0]? = some .exited := by
  have hhurried : Reachable ⟨0x31, 0x32⟩ (insertionKeySort packetKey) canDataTotalSize
      hurriedClose :=
    ⟨[.main (some 3), .main (some 0), .main none, .main none, .main none, .main none], rfl⟩
  have hcalm : Reachable ⟨0x31, 0x32⟩ (insertionKeySort packetKey) canDataTotalSize calmClose :=
    ⟨[.main (some 3), .main (some 0), .main none, .main none, .recv 0 idle, .recv 0 idle,
      .recv 0 idle, .main none, .main none], rfl⟩
  constructor
  · obtain ⟨thread, pc, hthread, hpc, hwaits, -⟩ := close_waits_iff hhurried rfl
    obtain rfl : 0 = thread := Option.some.inj hthread
    obtain rfl : RecvPc.setFlag = pc := Option.some.inj hpc
    exact hwaits.mpr (.inl rfl)
  · obtain ⟨thread, pc, hthread, hpc, -, -, hreturns⟩ := close_waits_iff hcalm rfl
    obtain rfl : 0 = thread := Option.some.inj hthread
    obtain rfl : RecvPc.select = pc := Option.some.inj hpc
    refine hreturns ?_
    rintro (hset | (hset | hset) | ⟨frame, fault, hset, -⟩)
    · cases hset
    · cases hset
    · cases hset
    · cases hset

end Close

end RobotOta.ReceiveThread
