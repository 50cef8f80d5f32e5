import RobotOta.CanReassembly
import RobotOta.HexLoader
import RobotOta.RequestProgram

/-!
# The upgrade of the robot's boards

`robotUpdate.cpp` as programs over the CAN send and receive functions. The
message types and module ids come from headers outside the repository and are
parameters. Every command of the protocol is sent by one retry loop; the
functions that use it keep their names. Progress bars and printing are left
out, except `downloadProgress`, whose arguments are computed here.
-/

namespace RobotOta.BoardUpgrade

open CanFrameCodec CanReassembly HexLoader RequestProgram

/-- The five commands of the upgrade protocol. -/
inductive MessageKind where
  | startFlag
  | dataAddress
  | firmwareData
  | dataCRC
  | endFlag
  deriving DecidableEq

/-- `ROBOT_UPGRADE_*_CMD` and `ROBOT_UPGRADE_*_RESP`. -/
structure MessageCodes where
  /-- The first byte of a command. -/
  cmd : MessageKind → Byte
  /-- The first byte of its answer. -/
  resp : MessageKind → Byte
  /-- Different commands have different types. -/
  cmd_injective : Function.Injective cmd
  /-- So have their answers. -/
  resp_injective : Function.Injective resp

/-- The module ids the upgrade uses. -/
structure ModuleIds extends ReceiverIds where
  /-- `RP_UPGRADE_ID`. -/
  rpUpgradeId : Byte
  /-- `RF_UPGRADE_ID`. -/
  rfUpgradeId : Byte
  /-- `RC_SYS_CTRL_ID`. -/
  rcSysCtrlId : Byte
  /-- `RP_SYSCTRL_ID`. -/
  rpSysctrlId : Byte
  /-- `RF_SYSCTRL_ID`. -/
  rfSysctrlId : Byte
  /-- `RB_R_ARM_SYS_CTRL_ID`. -/
  rbRArmSysCtrlId : Byte
  /-- `RB_L_ARM_SYS_CTRL_ID`. -/
  rbLArmSysCtrlId : Byte
  /-- `RB_BODY_SYS_CTRL_ID`. -/
  rbBodySysCtrlId : Byte
  /-- `RC_UPGRADE_ID`. -/
  rcUpgradeId : Byte
  /-- `RB_L_ARM_UPGRADE_ID`. -/
  rbLArmUpgradeId : Byte
  /-- `RB_R_ARM_UPGRADE_ID`. -/
  rbRArmUpgradeId : Byte
  /-- `RB_BODY_UPGRADE_ID`. -/
  rbBodyUpgradeId : Byte

/-- Command types from 16 on, with their answers from 32 on. -/
instance : Inhabited MessageCodes where
  default :=
    { cmd := fun
        | .startFlag => 16
        | .dataAddress => 17
        | .firmwareData => 18
        | .dataCRC => 19
        | .endFlag => 20
      resp := fun
        | .startFlag => 32
        | .dataAddress => 33
        | .firmwareData => 34
        | .dataCRC => 35
        | .endFlag => 36
      cmd_injective := by
        intro kind kind' h
        cases kind <;> cases kind' <;> first | rfl | exact absurd h (by decide)
      resp_injective := by
        intro kind kind' h
        cases kind <;> cases kind' <;> first | rfl | exact absurd h (by decide) }

/-- Module ids from 1 on. -/
instance : Inhabited ModuleIds where
  default :=
    { rmSysctrlId := 1, rmUpgradeId := 2, rpUpgradeId := 3, rfUpgradeId := 4, rcSysCtrlId := 5,
      rpSysctrlId := 6, rfSysctrlId := 7, rbRArmSysCtrlId := 8, rbLArmSysCtrlId := 9,
      rbBodySysCtrlId := 10, rcUpgradeId := 11, rbLArmUpgradeId := 12, rbRArmUpgradeId := 13,
      rbBodyUpgradeId := 14 }

/-- What `LoadHex` leaves behind: the elements in `GetElement` order and the
data size. Their bytes lie in the memory of a 32-bit process. -/
structure HexImage where
  /-- The elements in the order of `CompactElements`. -/
  elements : List ImageElement
  /-- `m_dataSize`. -/
  dataSize : BitVec 32
  /-- All bytes together fit into the memory. -/
  fits : (elements.map fun e => e.data.length).sum < 2 ^ 32

/-- What the programs of this module ask their surroundings for. -/
inductive UpdateRequest where
  | sendCANData (sId dId : Byte) (pdata : List Byte)
  /-- The global `sock_fd`. -/
  | sockFd
  /-- How many further rounds a read makes before its clock shows the timeout. -/
  | waitRounds (timeout : ℕ)
  /-- The queue's first packet, if there is one. What the read that asks is
  waiting for does not change the answer. -/
  | popFromRecvList (expSId expMsgType : Byte)
  | loadHex (file : String) (addrBytes : ℕ)
  | downloadProgress (cur tol : BitVec 32)
  | ensurePathMounted (path : String)
  | openCANDevice
  | closeCANDevice

/-- The types of the answers. -/
def UpdateAnswer : UpdateRequest → Type
  | .sendCANData .. => Int
  | .sockFd => Int
  | .waitRounds _ => ℕ
  | .popFromRecvList .. => Option CanPacket
  | .loadHex .. => Option HexImage
  | .downloadProgress .. => Unit
  | .ensurePathMounted _ => Int
  | .openCANDevice => Int
  | .closeCANDevice => Unit

/-- A program over these requests. -/
abbrev UpdateM := Program UpdateRequest UpdateAnswer

/-- Call `sendCANData`. -/
abbrev sendCANData (sId dId : Byte) (pdata : List Byte) : UpdateM Int :=
  ask (UpdateRequest.sendCANData sId dId pdata)

/-- Read `sock_fd`. -/
abbrev sockFd : UpdateM Int := ask UpdateRequest.sockFd

/-- The number of further rounds until the timeout. -/
abbrev waitRounds (timeout : ℕ) : UpdateM ℕ := ask (UpdateRequest.waitRounds timeout)

/-- Call `popFromRecvList`, unless the list is empty. -/
abbrev popFromRecvList (expSId expMsgType : Byte) : UpdateM (Option CanPacket) :=
  ask (UpdateRequest.popFromRecvList expSId expMsgType)

/-- Call `LoadHex` on a fresh image. -/
abbrev loadHex (file : String) (addrBytes : ℕ) : UpdateM (Option HexImage) :=
  ask (UpdateRequest.loadHex file addrBytes)

/-- Call `downloadProgress`. -/
abbrev downloadProgress (cur tol : BitVec 32) : UpdateM Unit :=
  ask (UpdateRequest.downloadProgress cur tol)

/-- Call `ensure_path_mounted`. -/
abbrev ensurePathMounted (path : String) : UpdateM Int :=
  ask (UpdateRequest.ensurePathMounted path)

/-- Call `openCANDevice`. -/
abbrev openCANDevice : UpdateM Int := ask UpdateRequest.openCANDevice

/-- Call `closeCANDevice`. -/
abbrev closeCANDevice : UpdateM Unit := ask UpdateRequest.closeCANDevice

/-- The packet a read waits for: from the expected module, with the expected
first byte. A packet without data is taken for another one; the source looks at
the first byte of its block all the same. -/
def expected (expSId expMsgType : Byte) (packet : CanPacket) : Prop :=
  packet.srcId = expSId ∧ packet.pData.head? = some expMsgType

instance (expSId expMsgType : Byte) (packet : CanPacket) :
    Decidable (expected expSId expMsgType packet) :=
  inferInstanceAs (Decidable (_ ∧ _))

/-- One round of the loop of `readCANData`; a packet that is not the expected
one is dropped. -/
def readRound (expSId expMsgType : Byte) (len : ℕ) (otherwise : UpdateM (Int × List Byte)) :
    UpdateM (Int × List Byte) := do
  match ← popFromRecvList expSId expMsgType with
  | some packet =>
    if expected expSId expMsgType packet then
      pure ((packet.pData.length : Int), packet.pData.take len)
    else otherwise
  | none => otherwise

/-- The loop of `readCANData` with so many rounds before the timeout. -/
def readLoop (expSId expMsgType : Byte) (len : ℕ) : (rounds : ℕ) → UpdateM (Int × List Byte)
  | 0 => readRound expSId expMsgType len (pure (-1, []))
  | rounds + 1 => readRound expSId expMsgType len (readLoop expSId expMsgType len rounds)

/-- `readCANData`: its return value and the bytes it copies to `pdata`. The
timeout is at least one second everywhere. -/
def readCANData (expSId expMsgType : Byte) (len timeout : ℕ) : UpdateM (Int × List Byte) := do
  let fd ← sockFd
  if fd = -1 then pure (-1, [])
  else
    let rounds ← waitRounds timeout
    readLoop expSId expMsgType len rounds

/-- `DATA_PACKET_LENGTH`. -/
def dataPacketLength : ℕ := 500
/-- `CMD_TIMEOUT`. -/
def cmdTimeout : ℕ := 1
/-- `DATA_TIMEOUT`. -/
def dataTimeout : ℕ := 30
/-- `RESEND_COUNT`. -/
def resendCount : ℕ := 2

/-- The retry loop of every command: send, read the answer into the three bytes
of `ret_data`, and deal with the first one that comes. The result is the loop's
`ret` with what is left of its counter. -/
def exchange (sId module : Byte) (data : List Byte) (resp : Byte) (timeout : ℕ)
    (deal : List Byte → Int) : (count : ℕ) → (ret : Int) → UpdateM (Int × ℕ)
  | 0, ret => pure (ret, 0)
  | count + 1, _ => do
    let ret ← sendCANData sId module data
    if ret ≠ 0 then exchange sId module data resp timeout deal count ret
    else
      let (ret, retData) ← readCANData module resp 3 timeout
      if 0 < ret then pure (deal retData, count)
      else exchange sId module data resp timeout deal count ret

/-- Any answer will do. -/
def dealAny (_ : List Byte) : Int := 0

/-- The third byte of a CRC answer is its status; bytes that did not come are zero. -/
def dealCRC (retData : List Byte) : Int := if retData.getD 2 0 = 0x00 then 0 else -1

/-- A 32-bit value in big-endian bytes. -/
def bigEndian32 (value : BitVec 32) : List Byte :=
  [(value >>> 24).setWidth 8, (value >>> 16).setWidth 8, (value >>> 8).setWidth 8,
    value.setWidth 8]

/-- A 16-bit value in big-endian bytes. -/
def bigEndian16 (value : BitVec 16) : List Byte := [(value >>> 8).setWidth 8, value.setWidth 8]

/-- One bit of `crc16`. -/
def crc16Bit (crc : BitVec 16) : BitVec 16 :=
  if crc &&& 1 ≠ 0 then (crc >>> 1) ^^^ 0xA001 else crc >>> 1

/-- `crc16`. -/
def crc16 (data : List Byte) : BitVec 16 :=
  data.foldl (fun crc byte => crc16Bit^[8] (crc ^^^ byte.setWidth 16)) 0xFFFF

section Messages

variable (codes : MessageCodes)

/-- The bytes of `sendStartFlag`. -/
def startMessage : List Byte := [codes.cmd .startFlag, 2]

/-- The bytes of `sendDataAddress`. -/
def addressMessage (addr : BitVec 32) : List Byte :=
  codes.cmd .dataAddress :: 6 :: bigEndian32 addr

/-- The bytes of `sendDataCRC`. -/
def crcMessage (crc : BitVec 16) : List Byte := codes.cmd .dataCRC :: 4 :: bigEndian16 crc

/-- The bytes of `sendFirmwareData`, with a length field for everything. -/
def dataMessage (buf : List Byte) : List Byte :=
  codes.cmd .firmwareData :: (bigEndian16 (BitVec.ofNat 16 (buf.length + 3)) ++ buf)

/-- The bytes of `sendEndFlag`. -/
def endMessage : List Byte := [codes.cmd .endFlag, 2]

end Messages

section Commands

variable (codes : MessageCodes) (ids : ModuleIds) (module : Byte)

/-- `sendStartFlag`. -/
def sendStartFlag : UpdateM Int := do
  let (ret, _) ← exchange ids.rmUpgradeId module (startMessage codes) (codes.resp .startFlag)
    cmdTimeout dealAny resendCount (-1)
  pure ret

/-- `sendDataAddress`. -/
def sendDataAddress (addr : BitVec 32) : UpdateM Int := do
  let (ret, _) ← exchange ids.rmUpgradeId module (addressMessage codes addr)
    (codes.resp .dataAddress) cmdTimeout dealAny resendCount (-1)
  pure ret

/-- `sendDataCRC`. -/
def sendDataCRC (crc : BitVec 16) : UpdateM Int := do
  let (ret, _) ← exchange ids.rmUpgradeId module (crcMessage codes crc) (codes.resp .dataCRC)
    dataTimeout dealCRC resendCount (-1)
  pure ret

/-- The outer loop of `sendFirmwareData`. Its inner loop goes on with what the
earlier rounds left of `dataCount`. The result carries `g_DataSended`. -/
def dataRounds (buf : List Byte) (dataTotal : BitVec 32) :
    (count dataCount : ℕ) → (ret : Int) → (dataSended : BitVec 32) →
    UpdateM (Int × BitVec 32)
  | 0, _, ret, dataSended => pure (ret, dataSended)
  | count + 1, dataCount, ret, dataSended => do
    let (ret, dataCount) ← exchange ids.rmUpgradeId module (dataMessage codes buf)
      (codes.resp .firmwareData) dataTimeout dealAny dataCount ret
    if ret = 0 then
      let ret ← sendDataCRC codes ids module (crc16 buf)
      if ret = 0 then
        let dataSended := dataSended + BitVec.ofNat 32 buf.length
        downloadProgress dataSended dataTotal
        pure (ret, dataSended)
      else dataRounds buf dataTotal count dataCount ret dataSended
    else dataRounds buf dataTotal count dataCount ret dataSended

/-- `sendFirmwareData`, with `g_DataSended` before and after. -/
def sendFirmwareData (buf : List Byte) (dataTotal dataSended : BitVec 32) :
    UpdateM (Int × BitVec 32) :=
  dataRounds codes ids module buf dataTotal resendCount resendCount (-1) dataSended

/-- The loop of `sendFirmware` over the full packets of a long element. -/
def sendFullPackets (dataTotal : BitVec 32) :
    (packets : ℕ) → (data : List Byte) → (dataSended : BitVec 32) → UpdateM (Int × BitVec 32)
  | 0, _, dataSended => pure (0, dataSended)
  | packets + 1, data, dataSended => do
    let (ret, dataSended) ←
      sendFirmwareData codes ids module (data.take dataPacketLength) dataTotal dataSended
    if ret ≠ 0 then pure (-1, dataSended)
    else sendFullPackets dataTotal packets (data.drop dataPacketLength) dataSended

/-- The number of packets of a long element, `num` of `sendFirmware`. -/
def packetNum (length : ℕ) : ℕ :=
  if length % dataPacketLength = 0 then length / dataPacketLength
  else length / dataPacketLength + 1

/-- The data of one element. -/
def sendElementData (dataTotal : BitVec 32) (data : List Byte) (dataSended : BitVec 32) :
    UpdateM (Int × BitVec 32) := do
  if data.length ≤ dataPacketLength then
    let (ret, dataSended) ← sendFirmwareData codes ids module data dataTotal dataSended
    if ret ≠ 0 then pure (-1, dataSended) else pure (0, dataSended)
  else
    let num := packetNum data.length
    let (ret, dataSended) ←
      sendFullPackets codes ids module dataTotal (num - 1) data dataSended
    if ret ≠ 0 then pure (-1, dataSended)
    else
      let left := data.length - (num - 1) * dataPacketLength
      let (ret, dataSended) ← sendFirmwareData codes ids module
        ((data.drop ((num - 1) * dataPacketLength)).take left) dataTotal dataSended
      if ret ≠ 0 then pure (-1, dataSended) else pure (0, dataSended)

/-- The loop of `sendFirmware` over the elements. -/
def sendElements (dataTotal : BitVec 32) :
    (elements : List ImageElement) → (dataSended : BitVec 32) → UpdateM (Int × BitVec 32)
  | [], dataSended => pure (0, dataSended)
  | pElement :: elements, dataSended => do
    let ret ← sendDataAddress codes ids module pElement.address
    if ret ≠ 0 then pure (-1, dataSended)
    else
      let (ret, dataSended) ←
        sendElementData codes ids module dataTotal pElement.data dataSended
      if ret ≠ 0 then pure (-1, dataSended)
      else sendElements dataTotal elements dataSended

/-- `sendFirmware`: its return value and `g_DataSended` behind it. -/
def sendFirmware (dataImage : HexImage) : UpdateM (Int × BitVec 32) := do
  downloadProgress 0 dataImage.dataSize
  sendElements codes ids module dataImage.dataSize dataImage.elements 0

/-- `sendEndFlag`. -/
def sendEndFlag : UpdateM Int := do
  let (ret, _) ← exchange ids.rmUpgradeId module (endMessage codes) (codes.resp .endFlag)
    cmdTimeout dealAny resendCount (-1)
  pure ret

end Commands

/-- `upgrade`; the module becomes `g_curModule`. -/
def upgrade (codes : MessageCodes) (ids : ModuleIds) (subModule : Byte) (file : String) :
    UpdateM Int := do
  let addrBytes := if subModule = ids.rpUpgradeId ∨ subModule = ids.rfUpgradeId then 1 else 2
  match ← loadHex file addrBytes with
  | none => pure (-1)
  | some dataImage =>
    let ret ← sendStartFlag codes ids subModule
    if ret ≠ 0 then pure (-1)
    else
      let (ret, _) ← sendFirmware codes ids subModule dataImage
      if ret ≠ 0 then pure (-1)
      else
        let ret ← sendEndFlag codes ids subModule
        if ret ≠ 0 then pure (-1) else pure 0

/-- `COMMON_SYSCTRL_UPGRADE_CMD`. -/
def commonSysctrlUpgradeCmd : Byte := 32
/-- `COMMON_SYSCTRL_UPGRADE_CMD_REP`. -/
def commonSysctrlUpgradeCmdRep : Byte := 33
/-- `COMMON_SYSCTRL_EXIT_UPGRADE_CMD`. -/
def commonSysctrlExitUpgradeCmd : Byte := 34
/-- `COMMON_SYSCTRL_EXIT_UPGRADE_CMD_REP`. -/
def commonSysctrlExitUpgradeCmdRep : Byte := 35

/-- `enter_upgrade_mode`. -/
def enterUpgradeMode (ids : ModuleIds) (module : Byte) : UpdateM Int := do
  let (ret, _) ← exchange ids.rmSysctrlId module [commonSysctrlUpgradeCmd, 2]
    commonSysctrlUpgradeCmdRep cmdTimeout dealAny resendCount (-1)
  pure ret

/-- `exit_upgrade_mode`. -/
def exitUpgradeMode (ids : ModuleIds) (module : Byte) : UpdateM Int := do
  let (ret, _) ← exchange ids.rmSysctrlId module [commonSysctrlExitUpgradeCmd, 2]
    commonSysctrlExitUpgradeCmdRep cmdTimeout dealAny resendCount (-1)
  pure ret

/-- The subsystems in the order they enter and leave the upgrade mode. -/
def sysCtrlModules (ids : ModuleIds) : List Byte :=
  [ids.rcSysCtrlId, ids.rpSysctrlId, ids.rfSysctrlId, ids.rbRArmSysCtrlId, ids.rbLArmSysCtrlId,
    ids.rbBodySysCtrlId]

/-- `allEnterUpgradeMode`; a subsystem that does not answer is only reported. -/
def allEnterUpgradeMode (ids : ModuleIds) : UpdateM Unit :=
  (sysCtrlModules ids).forM fun module => do
    let _ ← enterUpgradeMode ids module
    pure ()

/-- `allExitUpgradeMode`. -/
def allExitUpgradeMode (ids : ModuleIds) : UpdateM Unit :=
  (sysCtrlModules ids).forM fun module => do
    let _ ← exitUpgradeMode ids module
    pure ()

/-- The loop of `robotSubSysUpdate` over the modules with their files. The
results of the `upgrade` calls, which the loop drops, are kept as a ghost. -/
def upgradeModules (codes : MessageCodes) (ids : ModuleIds) :
    (modules : List (Byte × String)) → UpdateM (List Int)
  | [] => pure []
  | m :: modules => do
    let outcome ← upgrade codes ids m.1 m.2
    let outcomes ← upgradeModules codes ids modules
    pure (outcome :: outcomes)

/-- `robotSubSysUpdate`: its return value, and the ghost of its loop. -/
def robotSubSysUpdate (codes : MessageCodes) (ids : ModuleIds)
    (modules : List (Byte × String)) : UpdateM (Int × List Int) := do
  let mounted ← ensurePathMounted "/mnt/internal_sd"
  if mounted ≠ 0 then pure (-1, [])
  else
    let ret ← openCANDevice
    if ret ≠ 0 then pure (-1, [])
    else
      allEnterUpgradeMode ids
      let outcomes ← upgradeModules codes ids modules
      allExitUpgradeMode ids
      closeCANDevice
      pure (ret, outcomes)

section Keeps

variable {World : Type} {act : Effect UpdateRequest UpdateAnswer World} {Inv : World → Prop}

/-- A read keeps what its three requests keep. -/
theorem keeps_readCANData (hfd : Keeps act Inv sockFd) (hwait : ∀ t, Keeps act Inv (waitRounds t))
    {expSId expMsgType : Byte} (hpop : Keeps act Inv (popFromRecvList expSId expMsgType))
    (len timeout : ℕ) : Keeps act Inv (readCANData expSId expMsgType len timeout) := by
  have hround : ∀ {otherwise : UpdateM (Int × List Byte)}, Keeps act Inv otherwise →
      Keeps act Inv (readRound expSId expMsgType len otherwise) := by
    intro otherwise hother
    refine keeps_bind hpop fun packet => ?_
    cases packet with
    | none => exact hother
    | some packet => exact keeps_ite (keeps_pure _) hother
  refine keeps_bind hfd fun fd => keeps_ite (keeps_pure _) ?_
  refine keeps_bind (hwait timeout) fun rounds => ?_
  induction rounds with
  | zero => exact hround (keeps_pure _)
  | succ rounds ih => exact hround ih

/-- A retry loop keeps what its send and its read keep. -/
theorem keeps_exchange {sId module resp : Byte} {data : List Byte} {timeout : ℕ}
    (hsend : Keeps act Inv (sendCANData sId module data))
    (hread : Keeps act Inv (readCANData module resp 3 timeout)) (deal : List Byte → Int)
    (count : ℕ) (ret : Int) :
    Keeps act Inv (exchange sId module data resp timeout deal count ret) := by
  induction count generalizing ret with
  | zero => exact keeps_pure _
  | succ count ih =>
    refine keeps_bind hsend fun ret => keeps_ite (ih ret) ?_
    exact keeps_bind hread fun answer => keeps_ite (keeps_pure _) (ih _)

end Keeps

/-- Surroundings in which every message is sent and every read finds its
answer, with status zero, but no file can be loaded. -/
def perfectReply : (r : UpdateRequest) → UpdateAnswer r
  | .sendCANData .. => (0 : Int)
  | .sockFd => (3 : Int)
  | .waitRounds _ => (0 : ℕ)
  | .popFromRecvList expSId expMsgType => some ⟨0, expSId, 0, [expMsgType, 3, 0]⟩
  | .loadHex .. => none
  | .downloadProgress .. => ()
  | .ensurePathMounted _ => (0 : Int)
  | .openCANDevice => (0 : Int)
  | .closeCANDevice => ()

end RobotOta.BoardUpgrade
