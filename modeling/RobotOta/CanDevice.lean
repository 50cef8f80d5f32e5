import Mathlib.Data.Multiset.Basic
import Mathlib.Logic.Relation
import RobotOta.BitTimingOptimum

/-!
# The CAN network device

The driver core keeps a device's settings, its restart timer and the frames it
echoes. Drivers and the network layer call into it: the functions below change the
device as the source does, and what leaves the device is kept in a ledger.
-/

namespace RobotOta.CanDevice

open BitTiming

/-- `can_state`. -/
inductive CanState
  | ERROR_ACTIVE
  | ERROR_WARNING
  | ERROR_PASSIVE
  | BUS_OFF
  | STOPPED
  | SLEEPING
  deriving DecidableEq, Repr

/-- Packet classes of a socket buffer that the echo looks at or sets. -/
inductive PacketType
  | LOOPBACK
  | BROADCAST
  | OTHER
  deriving DecidableEq, Repr

/-- A socket buffer: what it carries, whose it is and how many hold it. -/
structure Skb where
  /-- What tells one buffer from another. -/
  data : ℕ
  /-- The socket that owns it. -/
  sk : Option ℕ
  /-- How many hold it; with more than one it is shared. -/
  users : ℕ
  /-- `pkt_type`. -/
  pktType : PacketType
  /-- `protocol`. -/
  protocol : ℕ
  /-- `ip_summed` is `CHECKSUM_UNNECESSARY`. -/
  checksumUnnecessary : Bool
  deriving DecidableEq, Repr

/-- `ETH_P_CAN`. -/
def ETH_P_CAN : ℕ := 0x000C

/-- `CAN_ERR_DLC`. -/
def CAN_ERR_DLC : ℕ := 8

/-- Where the frames handed to `can_put_echo_skb` went, oldest first. -/
structure Ledger where
  /-- Every buffer handed over. -/
  handed : List Skb
  /-- Freed at once: no echo wanted, the slot taken, or no memory for a copy. -/
  refused : List Skb
  /-- Given up for the copy that is echoed in its place. -/
  copied : List Skb
  /-- Passed upstream by `can_get_echo_skb`. -/
  echoed : List Skb
  /-- Freed out of a slot, by `can_free_echo_skb` or a flush. -/
  aborted : List Skb
  deriving DecidableEq, Repr

/-- A CAN device: `net_device` and `can_priv` as far as the core uses them. -/
structure NetDevice where
  /-- The register limits, if the driver states any. -/
  bittimingConst : Option BittimingConst
  /-- `clock.freq`. -/
  clockFreq : ℕ
  /-- The modes that may be asked for. -/
  ctrlmodeSupported : BitVec 32
  /-- `IFF_ECHO`. -/
  echoes : Bool
  /-- `IFF_UP`. -/
  up : Bool
  /-- `netif_carrier_ok`. -/
  carrier : Bool
  /-- The timing in use. -/
  bittiming : Bittiming
  /-- The modes in use. -/
  ctrlmode : BitVec 32
  /-- `restart_ms`; zero leaves the restart to the user. -/
  restartMs : ℕ
  /-- The error state of the controller. -/
  state : CanState
  /-- When the pending restart timer expires. -/
  restartTimer : Option ℕ
  /-- The slots of the echo buffers. -/
  echoSkb : List (Option Skb)
  /-- `tx_dropped`. -/
  txDropped : ℕ
  /-- `tx_aborted_errors`. -/
  txAbortedErrors : ℕ
  /-- `rx_packets`. -/
  rxPackets : ℕ
  /-- `rx_bytes`. -/
  rxBytes : ℕ
  /-- `restarts`. -/
  restarts : ℕ
  /-- `bus_off`. -/
  busOff : ℕ
  /-- Restart messages passed upstream. -/
  restarted : ℕ
  /-- Where the buffers that were handed over have gone. -/
  ledger : Ledger
  deriving DecidableEq, Repr

/-- The buffers waiting in the slots. -/
def NetDevice.pending (dev : NetDevice) : List Skb := dev.echoSkb.filterMap id

/-- `can_flush_echo_skb`. -/
def canFlushEchoSkb (dev : NetDevice) : NetDevice :=
  { dev with
    echoSkb := dev.echoSkb.map fun _ => none
    txDropped := dev.txDropped + dev.pending.length
    txAbortedErrors := dev.txAbortedErrors + dev.pending.length
    ledger := { dev.ledger with aborted := dev.ledger.aborted ++ dev.pending } }

/-- The settings that make a buffer ready to be passed upstream. -/
def Skb.forEcho (skb : Skb) : Skb :=
  { skb with users := 1, protocol := ETH_P_CAN, pktType := .BROADCAST, checksumUnnecessary := true }

/-- `can_put_echo_skb`; `cloned` tells whether there is memory for a copy where
the buffer has other users. `none` is the `BUG_ON` of a slot that is not there. -/
def canPutEchoSkb (skb : Skb) (dev : NetDevice) (idx : ℕ) (cloned : Bool) : Option NetDevice :=
  let ledger := { dev.ledger with handed := dev.ledger.handed ++ [skb] }
  match dev.echoSkb[idx]? with
  | none => none
  | some slot =>
    if dev.echoes = false ∨ skb.pktType ≠ .LOOPBACK then
      some { dev with ledger := { ledger with refused := ledger.refused ++ [skb] } }
    else
      match slot with
      | none =>
        if skb.users ≠ 1 then
          if cloned then
            some { dev with
              echoSkb := dev.echoSkb.set idx (some skb.forEcho)
              ledger := { ledger with copied := ledger.copied ++ [skb] } }
          else some { dev with ledger := { ledger with refused := ledger.refused ++ [skb] } }
        else
          some { dev with
            echoSkb := dev.echoSkb.set idx (some skb.forEcho)
            ledger := ledger }
      | some _ => some { dev with ledger := { ledger with refused := ledger.refused ++ [skb] } }

/-- `can_get_echo_skb`. -/
def canGetEchoSkb (dev : NetDevice) (idx : ℕ) : Option NetDevice :=
  match dev.echoSkb[idx]? with
  | none => none
  | some none => some dev
  | some (some skb) =>
    some { dev with
      echoSkb := dev.echoSkb.set idx none
      ledger := { dev.ledger with echoed := dev.ledger.echoed ++ [skb] } }

/-- `can_free_echo_skb`. -/
def canFreeEchoSkb (dev : NetDevice) (idx : ℕ) : Option NetDevice :=
  match dev.echoSkb[idx]? with
  | none => none
  | some none => some dev
  | some (some skb) =>
    some { dev with
      echoSkb := dev.echoSkb.set idx none
      ledger := { dev.ledger with aborted := dev.ledger.aborted ++ [skb] } }

/-- `can_restart`, with memory for the error message or not, and the state the
driver's `do_set_mode` leaves. `none` is the `BUG_ON` of a carrier that is on. -/
def canRestart (dev : NetDevice) (allocated : Bool) (state : CanState) : Option NetDevice :=
  if dev.carrier = true then none
  else
    let dev := canFlushEchoSkb dev
    let dev :=
      if allocated then
        { dev with
          restarted := dev.restarted + 1
          rxPackets := dev.rxPackets + 1
          rxBytes := dev.rxBytes + CAN_ERR_DLC }
      else dev
    some { dev with restarts := dev.restarts + 1, state := state, carrier := true }

/-- Error numbers as the functions return them. -/
def Errno.code : Errno → ℤ
  | .EBUSY => -16
  | .EINVAL => -22
  | .EDOM => -33
  | .ERANGE => -34
  | .EOPNOTSUPP => -95
  | .ENOTSUPP => -524

/-- `can_restart_now` at time `jiffies`. -/
def canRestartNow (dev : NetDevice) (jiffies : ℕ) : ℤ × NetDevice :=
  if dev.restartMs ≠ 0 then (Errno.code .EINVAL, dev)
  else if dev.state ≠ .BUS_OFF then (Errno.code .EBUSY, dev)
  else (0, { dev with restartTimer := some jiffies })

/-- `can_bus_off` at time `jiffies`, with `HZ` ticks a second. The product is an `int`
in the source; here it does not overflow. -/
def canBusOff (dev : NetDevice) (hz jiffies : ℕ) : NetDevice :=
  { dev with
    carrier := false
    busOff := dev.busOff + 1
    restartTimer :=
      if dev.restartMs ≠ 0 then some (jiffies + dev.restartMs * hz / 1000)
      else dev.restartTimer }

/-- `can_default_parameters`: restart after 100 ms, and 500 kbit/s where the timing
for it can be had. `none` is a division by zero. -/
def canDefaultParameters (dev : NetDevice) : Option NetDevice :=
  let dev := { dev with restartMs := 100 }
  match canGetBittiming dev.bittimingConst dev.clockFreq ⟨500000, 0, 0, 0, 0, 0, 0, 0⟩ with
  | none => none
  | some (.error _) => some dev
  | some (.ok bt) => some { dev with bittiming := bt }

/-- `alloc_candev` with the slots of a driver, which then gives the limits of its
controller, its clock, the control modes and whether the device echoes. -/
def allocCandev (echoSkbMax : ℕ) (bittimingConst : Option BittimingConst) (clockFreq : ℕ)
    (ctrlmodeSupported : BitVec 32) (echoes : Bool) : NetDevice where
  bittimingConst := bittimingConst
  clockFreq := clockFreq
  ctrlmodeSupported := ctrlmodeSupported
  echoes := echoes
  up := false
  carrier := true
  bittiming := ⟨0, 0, 0, 0, 0, 0, 0, 0⟩
  ctrlmode := 0
  restartMs := 0
  state := .STOPPED
  restartTimer := none
  echoSkb := List.replicate echoSkbMax none
  txDropped := 0
  txAbortedErrors := 0
  rxPackets := 0
  rxBytes := 0
  restarts := 0
  busOff := 0
  restarted := 0
  ledger := ⟨[], [], [], [], []⟩

/-- `open_candev`: the carrier is switched on and the restart timer set up anew. -/
def openCandev (dev : NetDevice) : ℤ × NetDevice :=
  if dev.bittiming.tq = 0 ∧ dev.bittiming.bitrate = 0 then (Errno.code .EINVAL, dev)
  else (0, { dev with carrier := true, restartTimer := none })

/-- `close_candev`. -/
def closeCandev (dev : NetDevice) : NetDevice :=
  canFlushEchoSkb { dev with restartTimer := none }

/-- What a netlink request asks for: the mask and the flags of the control mode,
the bit timing, the restart delay, a restart. -/
structure LinkRequest where
  /-- `IFLA_CAN_CTRLMODE`. -/
  ctrlmode : Option (BitVec 32 × BitVec 32)
  /-- `IFLA_CAN_BITTIMING`. -/
  bittiming : Option Bittiming
  /-- `IFLA_CAN_RESTART_MS`. -/
  restartMs : Option ℕ
  /-- `IFLA_CAN_RESTART`. -/
  restart : Bool
  deriving DecidableEq, Repr

/-- The control mode part of `can_changelink`. -/
def changeCtrlmode (dev : NetDevice) : Option (BitVec 32 × BitVec 32) → ℤ × NetDevice
  | none => (0, dev)
  | some (mask, flags) =>
    if dev.up = true then (Errno.code .EBUSY, dev)
    else if flags &&& ~~~dev.ctrlmodeSupported ≠ 0 then (Errno.code .EOPNOTSUPP, dev)
    else (0, { dev with ctrlmode := (dev.ctrlmode &&& ~~~mask) ||| flags })

/-- The bit timing part; `registers` is what the driver's `do_set_bittiming`
returns, where it has one. `none` is a division by zero. -/
def changeBittiming (dev : NetDevice) (registers : Option ℤ) :
    Option Bittiming → Option (ℤ × NetDevice)
  | none => some (0, dev)
  | some bt =>
    if dev.up = true then some (Errno.code .EBUSY, dev)
    else if bt.bitrate = 0 ∧ bt.tq = 0 ∨ bt.bitrate ≠ 0 ∧ bt.tq ≠ 0 then
      some (Errno.code .EINVAL, dev)
    else
      match canGetBittiming dev.bittimingConst dev.clockFreq bt with
      | none => none
      | some (.error e) => some (Errno.code e, dev)
      | some (.ok bt) => some (registers.getD 0, { dev with bittiming := bt })

/-- The restart delay part. -/
def changeRestartMs (dev : NetDevice) : Option ℕ → ℤ × NetDevice
  | none => (0, dev)
  | some restartMs =>
    if dev.up = true then (Errno.code .EBUSY, dev) else (0, { dev with restartMs := restartMs })

/-- The restart part. -/
def changeRestart (dev : NetDevice) (jiffies : ℕ) (restart : Bool) : ℤ × NetDevice :=
  if restart = false then (0, dev)
  else if dev.up = false then (Errno.code .EINVAL, dev)
  else canRestartNow dev jiffies

/-- `can_changelink`: the parts in order, up to the first that fails. -/
def canChangelink (dev : NetDevice) (request : LinkRequest) (registers : Option ℤ) (jiffies : ℕ) :
    Option (ℤ × NetDevice) :=
  match changeCtrlmode dev request.ctrlmode with
  | (err, dev) =>
    if err ≠ 0 then some (err, dev)
    else
      match changeBittiming dev registers request.bittiming with
      | none => none
      | some (err, dev) =>
        if err ≠ 0 then some (err, dev)
        else
          match changeRestartMs dev request.restartMs with
          | (err, dev) =>
            if err ≠ 0 then some (err, dev) else some (changeRestart dev jiffies request.restart)

end RobotOta.CanDevice
