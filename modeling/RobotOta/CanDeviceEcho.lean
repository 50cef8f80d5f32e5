import Mathlib.Algebra.Order.Group.Multiset
import Mathlib.Tactic.Abel
import RobotOta.CanDeviceRuns

/-!
# The echo of sent frames

A buffer handed over for echo waits in a slot until it is passed upstream or freed,
and one that is not to be echoed, or finds its slot taken, is freed at once. Over
every run no buffer is lost, none is echoed twice, and none is left in the slots of
a device that is down.
-/

namespace RobotOta.CanDevice

variable {dev dev' : NetDevice}

section Slots

variable {α : Type*} {slots : List (Option α)} {idx : ℕ} {x : α}

/-- Filling an empty slot adds what is put there. -/
theorem held_set_some (h : slots[idx]? = some none) :
    ((slots.set idx (some x)).filterMap id : Multiset α) = x ::ₘ ↑(slots.filterMap id) := by
  induction slots generalizing idx with
  | nil => cases h
  | cons slot slots ih =>
    cases idx with
    | zero =>
      cases h
      rfl
    | succ idx =>
      have hrest := ih h
      cases slot with
      | none => exact hrest
      | some y =>
        calc (↑(y :: (slots.set idx (some x)).filterMap id) : Multiset α)
            = y ::ₘ x ::ₘ ↑(slots.filterMap id) := congrArg (y ::ₘ ·) hrest
          _ = x ::ₘ ↑(y :: slots.filterMap id) := Multiset.cons_swap _ _ _

/-- Emptying a slot takes out what is there. -/
theorem held_set_none (h : slots[idx]? = some (some x)) :
    x ::ₘ ((slots.set idx none).filterMap id : Multiset α) = ↑(slots.filterMap id) := by
  induction slots generalizing idx with
  | nil => cases h
  | cons slot slots ih =>
    cases idx with
    | zero =>
      cases h
      rfl
    | succ idx =>
      have hrest := ih h
      cases slot with
      | none => exact hrest
      | some y =>
        calc x ::ₘ (↑(y :: (slots.set idx none).filterMap id) : Multiset α)
            = y ::ₘ x ::ₘ ↑((slots.set idx none).filterMap id) :=
              Multiset.cons_swap x y ↑((slots.set idx none).filterMap id)
          _ = ↑(y :: slots.filterMap id) := congrArg (y ::ₘ ·) hrest

theorem held_cleared (slots : List (Option α)) :
    (slots.map fun _ => (none : Option α)).filterMap id = [] := by
  induction slots with
  | nil => rfl
  | cons slot slots ih => exact ih

end Slots

section Balance

/-- The buffers that left their slots or still wait there. -/
def NetDevice.accepted (dev : NetDevice) : Multiset Skb :=
  ↑dev.ledger.echoed + ↑dev.ledger.aborted + ↑dev.pending

/-- Every buffer handed over was refused or accepted, only loopback buffers are
accepted, and the slots of a device that is down are empty. -/
structure EchoSound (dev : NetDevice) : Prop where
  /-- Every buffer handed over was refused or accepted, and none twice. -/
  balance : (dev.ledger.handed.map Skb.forEcho : Multiset Skb) =
    ↑(dev.ledger.refused.map Skb.forEcho) + dev.accepted
  /-- Only buffers that want an echo are accepted. -/
  wanted : dev.accepted ≤
    ((dev.ledger.handed.filter fun skb => skb.pktType = .LOOPBACK).map Skb.forEcho : List Skb)
  /-- A device that is down holds none. -/
  down : dev.up = false → dev.pending = []

/-- What the echo depends on: the ledger, what waits and whether the device is up. -/
theorem EchoSound.congr (h : EchoSound dev) (hledger : dev'.ledger = dev.ledger)
    (hslots : dev'.echoSkb = dev.echoSkb) (hup : dev'.up = false → dev.up = false) :
    EchoSound dev' := by
  obtain ⟨hbalance, hwanted, hdown⟩ := h
  refine ⟨?_, ?_, fun h => ?_⟩
  · rwa [NetDevice.accepted, NetDevice.pending, hledger, hslots]
  · rwa [NetDevice.accepted, NetDevice.pending, hledger, hslots]
  · rw [NetDevice.pending, hslots]
    exact hdown (hup h)

theorem pending_canFlushEchoSkb (dev : NetDevice) : (canFlushEchoSkb dev).pending = [] :=
  held_cleared dev.echoSkb

/-- A flush frees what waits. -/
theorem accepted_canFlushEchoSkb (dev : NetDevice) :
    (canFlushEchoSkb dev).accepted = dev.accepted := by
  rw [NetDevice.accepted, pending_canFlushEchoSkb, canFlushEchoSkb]
  dsimp only
  rw [← Multiset.coe_add, Multiset.coe_nil, add_zero, ← add_assoc]
  rfl

theorem EchoSound.flush (h : EchoSound dev) : EchoSound (canFlushEchoSkb dev) := by
  refine ⟨?_, ?_, fun _ => pending_canFlushEchoSkb dev⟩
  · rw [accepted_canFlushEchoSkb]
    exact h.balance
  · rw [accepted_canFlushEchoSkb]
    exact h.wanted

theorem registered_echoSound (h : Registered dev) : EchoSound dev := by
  obtain ⟨echoSkbMax, _, _, _, _, _, rfl, -⟩ := registered_cases h
  have hempty : (List.replicate echoSkbMax (none : Option Skb)).filterMap id = [] := by
    rw [← held_cleared (List.replicate echoSkbMax (none : Option Skb)), List.map_replicate]
  have haccepted : ∀ dev : NetDevice, dev.ledger = ⟨[], [], [], [], []⟩ →
      dev.echoSkb = List.replicate echoSkbMax none → dev.accepted = 0 := by
    intro dev hledger hslots
    rw [NetDevice.accepted, NetDevice.pending, hledger, hslots, hempty]
    rfl
  refine ⟨?_, ?_, fun _ => hempty⟩
  · rw [haccepted _ rfl rfl]
    rfl
  · rw [haccepted _ rfl rfl]
    exact Multiset.zero_le _

/-- A refused buffer. -/
theorem EchoSound.refuse (h : EchoSound dev) (skb : Skb) (hup : dev.up = true) :
    EchoSound { dev with ledger := { dev.ledger with
      handed := dev.ledger.handed ++ [skb], refused := dev.ledger.refused ++ [skb] } } := by
  obtain ⟨hbalance, hwanted, -⟩ := h
  refine ⟨?_, ?_, fun h => ?_⟩
  · simp only [List.map_append, ← Multiset.coe_add, hbalance]
    exact add_right_comm _ _ _
  · refine hwanted.trans ?_
    rw [List.filter_append, List.map_append, ← Multiset.coe_add]
    exact Multiset.le_add_right _ _
  · rw [hup] at h
    cases h

/-- A buffer that is wanted and finds its slot empty. -/
theorem EchoSound.accept {skb : Skb} {idx : ℕ} {next : NetDevice} (h : EchoSound dev)
    (hslot : dev.echoSkb[idx]? = some none) (hskb : skb.pktType = .LOOPBACK)
    (hslots : next.echoSkb = dev.echoSkb.set idx (some skb.forEcho))
    (hhanded : next.ledger.handed = dev.ledger.handed ++ [skb])
    (hrefused : next.ledger.refused = dev.ledger.refused)
    (hechoed : next.ledger.echoed = dev.ledger.echoed)
    (haborted : next.ledger.aborted = dev.ledger.aborted) (hup : next.up = true) :
    EchoSound next := by
  obtain ⟨hbalance, hwanted, -⟩ := h
  have haccepted : next.accepted = dev.accepted + {skb.forEcho} := by
    rw [NetDevice.accepted, NetDevice.pending, hechoed, haborted, hslots, held_set_some hslot,
      NetDevice.accepted, NetDevice.pending, ← Multiset.singleton_add]
    abel
  refine ⟨?_, ?_, fun h => ?_⟩
  · rw [haccepted, hhanded, hrefused, List.map_append, ← Multiset.coe_add, hbalance, add_assoc]
    rfl
  · rw [haccepted, hhanded, List.filter_append, List.map_append, ← Multiset.coe_add]
    refine add_le_add hwanted ?_
    simp [hskb]
  · rw [hup] at h
    cases h

/-- A buffer that leaves its slot. -/
theorem EchoSound.leave {skb : Skb} {idx : ℕ} {next : NetDevice} (h : EchoSound dev)
    (hslot : dev.echoSkb[idx]? = some (some skb)) (hslots : next.echoSkb = dev.echoSkb.set idx none)
    (hhanded : next.ledger.handed = dev.ledger.handed)
    (hrefused : next.ledger.refused = dev.ledger.refused)
    (hleft : (↑next.ledger.echoed + ↑next.ledger.aborted : Multiset Skb) =
      ↑dev.ledger.echoed + ↑dev.ledger.aborted + {skb})
    (hup : next.up = true) : EchoSound next := by
  obtain ⟨hbalance, hwanted, -⟩ := h
  have haccepted : next.accepted = dev.accepted := by
    rw [NetDevice.accepted, NetDevice.accepted, NetDevice.pending, NetDevice.pending, hslots, hleft,
      ← held_set_none hslot, ← Multiset.singleton_add, add_assoc]
  refine ⟨?_, ?_, fun h => ?_⟩
  · rw [haccepted, hhanded, hrefused, hbalance]
  · rwa [haccepted, hhanded]
  · rw [hup] at h
    cases h

theorem step_echoSound {hz : ℕ} {admits : BitTiming.Bittiming → Prop} (hdev : EchoSound dev)
    (h : Step hz admits dev dev') : EchoSound dev' := by
  cases h with
  | changelink hadmits hlink =>
    obtain ⟨_, _, _, _, rfl, -⟩ := canChangelink_cases hlink
    exact hdev.congr rfl rfl id
  | opened hdown hopen hstate =>
    obtain ⟨-, rfl⟩ := openCandev_cases hopen
    exact hdev.congr rfl rfl fun h => absurd h.symm Bool.false_ne_true
  | openUndone hdown hopen =>
    obtain ⟨-, rfl⟩ := openCandev_cases hopen
    have hstopped : EchoSound { dev with carrier := true, restartTimer := none } :=
      hdev.congr rfl rfl id
    exact hstopped.flush
  | closed state hup =>
    have hstopped : EchoSound { dev with restartTimer := none } := hdev.congr rfl rfl id
    have hflushed : EchoSound (closeCandev dev) := hstopped.flush
    exact ⟨hflushed.balance, hflushed.wanted, fun _ => pending_canFlushEchoSkb _⟩
  | put hup hput =>
    rcases canPutEchoSkb_cases hput with rfl | ⟨hslot, -, hskb, copied, rfl⟩
    · exact hdev.refuse _ hup
    · exact hdev.accept hslot hskb rfl rfl rfl rfl rfl hup
  | get hup hget =>
    rcases canGetEchoSkb_cases hget with rfl | ⟨skb, hslot, rfl⟩
    · exact hdev
    · refine hdev.leave hslot rfl rfl rfl ?_ hup
      dsimp only
      rw [← Multiset.coe_add, add_right_comm]
      rfl
  | free hup hfree =>
    rcases canFreeEchoSkb_cases hfree with rfl | ⟨skb, hslot, rfl⟩
    · exact hdev
    · refine hdev.leave hslot rfl rfl rfl ?_ hup
      dsimp only
      rw [← Multiset.coe_add, add_assoc]
      rfl
  | busOff jiffies hup => exact hdev.congr rfl rfl id
  | state hup hstate => exact hdev.congr rfl rfl id
  | timer htick hrestart hstate =>
    obtain ⟨-, _, _, _, rfl⟩ := canRestart_cases hrestart
    have hstopped : EchoSound { dev with restartTimer := none } := hdev.congr rfl rfl id
    exact hstopped.flush.congr rfl rfl id

/-- Over every run of a device each buffer handed over for echo is freed at once, passed
upstream, freed out of its slot or still waiting, exactly one of these for each time it
was handed over; only loopback buffers wait or are passed upstream, marked as the echo
marks them; and a device that is down has none waiting. -/
theorem echo_conserved {hz : ℕ} {admits : BitTiming.Bittiming → Prop}
    (h : Reachable hz admits dev) :
    ((dev.ledger.handed.map Skb.forEcho : List Skb) : Multiset Skb) =
        ↑(dev.ledger.refused.map Skb.forEcho) + ↑dev.ledger.echoed + ↑dev.ledger.aborted +
          ↑dev.pending ∧
      (↑dev.ledger.echoed + ↑dev.ledger.aborted + ↑dev.pending : Multiset Skb) ≤
        ((dev.ledger.handed.filter fun skb => skb.pktType = .LOOPBACK).map Skb.forEcho : List Skb) ∧
      (dev.up = false → dev.pending = []) := by
  have hsound : EchoSound dev :=
    h.invariant (fun _ => registered_echoSound) fun _ _ => step_echoSound
  refine ⟨?_, hsound.wanted, hsound.down⟩
  rw [hsound.balance, NetDevice.accepted]
  abel

/-- A loopback buffer with one user. -/
def sampleSkb : Skb := ⟨7, some 3, 1, .LOOPBACK, 0, false⟩

/-- A device without timing limits, opened. -/
def sampleOpened : NetDevice :=
  { allocCandev 1 none 24000000 0 true with
    up := true, restartMs := 100, bittiming := ⟨500000, 0, 0, 0, 0, 0, 0, 0⟩,
    state := .ERROR_ACTIVE }

/-- The same device after the buffer was handed over and passed upstream. -/
def sampleEchoed : NetDevice :=
  { sampleOpened with ledger := ⟨[sampleSkb], [], [], [sampleSkb.forEcho], []⟩ }

theorem sampleEchoed_reachable : Reachable 100 (fun _ => True) sampleEchoed := by
  refine ⟨_, ⟨1, none, 24000000, 0, true, rfl⟩, ?_⟩
  have hopen := @step_openCandev 100 (fun _ => True)
    { allocCandev 1 none 24000000 0 true with
      restartMs := 100, bittiming := ⟨500000, 0, 0, 0, 0, 0, 0, 0⟩ } rfl (by decide)
  have hput : canPutEchoSkb sampleSkb sampleOpened 0 false = some { sampleOpened with
      echoSkb := [some sampleSkb.forEcho], ledger := ⟨[sampleSkb], [], [], [], []⟩ } := rfl
  have hget : canGetEchoSkb { sampleOpened with
      echoSkb := [some sampleSkb.forEcho], ledger := ⟨[sampleSkb], [], [], [], []⟩ } 0 =
      some sampleEchoed := rfl
  exact ((Relation.ReflTransGen.single hopen).tail (Step.put rfl hput)).tail (Step.get rfl hget)

/-- The echo of that buffer is the one buffer handed over. -/
theorem echo_conserved_sample :
    ((sampleEchoed.ledger.handed.map Skb.forEcho : List Skb) : Multiset Skb) =
      ↑(sampleEchoed.ledger.refused.map Skb.forEcho) + ↑sampleEchoed.ledger.echoed +
        ↑sampleEchoed.ledger.aborted + ↑sampleEchoed.pending :=
  (echo_conserved sampleEchoed_reachable).1

end Balance

end RobotOta.CanDevice
