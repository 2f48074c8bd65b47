import Mathlib.Data.Nat.Notation
import Mathlib.Logic.Function.Basic

/-
This file embeds irq_unipro of drivers/unipro/unipro-tsb-es2.c, with attribute accesses that succeed. The registers of a
kind are known by the number of their word.
-/

namespace Phabos.Mailbox

def CPORT_STATUS_CONNECTED : BitVec 32 := 0

def CPORT_BUF_SIZE : BitVec 32 := 1024

/-- The calls of arch/arm/arm-v7m/irq.c -/
inductive IrqCall where
  | clear (line : ℕ)
  | attach (line cport : ℕ)
  | enableLine (line : ℕ)
  deriving DecidableEq, Repr

/-- `struct unipro_device`, with the mailbox, the registers and the accesses to `cports`. `intBef` has the pending bits,
which a write of ones clears. -/
structure UniproDevice where
  irq : ℕ
  cportIrqBase : ℕ
  cportCount : ℕ
  mailbox : BitVec 32
  cportStatus : ℕ → BitVec 32
  e2efc : ℕ → BitVec 32
  intBef : ℕ → BitVec 32
  intEn : ℕ → BitVec 32
  rxPauseSize : ℕ → BitVec 32
  isConnected : ℕ → Bool
  accessed : List ℕ
  irqs : List IrqCall

/-- A shift of the processor, which looks at the low byte of the amount -/
def shiftLeft (value : BitVec 32) (amount : ℕ) : BitVec 32 := value <<< (amount % 256)

section UniproDevice
variable (s : UniproDevice) (cportid : ℕ)

def UniproDevice.call (irq : IrqCall) : UniproDevice := { s with irqs := s.irqs ++ [irq] }

/-- `clear_int` -/
def clearInt : UniproDevice :=
  let offset := cportid / 16
  let i := cportid * 2
  let s := { s with intBef := Function.update s.intBef offset (s.intBef offset &&& ~~~shiftLeft 3 i) }
  let s := { s with intEn := Function.update s.intEn offset (s.intEn offset &&& ~~~shiftLeft 3 i) }
  s.call (.clear (s.cportIrqBase + cportid))

/-- `enable_rx_interrupt` -/
def enableRxInterrupt : UniproDevice :=
  let reg := cportid / 16
  { s with intEn := Function.update s.intEn reg (s.intEn reg ||| 1#32 <<< (2 * (cportid % 16))) }

/-- `enable_int` -/
def enableInt : UniproDevice :=
  let irqn := s.cportIrqBase + cportid
  ((enableRxInterrupt s cportid).call (.attach irqn cportid)).call (.enableLine irqn)

/-- `cport_get_status` -/
def cportGetStatus : BitVec 32 := s.cportStatus (cportid / 16) >>> ((cportid % 16) * 2) &&& 3

/-- `configure_connected_cport`. What follows an access behind `cports` is left open. -/
def configureConnectedCport : UniproDevice :=
  if cportGetStatus s cportid = CPORT_STATUS_CONNECTED then
    let s := { s with accessed := s.accessed ++ [cportid] }
    if cportid < s.cportCount then
      let s := { s with isConnected := Function.update s.isConnected cportid true }
      let s := { s with rxPauseSize := Function.update s.rxPauseSize cportid (1#32 <<< 31 ||| CPORT_BUF_SIZE) }
      enableInt (clearInt s cportid) cportid
    else s
  else s

/-- The access to the E2EFC register of `irq_unipro` -/
def enableE2efc : UniproDevice :=
  let reg := cportid / 32
  { s with e2efc := Function.update s.e2efc reg (s.e2efc reg ||| 1#32 <<< (cportid % 32)) }

/-- `irq_unipro` -/
def irqUnipro : UniproDevice :=
  let s := s.call (.clear s.irq)
  if s.mailbox = 0 then s
  else
    let cportid := (s.mailbox - 1).toNat
    { configureConnectedCport (enableE2efc s cportid) cportid with mailbox := 0 }

end UniproDevice

end Phabos.Mailbox
