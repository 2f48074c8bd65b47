import Mathlib.Algebra.Group.Int.Defs
import Phabos.Construction.Kernel.Watchdog
import Phabos.Library.Run

/-
This file embeds the masking of interrupts in arch/arm/arm-v7m/irq.c: the two counters, the mask of the processor and
the enable registers of the interrupt controller.
-/

namespace Phabos.Irq

def CPU_NUM_IRQ : Machine → ℕ
  | .tsb => 138
  | .stellaris => 44
  | .stm32 => 82

/-- `enabled` has what the registers at `SETENA0` and `CLRENA0` read, and `masked` what `cpsid` and `cpsie` did last. An
access in front of `irq_state` makes `strayed` true. -/
structure Interrupts where
  irqGlobalState : BitVec 32
  irqState : ℕ → BitVec 8
  masked : Bool
  enabled : ℕ → BitVec 32
  strayed : Bool

/-- Before `irq_initialize` -/
def Interrupts.boot (masked : Bool) (enabled : ℕ → BitVec 32) : Interrupts := ⟨0, fun _ => 0, masked, enabled, false⟩

section Interrupts
variable (machine : Machine) (s : Interrupts)

/-- `irq_disable` -/
def irqDisable : Interrupts := { s with masked := true, irqGlobalState := s.irqGlobalState + 1 }

/-- `irq_enable` -/
def irqEnable : Interrupts :=
  let irqGlobalState := s.irqGlobalState - 1
  { s with
    irqGlobalState := irqGlobalState
    masked := if irqGlobalState = 0 then false else s.masked }

/-- The bit of a line in its register -/
def lineBit (line : ℕ) : BitVec 32 := 1#32 <<< (line % 32)

/-- A write of the bit of a line at `CLRENA0` -/
def Interrupts.writeClrena (line : ℕ) : Interrupts :=
  { s with enabled := Function.update s.enabled (line / 32) (s.enabled (line / 32) &&& ~~~lineBit line) }

/-- A write of the bit of a line at `SETENA0` -/
def Interrupts.writeSetena (line : ℕ) : Interrupts :=
  { s with enabled := Function.update s.enabled (line / 32) (s.enabled (line / 32) ||| lineBit line) }

def Interrupts.setState (line : ℕ) (state : BitVec 8) : Interrupts :=
  { s with irqState := Function.update s.irqState line state }

/-- `irq_disable_line` -/
def irqDisableLine (line : Int) : Interrupts :=
  let s := irqDisable s
  if ¬line < CPU_NUM_IRQ machine then s
  else if ¬line ≠ 0xFF then s
  else if line < 0 then irqEnable { s with strayed := true }
  else irqEnable ((s.setState line.toNat (s.irqState line.toNat + 1)).writeClrena line.toNat)

/-- `irq_enable_line` -/
def irqEnableLine (line : Int) : Interrupts :=
  let s := irqDisable s
  if ¬line < CPU_NUM_IRQ machine then irqEnable s
  else if line < 0 then irqEnable { s with strayed := true }
  else if ¬s.irqState line.toNat ≠ 0 then irqEnable s
  else
    let state := s.irqState line.toNat - 1
    let s := s.setState line.toNat state
    irqEnable (if state = 0 then s.writeSetena line.toNat else s)

/-- `irq_initialize` -/
def irqInitialize : Interrupts :=
  (List.range (CPU_NUM_IRQ machine)).foldl (fun s (i : ℕ) => irqDisableLine machine s i) s

end Interrupts

inductive Call where
  | disable
  | enable
  | disableLine (line : Int)
  | enableLine (line : Int)
  deriving DecidableEq, Repr

def Call.perform (machine : Machine) (s : Interrupts) : Call → Interrupts
  | .disable => irqDisable s
  | .enable => irqEnable s
  | .disableLine line => irqDisableLine machine s line
  | .enableLine line => irqEnableLine machine s line

/-- A call that has returned, with the state before and after it -/
structure Entry where
  call : Call
  before : Interrupts
  after : Interrupts

structure System where
  irq : Interrupts
  record : List Entry

/-- After `irq_initialize` -/
def System.start (machine : Machine) (masked : Bool) (enabled : ℕ → BitVec 32) : System :=
  ⟨irqInitialize machine (.boot masked enabled), []⟩

def step (machine : Machine) (s : System) (call : Call) : Option System :=
  let irq := call.perform machine s.irq
  some ⟨irq, s.record ++ [⟨call, s.irq, irq⟩]⟩

end Phabos.Irq
