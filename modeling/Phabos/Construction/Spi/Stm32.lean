import Phabos.Library.Run

/-
This file embeds the setters of drivers/spi/spi-stm32.c, which read and write the register `SPI_CR1`.
-/

namespace Phabos.Spi

def EINVAL : Int := 22

def SPI_CR1_CPHA : BitVec 32 := 1#32 <<< 1

def SPI_CR1_CPOL : BitVec 32 := 1#32 <<< 1

def SPI_CR1_DFF : BitVec 32 := 1#32 <<< 11

/-- `SPI_CR1_BR_DIV2` to `SPI_CR1_BR_DIV256`, by the number of the divider -/
def SPI_CR1_BR (number : BitVec 32) : BitVec 32 := number <<< 3

def SPI_FREQ_MASK : BitVec 32 := 3#32 <<< 3

def SPI_BPW_MASK : BitVec 32 := SPI_CR1_DFF

def SPI_MODE_MASK : BitVec 32 := SPI_CR1_CPHA ||| SPI_CR1_CPOL

/-- `struct spi_master` with the clock of its platform data and the register -/
structure SpiMaster where
  clk : BitVec 32
  bpw : BitVec 32
  cr1 : BitVec 32
  deriving DecidableEq, Repr

section SpiMaster
variable (spi : SpiMaster)

/-- What the setters have in common: the bits of the mask are replaced, or the call fails before the write. -/
def SpiMaster.setField (mask : BitVec 32) : Option (BitVec 32) → Int × SpiMaster
  | none => (- EINVAL, spi)
  | some value => (0, { spi with cr1 := spi.cr1 &&& ~~~mask ||| value })

/-- The switch of `stm32_spi_set_mode` -/
def modeValue (mode : BitVec 32) : Option (BitVec 32) :=
  if mode = 0 then some 0
  else if mode = 1 then some SPI_CR1_CPHA
  else if mode = 2 then some SPI_CR1_CPOL
  else if mode = 3 then some (SPI_CR1_CPHA ||| SPI_CR1_CPOL)
  else none

def stm32SpiSetMode (mode : BitVec 32) : Int × SpiMaster := spi.setField SPI_MODE_MASK (modeValue mode)

/-- The switch of `stm32_spi_set_bpw` -/
def bpwValue (bpw : BitVec 32) : Option (BitVec 32) :=
  if bpw = 8 then some 0
  else if bpw = 16 then some SPI_CR1_DFF
  else none

def stm32SpiSetBpw (bpw : BitVec 32) : Int × SpiMaster :=
  let value := bpwValue bpw
  let spi := if value.isSome then { spi with bpw := bpw } else spi
  spi.setField SPI_BPW_MASK value

/-- `quot` of `stm32_spi_set_max_freq`, which is rounded up -/
def quot (clk freq : BitVec 32) : BitVec 32 := if clk % freq ≠ 0 then clk / freq + 1 else clk / freq

/-- The ladder of `stm32_spi_set_max_freq` -/
def freqValue (quot : BitVec 32) : Option (BitVec 32) :=
  if quot ≤ 2 then some (SPI_CR1_BR 0)
  else if 2 < quot ∧ quot ≤ 4 then some (SPI_CR1_BR 1)
  else if 4 < quot ∧ quot ≤ 8 then some (SPI_CR1_BR 2)
  else if 8 < quot ∧ quot ≤ 16 then some (SPI_CR1_BR 3)
  else if 16 < quot ∧ quot ≤ 32 then some (SPI_CR1_BR 4)
  else if 32 < quot ∧ quot ≤ 64 then some (SPI_CR1_BR 5)
  else if 64 < quot ∧ quot ≤ 128 then some (SPI_CR1_BR 6)
  else if 128 < quot ∧ quot ≤ 256 then some (SPI_CR1_BR 7)
  else none

def stm32SpiSetMaxFreq (freq : BitVec 32) : Int × SpiMaster :=
  spi.setField SPI_FREQ_MASK (freqValue (quot spi.clk freq))

end SpiMaster

inductive Call where
  | setMode (mode : BitVec 32)
  | setBpw (bpw : BitVec 32)
  | setMaxFreq (freq : BitVec 32) (positive : 0 < freq)
  deriving DecidableEq, Repr

def Call.perform (spi : SpiMaster) : Call → Int × SpiMaster
  | .setMode mode => stm32SpiSetMode spi mode
  | .setBpw bpw => stm32SpiSetBpw spi bpw
  | .setMaxFreq freq _ => stm32SpiSetMaxFreq spi freq

/-- A call that has returned, with the register before and after it -/
structure Entry where
  call : Call
  result : Int
  before : BitVec 32
  after : BitVec 32
  deriving DecidableEq, Repr

structure Bus where
  spi : SpiMaster
  record : List Entry
  deriving DecidableEq, Repr

def Bus.start (spi : SpiMaster) : Bus := ⟨spi, []⟩

/-- The entry that a call adds to the record -/
def Bus.entry (s : Bus) (call : Call) : Entry :=
  let (result, spi) := call.perform s.spi
  ⟨call, result, s.spi.cr1, spi.cr1⟩

def step (s : Bus) (call : Call) : Option Bus := some ⟨(call.perform s.spi).2, s.record ++ [s.entry call]⟩

end Phabos.Spi
