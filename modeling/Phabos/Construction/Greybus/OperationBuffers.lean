import Mathlib.Algebra.Ring.Nat

/-
This file embeds the sizes of the messages of drivers/greybus/greybus-core.c: `gb_operation_create` with each of its
callers, and `gb_operation_alloc_response`. A `size_t` and a `uint32_t` have 32 bits.
-/

namespace Phabos.OperationBuffers

/-- `sizeof(struct gb_operation_hdr)` -/
def hdrSize : ℕ := 8

/-- The size of the objects of `buffer_slab`, which `gb_probe` creates -/
def bufferObjectSize : ℕ := 2048

/-- What `mcache_alloc(op_slab)` returns. The constructor of the objects leaves one without a request buffer if there
is none. -/
inductive OpSlab where
  | null
  | withoutBuffer
  | withBuffer
  deriving DecidableEq, Repr

/-- The operation that `gb_operation_create` returns: whether it has a request buffer, the count of bytes that are cleared
there, and the size field of the header -/
structure GbOperation where
  requestBuffer : Bool
  cleared : ℕ
  size : ℕ
  deriving DecidableEq, Repr

def gbOperationCreate (opSlab : OpSlab) (reqSize : ℕ) : Option GbOperation :=
  match opSlab with
  | .null => none
  | .withoutBuffer => some ⟨false, (reqSize + hdrSize) % 2 ^ 32, (reqSize + hdrSize) % 2 ^ 16⟩
  | .withBuffer => some ⟨true, (reqSize + hdrSize) % 2 ^ 32, (reqSize + hdrSize) % 2 ^ 16⟩

/-- A response: the count of bytes of its buffer, and the size field of its header -/
structure GbResponse where
  allocated : ℕ
  size : ℕ
  deriving DecidableEq, Repr

/-- `malloc` says which sizes it has memory for. -/
def gbOperationAllocResponse (malloc : ℕ → Bool) (size : ℕ) : Option GbResponse :=
  if malloc ((size + hdrSize) % 2 ^ 32) then some ⟨(size + hdrSize) % 2 ^ 32, (size + hdrSize) % 2 ^ 16⟩ else none

/-- A call of `gb_operation_create`: the size of the payload that the caller means, and what it writes to the payload
afterwards, by the offset and the length -/
structure CreateCall where
  payload : ℕ
  writes : List (ℕ × ℕ)
  deriving DecidableEq, Repr

/-- `req_size`, which has 32 bits -/
def CreateCall.reqSize (call : CreateCall) : ℕ := call.payload % 2 ^ 32

/-- A call for a structure whose fields have these sizes and are all written -/
def forFields (sizes : List ℕ) : CreateCall :=
  ⟨sizes.sum, (List.range sizes.length).map fun i => ((sizes.take i).sum, sizes.getD i 0)⟩

section Svc

def gbSvcProtocolVersion : CreateCall := forFields [1, 1]

def gbSvcHello : CreateCall := forFields [2, 1]

def gbSvcIntfHotplug : CreateCall := forFields [1, 4, 4, 4, 4]

end Svc

section Module

def gbGpioIrqEvent : CreateCall := forFields [1]

end Module

section Ap

def gbGpioGetDirection : CreateCall := forFields [1]

def gbGpioDirectionIn : CreateCall := forFields [1]

def gbGpioDirectionOut : CreateCall := forFields [1, 1]

def gbGpioActivate : CreateCall := forFields [1]

def gbGpioDeactivate : CreateCall := forFields [1]

def gbGpioSetValue : CreateCall := forFields [1, 1]

def gbGpioGetValue : CreateCall := forFields [1]

def gbGpioConnected : CreateCall := ⟨0, []⟩

/-- `tc` is not written. -/
def gbSvcCreateConnection : CreateCall := ⟨8, [(0, 1), (1, 2), (3, 1), (4, 2), (7, 1)]⟩

def gbSvcDestroyConnection : CreateCall := forFields [1, 2, 1, 2]

def gbSvcCreateRoute : CreateCall := forFields [1, 1, 1, 1]

def gbSvcAssignDeviceId : CreateCall := forFields [1, 1]

def gbControlGetManifestSize : CreateCall := ⟨0, []⟩

def gbControlGetManifestData : CreateCall := ⟨0, []⟩

def gbControlConnectCport : CreateCall := forFields [2]

def gbControlDisconnectCport : CreateCall := forFields [2]

/-- The requests that the AP sends in a loop when a module is initialised -/
def gbInterfaceTest : CreateCall := ⟨504, []⟩

def gbUartWrite (count : ℕ) : CreateCall := ⟨2 + count, [(0, 2), (2, count)]⟩

/-- The descriptors are written field by field: the address, the size and the flags. -/
def gbI2cTransfer (count : ℕ) : CreateCall :=
  ⟨2 + count * 6, (0, 2) :: (List.range count).flatMap fun i => [(2 + 6 * i, 2), (2 + 6 * i + 4, 2), (2 + 6 * i + 2, 2)]⟩

end Ap

/-- `greybus_rx_handler`, where the buffer is replaced by that of the message -/
def greybusRxHandler (messageSize : ℕ) : CreateCall := ⟨messageSize - hdrSize, []⟩

/-- The callers whose requests have a fixed size -/
def fixedCalls : List CreateCall :=
  [gbSvcProtocolVersion, gbSvcHello, gbSvcIntfHotplug, gbGpioIrqEvent, gbGpioGetDirection, gbGpioDirectionIn,
    gbGpioDirectionOut, gbGpioActivate, gbGpioDeactivate, gbGpioSetValue, gbGpioGetValue, gbGpioConnected,
    gbSvcCreateConnection, gbSvcDestroyConnection, gbSvcCreateRoute, gbSvcAssignDeviceId, gbControlGetManifestSize,
    gbControlGetManifestData, gbControlConnectCport, gbControlDisconnectCport, gbInterfaceTest]

/-- The callers of `gb_operation_create`. A message is received with the size that its header says, which has 16 bits
and is at least the size of a header. -/
inductive Caller where
  | fixed (call : CreateCall) (known : call ∈ fixedCalls)
  | uartWrite (count : ℕ)
  | i2cTransfer (count : ℕ)
  | rxHandler (messageSize : ℕ) (field : messageSize < 2 ^ 16) (checked : hdrSize ≤ messageSize)

def Caller.call : Caller → CreateCall
  | .fixed call _ => call
  | .uartWrite count => gbUartWrite count
  | .i2cTransfer count => gbI2cTransfer count
  | .rxHandler messageSize _ _ => greybusRxHandler messageSize

end Phabos.OperationBuffers
