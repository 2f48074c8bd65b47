import Phabos.Construction.Greybus.OperationBuffers

namespace Phabos.OperationBuffers

/-- The request fits its buffer, its header says its size, and what the caller writes is in the buffer. -/
structure Fitting (op : GbOperation) (call : CreateCall) : Prop where
  buffer : op.requestBuffer = true
  fits : call.payload + hdrSize ≤ bufferObjectSize
  cleared : op.cleared ≤ bufferObjectSize
  size : op.size = call.payload + hdrSize
  writes : ∀ write ∈ call.writes, hdrSize + write.1 + write.2 ≤ bufferObjectSize

/-- A call is refused, or its request fits. -/
def CreateCall.Right (opSlab : OpSlab) (call : CreateCall) : Prop :=
  ∀ op, gbOperationCreate opSlab call.reqSize = some op → Fitting op call

/-- A response is refused, or its header says its size. -/
def ResponseRight (malloc : ℕ → Bool) (size : ℕ) : Prop :=
  ∀ response, gbOperationAllocResponse malloc size = some response → response.size = size + hdrSize

/-- The sizes for which a request of a caller fits -/
def Caller.Small : Caller → Prop
  | .fixed _ _ => True
  | .uartWrite count => count ≤ 2038
  | .i2cTransfer count => count ≤ 339
  | .rxHandler messageSize _ _ => messageSize ≤ 2048

theorem Caller.writes_inside (caller : Caller) :
    ∀ write ∈ caller.call.writes, write.1 + write.2 ≤ caller.call.payload := by
  cases caller with
  | fixed call known =>
    have all : ∀ call ∈ fixedCalls, ∀ write ∈ call.writes, write.1 + write.2 ≤ call.payload := by decide
    exact all call known
  | uartWrite count =>
    have inside : ∀ write ∈ [(0, 2), (2, count)], write.1 + write.2 ≤ 2 + count := by simp
    exact inside
  | i2cTransfer count =>
    intro write there
    rcases List.mem_cons.mp there with rfl | desc
    · exact Nat.le_add_right 2 _
    · obtain ⟨i, listed, fields⟩ := List.mem_flatMap.mp desc
      have less := List.mem_range.mp listed
      change write.1 + write.2 ≤ 2 + count * 6
      simp only [List.mem_cons, List.not_mem_nil, or_false] at fields
      rcases fields with rfl | rfl | rfl <;> dsimp only <;> omega
  | rxHandler messageSize field checked => exact nofun

theorem Caller.small_iff (caller : Caller) : caller.call.payload + hdrSize ≤ bufferObjectSize ↔ caller.Small := by
  cases caller with
  | fixed call known =>
    have all : ∀ call ∈ fixedCalls, call.payload + hdrSize ≤ bufferObjectSize := by decide
    exact iff_of_true (all call known) trivial
  | uartWrite count =>
    change 2 + count + 8 ≤ 2048 ↔ count ≤ 2038
    omega
  | i2cTransfer count =>
    change 2 + count * 6 + 8 ≤ 2048 ↔ count ≤ 339
    omega
  | rxHandler messageSize field checked =>
    change 8 ≤ messageSize at checked
    change messageSize - 8 + 8 ≤ 2048 ↔ messageSize ≤ 2048
    omega

theorem Caller.right_iff (opSlab : OpSlab) (caller : Caller) :
    caller.call.Right opSlab ↔ opSlab = .null ∨ opSlab = .withBuffer ∧ caller.Small := by
  rw [← caller.small_iff]
  cases opSlab with
  | null => exact iff_of_true nofun (.inl rfl)
  | withoutBuffer =>
    refine iff_of_false (fun right => ?_) (by simp)
    exact Bool.false_ne_true (right _ rfl).buffer
  | withBuffer =>
    constructor
    · intro right
      exact .inr ⟨rfl, (right _ rfl).fits⟩
    · rintro (none | ⟨-, fits⟩)
      · cases none
      · intro op created
        obtain rfl := Option.some.inj created
        have sum : caller.call.payload + 8 ≤ 2048 := fits
        have same : caller.call.reqSize = caller.call.payload := Nat.mod_eq_of_lt (by omega)
        refine ⟨rfl, fits, ?_, ?_, fun write there => ?_⟩
        · dsimp only
          rw [same, Nat.mod_eq_of_lt (by unfold hdrSize; omega)]
          exact fits
        · dsimp only
          rw [same, Nat.mod_eq_of_lt (by unfold hdrSize; omega)]
        · have inside := caller.writes_inside write there
          change 8 + write.1 + write.2 ≤ 2048
          omega

/-- A response is right when its allocation fails or its size fits 16 bits. -/
theorem responseRight_iff (malloc : ℕ → Bool) (size : ℕ) :
    ResponseRight malloc size ↔ malloc ((size + hdrSize) % 2 ^ 32) = false ∨ size + hdrSize < 2 ^ 16 := by
  unfold ResponseRight gbOperationAllocResponse
  cases memory : malloc ((size + hdrSize) % 2 ^ 32) with
  | false => exact iff_of_true nofun (.inl rfl)
  | true =>
    rw [or_iff_right Bool.true_eq_false.mp, if_pos rfl]
    constructor
    · intro right
      have field : (size + hdrSize) % 2 ^ 16 = size + hdrSize := right _ rfl
      have small : (size + hdrSize) % 2 ^ 16 < 2 ^ 16 := Nat.mod_lt _ (by decide)
      omega
    · intro small response created
      obtain rfl := Option.some.inj created
      exact Nat.mod_eq_of_lt small

/-- A request fits its buffer, with its size in its header, exactly where there is no operation for it, or one with a
buffer and the caller's data are small enough. The header of a response says its size exactly where there is no memory
for it or it has less than 2^16 bytes. -/
theorem message_sizes (opSlab : OpSlab) (caller : Caller) (malloc : ℕ → Bool) (size : ℕ) :
    (caller.call.Right opSlab ↔ opSlab = .null ∨ opSlab = .withBuffer ∧ caller.Small) ∧
      (ResponseRight malloc size ↔ malloc ((size + hdrSize) % 2 ^ 32) = false ∨ size + hdrSize < 2 ^ 16) :=
  ⟨caller.right_iff opSlab, responseRight_iff malloc size⟩

/-- A write of 2039 bytes clears a byte behind the buffer, and the copy goes as far. -/
theorem message_sizes_uart : ¬(gbUartWrite 2039).Right .withBuffer ∧
    (gbOperationCreate .withBuffer (gbUartWrite 2039).reqSize).map GbOperation.cleared = some 2049 :=
  ⟨fun right => absurd (right _ rfl).fits (by decide), by decide⟩

end Phabos.OperationBuffers
