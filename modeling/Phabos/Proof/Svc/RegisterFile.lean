import Phabos.Construction.Svc.TsbSwitchEs2

namespace Phabos.Switch

open Library

theorem ncpCommand_registers {Result : Type} {req : List Byte} {rest : Nat} {functionId : Byte} {failed : Int → Result}
    {finish : Vector Byte (rest + 2) → Result} {registers : Registers} {command : Command}
    (decoded : decode req = some command) (fits : (registers.perform command).1.length = rest + 2)
    (confirms : (registers.perform command).1[1] = functionId) :
    ncpCommand registerTransfer req rest functionId failed finish registers =
      (finish ⟨(registers.perform command).1.toArray, fits⟩, (registers.perform command).2) := by
  have answered : registerTransfer req (rest + 2) registers =
      (.ok ⟨(registers.perform command).1.toArray, fits⟩, (registers.perform command).2) := by
    unfold registerTransfer
    rw [decoded]
    exact dif_pos fits
  unfold ncpCommand
  simp only [bind, StateT.bind, answered]
  change (if (registers.perform command).1[1] ≠ functionId then _ else _ : StateM Registers Result) _ = _
  rw [if_neg (not_not_intro confirms)]
  rfl

section Requests
variable (portId : Byte) (attrid selectIndex : BitVec 16) (val : BitVec 32)

theorem decode_set :
    decode ([switchDeviceId, portId, ncpSetReq] ++ be16Bytes attrid ++ be16Bytes selectIndex ++ be32Bytes val) =
      some (.set (.attr portId attrid selectIndex) val) := by
  change some (Command.set (.attr portId (be16 _ _) (be16 _ _)) (be32 _ _ _ _)) = _
  rw [be16_bytes attrid, be16_bytes selectIndex, be32_bytes val]

theorem decode_get :
    decode ([switchDeviceId, portId, ncpGetReq] ++ be16Bytes attrid ++ be16Bytes selectIndex) =
      some (.get (.attr portId attrid selectIndex)) := by
  change some (Command.get (.attr portId (be16 _ _) (be16 _ _))) = _
  rw [be16_bytes attrid, be16_bytes selectIndex]

theorem decode_peerSet :
    decode ([switchDeviceId, portId, ncpPeerSetReq] ++ be16Bytes attrid ++ be16Bytes selectIndex ++
      be32Bytes val) = some (.set (.peerAttr portId attrid selectIndex) val) := by
  change some (Command.set (.peerAttr portId (be16 _ _) (be16 _ _)) (be32 _ _ _ _)) = _
  rw [be16_bytes attrid, be16_bytes selectIndex, be32_bytes val]

theorem decode_peerGet :
    decode ([switchDeviceId, portId, ncpPeerGetReq] ++ be16Bytes attrid ++ be16Bytes selectIndex) =
      some (.get (.peerAttr portId attrid selectIndex)) := by
  change some (Command.get (.peerAttr portId (be16 _ _) (be16 _ _))) = _
  rw [be16_bytes attrid, be16_bytes selectIndex]

theorem decode_sysCtrlSet :
    decode ([switchDeviceId, ncpReserved, ncpSysCtrlSetReq] ++ be16Bytes attrid ++ be32Bytes val) =
      some (.set (.sysCtrl attrid) val) := by
  change some (Command.set (.sysCtrl (be16 _ _)) (be32 _ _ _ _)) = _
  rw [be16_bytes attrid, be32_bytes val]

theorem decode_sysCtrlGet :
    decode ([switchDeviceId, ncpReserved, ncpSysCtrlGetReq] ++ be16Bytes attrid) =
      some (.get (.sysCtrl attrid)) := by
  change some (Command.get (.sysCtrl (be16 _ _))) = _
  rw [be16_bytes attrid]

theorem decode_switchAttrSet :
    decode ([switchDeviceId, ncpReserved, ncpSwitchAttrSetReq] ++ be16Bytes attrid ++ be32Bytes val) =
      some (.set (.switchAttr attrid) val) := by
  change some (Command.set (.switchAttr (be16 _ _)) (be32 _ _ _ _)) = _
  rw [be16_bytes attrid, be32_bytes val]

theorem decode_switchAttrGet :
    decode ([switchDeviceId, ncpReserved, ncpSwitchAttrGetReq] ++ be16Bytes attrid) =
      some (.get (.switchAttr attrid)) := by
  change some (Command.get (.switchAttr (be16 _ _))) = _
  rw [be16_bytes attrid]

theorem decode_devIdMaskSet (mask : Mask) :
    decode ([switchDeviceId, portId, ncpSetDeviceIdMaskReq] ++ mask.toList) =
      some (.set (.devIdMask portId) mask) := by
  obtain ⟨⟨bytes⟩, full⟩ := mask
  change bytes.length = 16 at full
  match bytes, full with
  | b0 :: b1 :: b2 :: b3 :: b4 :: b5 :: b6 :: b7 :: b8 :: rest, full =>
    change (if fits : _ then _ else _) = _
    exact dif_pos full

end Requests

/-- Writing a cell changes that cell alone. -/
theorem es2SetCell_registers (registers : Registers) (cell : Cell) (val : cell.Value) :
    es2SetCell registerTransfer cell val registers = (0, Function.update registers cell val) := by
  cases cell with
  | attr portId attrid selectIndex => exact ncpCommand_registers (decode_set ..) rfl rfl
  | peerAttr portId attrid selectIndex => exact ncpCommand_registers (decode_peerSet ..) rfl rfl
  | lut uniproPortid lutAddress =>
    have decoded : decode [switchDeviceId, lutAddress, ncpLutSetReq, uniproPortid, val] =
        some (.set (.lut uniproPortid lutAddress) val) := rfl
    exact ncpCommand_registers decoded rfl rfl
  | sysCtrl scAddr => exact ncpCommand_registers (decode_sysCtrlSet ..) rfl rfl
  | devIdMask uniproPortid => exact ncpCommand_registers (decode_devIdMaskSet ..) rfl rfl
  | switchAttr attrid => exact ncpCommand_registers (decode_switchAttrSet ..) rfl rfl

/-- The value that a get-type command yields -/
def Registers.yielded (registers : Registers) : (cell : Cell) → cell.Value
  | .attr portId attrid selectIndex => registers (.attr portId attrid selectIndex)
  | .peerAttr portId attrid selectIndex => registers (.peerAttr portId attrid selectIndex)
  | .lut uniproPortid lutAddress => registers (.lut uniproPortid lutAddress)
  | .sysCtrl _ => 0
  | .devIdMask uniproPortid => registers (.devIdMask uniproPortid)
  | .switchAttr attrid => registers (.switchAttr attrid)

/-- Reading a cell returns what it yields. -/
theorem es2GetCell_registers (registers : Registers) (cell : Cell) (val : cell.Value) :
    es2GetCell registerTransfer cell val registers = ((0, registers.yielded cell), registers) := by
  cases cell with
  | attr portId attrid selectIndex =>
    refine (ncpCommand_registers (decode_get ..) rfl rfl).trans ?_
    exact congrArg (fun v => (((0 : Int), v), registers)) (be32_bytes _)
  | peerAttr portId attrid selectIndex =>
    refine (ncpCommand_registers (decode_peerGet ..) rfl rfl).trans ?_
    exact congrArg (fun v => (((0 : Int), v), registers)) (be32_bytes _)
  | lut uniproPortid lutAddress =>
    have decoded : decode [switchDeviceId, lutAddress, ncpLutGetReq, uniproPortid, ncpReserved] =
        some (.get (.lut uniproPortid lutAddress)) := rfl
    exact ncpCommand_registers decoded rfl rfl
  | sysCtrl scAddr =>
    refine (ncpCommand_registers (decode_sysCtrlGet ..) rfl rfl).trans ?_
    change ((0, if (0 : Byte) = 0 then be32 0 0 0 0 else val), registers) = _
    rw [if_pos rfl]
    rfl
  | devIdMask uniproPortid =>
    have decoded : decode [switchDeviceId, uniproPortid, ncpGetDeviceIdMaskReq] =
        some (.get (.devIdMask uniproPortid)) := rfl
    have full : (registers.perform (.get (.devIdMask uniproPortid))).1.length = 20 := by
      simp [Registers.perform, Cell.getCnf]
    refine (ncpCommand_registers decoded full rfl).trans ?_
    have inside (index : Fin 16) : 4 + index.val < (registers.perform (.get (.devIdMask uniproPortid))).1.length := by
      omega
    have copied : (Vector.ofFn fun index : Fin 16 =>
        (registers.perform (.get (.devIdMask uniproPortid))).1.get ⟨4 + index.val, inside index⟩) =
          registers (.devIdMask uniproPortid) := by
      apply Vector.ext
      intro index inRange
      simp [Registers.perform, Cell.getCnf, Nat.add_comm 4 index]
    exact congrArg (fun mask => (((0 : Int), mask), registers)) copied
  | switchAttr attrid =>
    refine (ncpCommand_registers (decode_switchAttrGet ..) rfl rfl).trans ?_
    exact congrArg (fun v => (((0 : Int), v), registers)) (be32_bytes _)

/-- `es2_sys_ctrl_get` reads its value from the result code. -/
def Cell.ReadBack (registers : Registers) : Cell → Prop
  | .sysCtrl scAddr => registers (.sysCtrl scAddr) = 0
  | _ => True

/-- A cell yields its value exactly when it is read back. -/
theorem yielded_eq (registers : Registers) (cell : Cell) :
    registers.yielded cell = registers cell ↔ cell.ReadBack registers := by
  cases cell with
  | sysCtrl scAddr => exact eq_comm
  | _ => exact iff_of_true rfl trivial

/-- The registers after a list of sets -/
def Registers.setAll (registers : Registers) (sets : List (Sigma Cell.Value)) : Registers :=
  sets.foldl (fun current set => Function.update current set.1 set.2) registers

def es2SetAll (sets : List (Sigma Cell.Value)) : StateM Registers (List Int) :=
  sets.mapM fun set => es2SetCell registerTransfer set.1 set.2

theorem es2SetAll_registers (sets : List (Sigma Cell.Value)) (registers : Registers) :
    es2SetAll sets registers = (sets.map fun _ => 0, registers.setAll sets) := by
  induction sets generalizing registers with
  | nil => rfl
  | cons set sets inductionHypothesis =>
    unfold es2SetAll at inductionHypothesis ⊢
    rw [List.mapM_cons]
    simp only [bind, StateT.bind, es2SetCell_registers, inductionHypothesis]
    rfl

/-- What a command has to do on a switch that keeps registers -/
def Command.Performed (registers : Registers) : Command → Prop
  | .set cell val => es2SetCell registerTransfer cell val registers = (0, Function.update registers cell val)
  | .get cell => ∀ val, es2GetCell registerTransfer cell val registers = ((0, registers cell), registers)

/-- Every command but a get of a nonzero system-control value -/
def Command.Sound (registers : Registers) : Command → Prop
  | .set _ _ => True
  | .get cell => cell.ReadBack registers

/-- The sets of a list take effect in their order, and a command after them does what it has to exactly if it does
not get a nonzero system-control value. -/
theorem es2_commands_implement_registers (registers : Registers) (sets : List (Sigma Cell.Value)) (command : Command) :
    es2SetAll sets registers = (sets.map fun _ => 0, registers.setAll sets) ∧
      (command.Performed (registers.setAll sets) ↔ command.Sound (registers.setAll sets)) := by
  refine ⟨es2SetAll_registers sets registers, ?_⟩
  cases command with
  | set cell val => exact iff_of_true (es2SetCell_registers _ cell val) trivial
  | get cell =>
    change _ ↔ cell.ReadBack (registers.setAll sets)
    rw [← yielded_eq]
    constructor
    · intro performed
      have got := (es2GetCell_registers _ cell _).symm.trans (performed (registers cell))
      exact congrArg (fun result => result.1.2) got
    · intro yields val
      rw [es2GetCell_registers, yields]

/-- A system-control value of 1 is read back as 0. -/
theorem es2_sys_ctrl_get_yields_result_code :
    ¬ (Command.get (.sysCtrl 0)).Performed (Registers.clear.setAll [⟨.sysCtrl 0, 1⟩]) := by
  intro performed
  have got := (es2GetCell_registers _ (.sysCtrl 0) 0).symm.trans (performed 0)
  have zero : (0 : BitVec 32) = 1 := congrArg (fun result => result.1.2) got
  exact absurd zero (by decide)

end Phabos.Switch
