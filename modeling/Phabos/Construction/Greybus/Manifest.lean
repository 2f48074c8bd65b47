import Phabos.Library.ByteMemory

/-
This file embeds the manifest parser of a module (apps/greybus-utils/manifest.c) and that of the AP
(drivers/greybus/ap/manifest.c).
-/

namespace Phabos.Manifest
open Library

def EINVAL : Int := 22

def byteAt (data : List UInt8) (offset : ℕ) : UInt8 := data.getD offset 0

/-- `enum greybus_descriptor_type`, which the AP has with the same values -/
def typeInterface : UInt8 := 1

def typeString : UInt8 := 2

def typeBundle : UInt8 := 3

def typeCport : UInt8 := 4

/-- The fields of a descriptor, which starts with its size, its type and a pad byte -/
def descSize (desc : List UInt8) : ℕ := le16 desc 0

def descType (desc : List UInt8) : UInt8 := byteAt desc 2

def stringLength (desc : List UInt8) : ℕ := (byteAt desc 4).toNat

def bundleId (desc : List UInt8) : ℕ := (byteAt desc 4).toNat

def bundleClass (desc : List UInt8) : ℕ := (byteAt desc 5).toNat

def cportId (desc : List UInt8) : ℕ := le16 desc 4

def cportBundle (desc : List UInt8) : ℕ := (byteAt desc 6).toNat

def cportProtocol (desc : List UInt8) : ℕ := (byteAt desc 7).toNat

section Module

/-- `struct gb_cport` of the module -/
structure GbCport where
  id : Int
  protocol : Int
  deviceId : Int
  deriving DecidableEq, Repr

/-- The cports are added at the end of the list. -/
def allocCport (cport : GbCport) (cports : List GbCport) : List GbCport := cports ++ [cport]

def freeCport (cportid : Int) : List GbCport → List GbCport
  | [] => []
  | gbCport :: rest => if gbCport.id = cportid then freeCport cportid rest else gbCport :: freeCport cportid rest

def align (x : ℕ) : ℕ := (x + 3) / 4 * 4

/-- The size that `identify_descriptor` expects, if it knows the type -/
def expectedSize (desc : List UInt8) : Option ℕ :=
  if descType desc = typeString then some (align (4 + 2 + stringLength desc))
  else if descType desc = typeInterface then some (4 + 4)
  else if descType desc = typeBundle then some (4 + 4)
  else if descType desc = typeCport then some (4 + 4)
  else none

/-- `identify_descriptor`, with the bytes from the descriptor to the end of the manifest -/
def identifyDescriptor (gDeviceId : Int) (release : Bool) (desc : List UInt8) (cports : List GbCport) :
    Int × List GbCport :=
  if desc.length < 4 then (- EINVAL, cports)
  else if desc.length < descSize desc then (- EINVAL, cports)
  else
    match expectedSize desc with
    | none => (- EINVAL, cports)
    | some expected =>
      let cports :=
        if descType desc = typeCport ∧ expected ≤ descSize desc then
          if release then freeCport (cportId desc) cports
          else allocCport ⟨cportId desc, cportProtocol desc, gDeviceId⟩ cports
        else cports
      if descSize desc < expected then (- EINVAL, cports) else (descSize desc, cports)

/-- The loop of `_manifest_parse` -/
def manifestParseLoop (gDeviceId : Int) (release : Bool) (desc : List UInt8) (cports : List GbCport) :
    Bool × List GbCport :=
  if desc = [] then (true, cports)
  else
    let identified := identifyDescriptor gDeviceId release desc cports
    if identified.1 ≤ 0 then (false, identified.2)
    else manifestParseLoop gDeviceId release (desc.drop identified.1.toNat) identified.2
  termination_by desc.length
  decreasing_by
    have some := List.length_pos_iff.mpr ‹_›
    have positive : ¬(identifyDescriptor gDeviceId release desc cports).1 ≤ 0 := ‹_›
    rw [List.length_drop]
    omega

/-- `_manifest_parse` -/
def manifestParseOrRelease (gDeviceId : Int) (release : Bool) (data : List UInt8) (cports : List GbCport) :
    Option (Bool × List GbCport) :=
  if !release ∧ (data.length ≤ 4 ∨ le16 data 0 ≠ data.length ∨ 0 < byteAt data 2) then some (false, cports)
  -- A release does not check the size, which wraps here, and the loop leaves the manifest.
  else if data.length < 4 then none
  else some (manifestParseLoop gDeviceId release (data.drop 4) cports)

def manifestParse (gDeviceId : Int) (data : List UInt8) (cports : List GbCport) : Option (Bool × List GbCport) :=
  manifestParseOrRelease gDeviceId false data cports

def manifestRelease (gDeviceId : Int) (data : List UInt8) (cports : List GbCport) : Option (Bool × List GbCport) :=
  manifestParseOrRelease gDeviceId true data cports

end Module

section Ap

/-- `GB_CLASS_CONTROL` -/
def classControl : ℕ := 0

/-- `GB_CONTROL_CPORT` -/
def controlCport : ℕ := 0

/-- `struct gb_bundle`, with the protocols of its cports by their ids -/
structure GbBundle where
  bundleClass : ℕ
  cports : ℕ → Option ℕ

/-- `struct gb_interface` with its bundles by their ids. `created` keeps the id, the bundle and the protocol of each
cport that has been created. -/
structure GbInterface where
  bundles : ℕ → Option GbBundle
  created : List (ℕ × ℕ × ℕ)

def GbInterface.create : GbInterface := ⟨fun _ => none, []⟩

def manifestParseInterface (iface : GbInterface) (desc : List UInt8) : Int × GbInterface :=
  if desc.length < 8 ∨ desc.length < descSize desc then (- EINVAL, iface) else (descSize desc, iface)

def manifestParseString (iface : GbInterface) (desc : List UInt8) : Int × GbInterface :=
  if desc.length < 6 ∨ desc.length < descSize desc then (- EINVAL, iface) else (descSize desc, iface)

def manifestParseBundle (iface : GbInterface) (desc : List UInt8) : Int × GbInterface :=
  if desc.length < 8 ∨ desc.length < descSize desc then (- EINVAL, iface)
  else if bundleClass desc = classControl then (descSize desc, iface)
  else
    let bundle : GbBundle := ⟨bundleClass desc, fun _ => none⟩
    (descSize desc, { iface with bundles := Function.update iface.bundles (bundleId desc) (some bundle) })

def manifestParseCport (iface : GbInterface) (desc : List UInt8) : Int × GbInterface :=
  if desc.length < 8 ∨ desc.length < descSize desc then (- EINVAL, iface)
  else if cportId desc = controlCport then (descSize desc, iface)
  else
    match iface.bundles (cportBundle desc) with
    | none => (descSize desc, iface)
    | some bundle =>
      let cports := Function.update bundle.cports (cportId desc) (some (cportProtocol desc))
      (descSize desc,
        { bundles := Function.update iface.bundles (cportBundle desc) (some { bundle with cports })
          created := iface.created ++ [(cportId desc, cportBundle desc, cportProtocol desc)] })

/-- The switch of the first loop of the AP's `manifest_parse` -/
def parseDescriptor (iface : GbInterface) (desc : List UInt8) : Int × GbInterface :=
  if descType desc = typeInterface then manifestParseInterface iface desc
  else if descType desc = typeString then manifestParseString iface desc
  else if descType desc = typeBundle then manifestParseBundle iface desc
  else if descType desc = typeCport then manifestParseCport iface desc
  else (- EINVAL, iface)

/-- The switch of the second loop, where `nread` is not initialised for an unknown type -/
def parseDescriptorAgain (nread : Int) (iface : GbInterface) (desc : List UInt8) : Int × GbInterface :=
  if descType desc = typeInterface ∨ descType desc = typeString ∨ descType desc = typeBundle then (descSize desc, iface)
  else if descType desc = typeCport then manifestParseCport iface desc
  else (nread, iface)

/-- A loop of the AP's `manifest_parse` over the bytes from the offset to the size of the manifest -/
def apParseLoop (parse : GbInterface → List UInt8 → Int × GbInterface) (desc : List UInt8) (iface : GbInterface) :
    Int × GbInterface :=
  if desc.length < 4 then (0, iface)
  else
    let parsed := parse iface desc
    if parsed.1 ≤ 0 then (- EINVAL, parsed.2)
    else apParseLoop parse (desc.drop parsed.1.toNat) parsed.2
  termination_by desc.length
  decreasing_by
    have positive : ¬(parse iface desc).1 ≤ 0 := ‹_›
    rw [List.length_drop]
    omega

/-- `manifest_parse` of the AP. `sizeof(hdr)` is the size of a pointer, four bytes. -/
def apManifestParse (nread : Int) (iface : GbInterface) (data : List UInt8) : Int × GbInterface :=
  if data.length < 4 + 4 then (- EINVAL, iface)
  else if data.length < le16 data 0 then (- EINVAL, iface)
  else
    let desc := (data.take (le16 data 0)).drop 4
    let first := apParseLoop parseDescriptor desc iface
    if first.1 ≠ 0 then first else apParseLoop (parseDescriptorAgain nread) desc first.2

end Ap

/-
This part embeds the AP's `manifest_parse` (drivers/greybus/ap/manifest.c) with the addresses that it reads, the memory that
it needs and the descriptors that it visits. There is no result where a byte behind the received ones is read, and where a
cport or a table is written that was not allocated.
-/

/-- What a loop gets for the descriptor that has so many bytes left: the memory of `gb_bundle_create`, which is tested; room in
the table of the bundles; and, for a cport, `gb_cport_create` and room in the table of its bundle -/
structure Memory where
  bundle : ℕ → Bool
  bundles : ℕ → Bool
  cport : ℕ → Bool

def readByte (data : List UInt8) (address : ℕ) : Option UInt8 := data[address]?

def readLe16 (data : List UInt8) (address : ℕ) : Option ℕ :=
  (readByte data address).bind fun low => (readByte data (address + 1)).map fun high => low.toNat + 256 * high.toNat

/-- The sizes of `struct gb_interface_descriptor` and of the structures of the other types -/
def structSize (type : UInt8) : Option ℕ :=
  if type = typeInterface then some 8
  else if type = typeString then some 6
  else if type = typeBundle then some 8
  else if type = typeCport then some 8
  else none

/-- The check that begins each function for a type, which reads the size only where the structure fits -/
def readSize (size : ℕ) (iface : GbInterface) (data : List UInt8) (off maxSize : ℕ)
    (parse : ℕ → Option (Int × GbInterface)) : Option (Int × GbInterface) :=
  if maxSize < size then some (- EINVAL, iface)
  else (readLe16 data off).bind fun size => if maxSize < size then some (- EINVAL, iface) else parse size

def readInterface (iface : GbInterface) (data : List UInt8) (off maxSize : ℕ) : Option (Int × GbInterface) :=
  readSize 8 iface data off maxSize fun size => some (size, iface)

def readString (iface : GbInterface) (data : List UInt8) (off maxSize : ℕ) : Option (Int × GbInterface) :=
  readSize 6 iface data off maxSize fun size => some (size, iface)

def readBundle (memory : Memory) (iface : GbInterface) (data : List UInt8) (off maxSize : ℕ) : Option (Int × GbInterface) :=
  readSize 8 iface data off maxSize fun size =>
    (readByte data (off + 5)).bind fun bundleClass =>
      if bundleClass.toNat = classControl then some (size, iface)
      else (readByte data (off + 4)).bind fun id =>
        if !memory.bundle maxSize then some (size, iface)
        else if !memory.bundles maxSize then none
        else some (size, { iface with
          bundles := Function.update iface.bundles id.toNat (some ⟨bundleClass.toNat, fun _ => none⟩) })

/-- The second test of `bundle` in `manifest_parse_cport` lets a cport through that was not allocated. -/
def readCport (memory : Memory) (iface : GbInterface) (data : List UInt8) (off maxSize : ℕ) : Option (Int × GbInterface) :=
  readSize 8 iface data off maxSize fun size =>
    (readLe16 data (off + 4)).bind fun id =>
      if id = controlCport then some (size, iface)
      else (readByte data (off + 6)).bind fun bundleId =>
        match iface.bundles bundleId.toNat with
        | none => some (size, iface)
        | some bundle => (readByte data (off + 7)).bind fun protocol =>
          if !memory.cport maxSize then none
          else some (size, {
            bundles := Function.update iface.bundles bundleId.toNat
              (some { bundle with cports := Function.update bundle.cports id (some protocol.toNat) })
            created := iface.created ++ [(id, bundleId.toNat, protocol.toNat)] })

/-- The switch of the first loop -/
def readDescriptor (memory : Memory) (iface : GbInterface) (data : List UInt8) (off maxSize : ℕ) : Option (Int × GbInterface) :=
  (readByte data (off + 2)).bind fun type =>
    if type = typeInterface then readInterface iface data off maxSize
    else if type = typeString then readString iface data off maxSize
    else if type = typeBundle then readBundle memory iface data off maxSize
    else if type = typeCport then readCport memory iface data off maxSize
    else some (- EINVAL, iface)

/-- The switch of the second loop -/
def readDescriptorAgain (memory : Memory) (nread : Int) (iface : GbInterface) (data : List UInt8) (off maxSize : ℕ) :
    Option (Int × GbInterface) :=
  (readByte data (off + 2)).bind fun type =>
    if type = typeInterface ∨ type = typeString ∨ type = typeBundle then
      (readLe16 data off).map fun size => (size, iface)
    else if type = typeCport then readCport memory iface data off maxSize
    else some (nread, iface)

/-- A descriptor that a loop has visited, with the number of bytes that it goes on by -/
structure Visit where
  off : ℕ
  nread : Int
  deriving DecidableEq

/-- A loop from an offset on, for a number of passes -/
def readLoop (read : GbInterface → ℕ → ℕ → Option (Int × GbInterface)) (manifestSize : ℕ) :
    ℕ → ℕ → GbInterface → Option (Int × GbInterface × List Visit)
  | 0, _, _ => none
  | passes + 1, off, iface =>
    if off + 4 ≤ manifestSize then
      (read iface off (manifestSize - off)).bind fun parsed =>
        if parsed.1 ≤ 0 then some (- EINVAL, parsed.2, [⟨off, parsed.1⟩])
        else (readLoop read manifestSize passes (off + parsed.1.toNat) parsed.2).map fun rest =>
          (rest.1, rest.2.1, ⟨off, parsed.1⟩ :: rest.2.2)
    else some (0, iface, [])

/-- What `manifest_parse` returns and leaves, with the descriptors that its two loops have visited -/
structure Parsed where
  retval : Int
  iface : GbInterface
  first : List Visit
  second : List Visit

/-- `manifest_parse` with the memory that its two loops get -/
def apManifestParseReads (memory again : Memory) (nread : Int) (iface : GbInterface) (data : List UInt8) : Option Parsed :=
  if data.length < 4 + 4 then some ⟨- EINVAL, iface, [], []⟩
  else (readLe16 data 0).bind fun manifestSize =>
    if data.length < manifestSize then some ⟨- EINVAL, iface, [], []⟩
    else
      (readLoop (readDescriptor memory · data) manifestSize (data.length + 1) 4 iface).bind fun first =>
        if first.1 ≠ 0 then some ⟨first.1, first.2.1, first.2.2, []⟩
        else
          (readLoop (readDescriptorAgain again nread · data) manifestSize (data.length + 1) 4 first.2.1).map fun second =>
            ⟨second.1, second.2.1, first.2.2, second.2.2⟩

/-
This part embeds `manifest_parse` of a module with the bytes that it reads and the memory that it needs. There is no
result where a byte behind the given ones is read, and where a cport is written that was not allocated.
-/

/-- `GREYBUS_VERSION_MAJOR` -/
def versionMajor : ℕ := 0

/-- The case of a cport. `malloc` has the outcome of the allocation when there are so many cports. -/
def allocCportReads (gDeviceId : Int) (malloc : ℕ → Bool) (desc : List UInt8) (cports : List GbCport) :
    Option (List GbCport) :=
  if malloc cports.length then
    (readLe16 desc 4).bind fun id => (readByte desc 7).map fun protocol =>
      allocCport ⟨id, protocol.toNat, gDeviceId⟩ cports
  else none

/-- The end of `identify_descriptor` -/
def checkSize (size expected : ℕ) (cports : List GbCport) : Int × List GbCport :=
  if size < expected then (- EINVAL, cports) else (size, cports)

def identifyDescriptorReads (gDeviceId : Int) (malloc : ℕ → Bool) (desc : List UInt8) (cports : List GbCport) :
    Option (Int × List GbCport) :=
  if desc.length < 4 then some (- EINVAL, cports)
  else (readLe16 desc 0).bind fun size =>
    if desc.length < size then some (- EINVAL, cports)
    else (readByte desc 2).bind fun type =>
      if type = typeString then
        -- The size of the descriptor has not been compared with that of the structure yet.
        (readByte desc 4).map fun length => checkSize size (align (4 + 2 + length.toNat)) cports
      else if type = typeInterface then some (checkSize size (4 + 4) cports)
      else if type = typeBundle then some (checkSize size (4 + 4) cports)
      else if type = typeCport then
        if 4 + 4 ≤ size then (allocCportReads gDeviceId malloc desc cports).map (checkSize size (4 + 4))
        else some (checkSize size (4 + 4) cports)
      else some (- EINVAL, cports)

/-- The loop of `_manifest_parse` -/
def manifestParseLoopReads (gDeviceId : Int) (malloc : ℕ → Bool) (desc : List UInt8) (cports : List GbCport) :
    Option (Bool × List GbCport) :=
  if desc = [] then some (true, cports)
  else
    match identifyDescriptorReads gDeviceId malloc desc cports with
    | none => none
    | some (size, cports) =>
      if size ≤ 0 then some (false, cports)
      else manifestParseLoopReads gDeviceId malloc (desc.drop size.toNat) cports
  termination_by desc.length
  decreasing_by
    have some := List.length_pos_iff.mpr ‹_›
    rw [List.length_drop]
    omega

/-- `manifest_parse` on as many bytes as the size says -/
def manifestParseReads (gDeviceId : Int) (malloc : ℕ → Bool) (data : List UInt8) (cports : List GbCport) :
    Option (Bool × List GbCport) :=
  if data.length ≤ 4 then some (false, cports)
  else (readLe16 data 0).bind fun manifestSize =>
    if manifestSize ≠ data.length then some (false, cports)
    else (readByte data 2).bind fun major =>
      if versionMajor < major.toNat then some (false, cports)
      else manifestParseLoopReads gDeviceId malloc (data.drop 4) cports

end Phabos.Manifest
