import Mathlib.Data.Nat.Notation

/-
This file embeds the download of a manifest in drivers/greybus/ap/control.c.
-/

namespace Phabos.ManifestDownload

def EIO : Int := 5

def ENOMEM : Int := 12

/-- `sizeof(struct gb_operation_hdr)` -/
def hdrSize : ℕ := 8

def gbOpSuccess : UInt8 := 0x00

def gbOpTimeout : UInt8 := 0x02

def gbOpInternal : UInt8 := 0xff

/-- A response: the size and the result in its header, and the bytes of its buffer behind the header, which go on behind
the payload -/
structure Response where
  size : ℕ
  result : UInt8
  bytes : ℕ → UInt8

def gbOperationGetRequestPayloadSize (response : Response) : ℕ :=
  if response.size < hdrSize then 0 else response.size - hdrSize

/-- `gb_operation_get_request_result`, with the response of the operation if there is one -/
def gbOperationGetRequestResult (response : Option Response) : UInt8 :=
  match response with
  | none => gbOpTimeout
  | some response => if response.size < hdrSize then gbOpInternal else response.result

/-- What becomes of a request: whether there is an operation for it, what the transport returns for it, and the response
that comes before it times out -/
structure Exchange where
  created : Bool
  transport : Int
  response : Option Response

/-- `gb_operation_send_request_sync` -/
def Exchange.send (exchange : Exchange) : Int := if exchange.transport < 0 then exchange.transport else 0

/-- What both requests do up to the payload of the response -/
def Exchange.run (exchange : Exchange) : Except Int Response :=
  if exchange.created = false then .error (- ENOMEM)
  else if exchange.send ≠ 0 then .error exchange.send
  else if gbOperationGetRequestResult exchange.response ≠ gbOpSuccess then .error (- EIO)
  else
    match exchange.response with
    | none => .error (- EIO)
    | some response => .ok response

/-- A read of a payload: the response, and the count of its bytes that are read from the start on -/
abbrev Read := Response × ℕ

def gbControlGetManifestSize (exchange : Exchange) : Int × List Read :=
  match exchange.run with
  | .error retval => (retval, [])
  | .ok response => ((response.bytes 0).toNat + 256 * (response.bytes 1).toNat, [(response, 2)])

/-- The return code, and the bytes that are copied to the manifest -/
def gbControlGetManifestData (exchange : Exchange) (size : ℕ) : Int × List UInt8 × List Read :=
  match exchange.run with
  | .error retval => (retval, [], [])
  | .ok response => (0, (List.range size).map response.bytes, [(response, size)])

/-- What `gb_control_get_manifest` returns and leaves in the manifest, and what it reads -/
structure Download where
  retval : Int
  size : ℕ
  data : Option (List UInt8)
  reads : List Read

/-- `memory` is the outcome of the allocation of the data. -/
def gbControlGetManifest (first second : Exchange) (memory : Bool) : Download :=
  let (size, reads) := gbControlGetManifestSize first
  if size < 0 then ⟨size, 0, none, reads⟩
  else if size = 0 then ⟨- EIO, 0, none, reads⟩
  else if memory = false then ⟨- ENOMEM, size.toNat, none, reads⟩
  else
    let (retval, data, dataReads) := gbControlGetManifestData second size.toNat
    if retval ≠ 0 then ⟨retval, size.toNat, none, reads ++ dataReads⟩
    else ⟨0, size.toNat, some data, reads ++ dataReads⟩

end Phabos.ManifestDownload
