import Mathlib.Data.List.Basic
import Mathlib.Data.Stream.Init

/-
This file embeds the message header and the handler table of drivers/greybus/greybus-core.c.
-/

namespace Phabos.Greybus

def TYPE_RESPONSE_FLAG : BitVec 8 := 0x80

def GB_INVALID_TYPE : BitVec 8 := 0

def GB_OP_NO_MEMORY : BitVec 8 := 0x03

def GB_OP_INVALID : BitVec 8 := 0x06

def EIO : Int := 5

def EINVAL : Int := 22

/-- Each message starts with this header. -/
structure GbOperationHdr where
  size : BitVec 16
  id : BitVec 16
  type : BitVec 8
  result : BitVec 8
  deriving DecidableEq

/-- `sizeof(struct gb_operation_hdr)`, with its two bytes of padding -/
def hdrSize : Nat := 8

/-- A handler allocates and sends responses and returns a result; it sees whether an allocation
succeeded and what a send returned. -/
inductive Handler where
  | ret (result : BitVec 8)
  | allocResponse (size : Nat) (next : Bool → Handler)
  | sendResponse (result : BitVec 8) (next : Int → Handler)

/-- An entry of a handler table; an entry with a fast handler has no other one. -/
structure GbOperationHandler where
  type : BitVec 8
  handler : Handler
  hasFastHandler : Bool

/-- This is the binary search of `find_operation_handler`. -/
def searchHandler (opHandlers : List GbOperationHandler) (type : BitVec 8) :
    Nat → Int → Int → Option GbOperationHandler
  | 0, _, _ => none
  | fuel + 1, l, r =>
    if l ≤ r then
      let m := (l + r).tdiv 2
      (opHandlers[m.toNat]?).bind fun handler =>
        if handler.type < type then searchHandler opHandlers type fuel (m + 1) r
        else if type < handler.type then searchHandler opHandlers type fuel l (m - 1)
        else some handler
    else none

/-- A driver without a table has no handler, and no handler has the invalid type. -/
def findOperationHandler (opHandlers : Option (List GbOperationHandler)) (type : BitVec 8) :
    Option GbOperationHandler :=
  match opHandlers with
  | none => none
  | some opHandlers =>
    if type = GB_INVALID_TYPE then none
    else searchHandler opHandlers type (opHandlers.length + 1) 0 (opHandlers.length - 1)

/-
This part embeds the path of a request and of its responses in drivers/greybus/greybus-core.c.
-/

/-- An operation under a request, with the outcomes of the allocations and of the sends to come and
the messages handed to the transport so far, each with the value it returned. -/
structure Session where
  request : GbOperationHdr
  responseBuffer : Option GbOperationHdr
  hasResponded : Bool
  mallocs : Stream' Bool
  transport : Stream' Int
  sent : List (GbOperationHdr × Int)

/-- A delivered request has no response yet. -/
def Session.deliver (request : GbOperationHdr) (mallocs : Stream' Bool) (transport : Stream' Int) :
    Session := ⟨request, none, false, mallocs, transport, []⟩

/-- `unipro_send` hands one message to the transport. -/
def uniproSend (s : Session) (hdr : GbOperationHdr) : Int × Session :=
  (s.transport.head, { s with
    transport := s.transport.tail
    sent := s.sent ++ [(hdr, s.transport.head)] })

/-- `gb_operation_alloc_response` tells whether it returns a payload. -/
def gbOperationAllocResponse (s : Session) (size : Nat) : Bool × Session :=
  if s.mallocs.head then
    (true, { s with
      mallocs := s.mallocs.tail
      responseBuffer := some
        { size := BitVec.ofNat 16 (size + hdrSize)
          id := s.request.id
          type := TYPE_RESPONSE_FLAG ||| s.request.type
          result := 0 } })
  else (false, { s with mallocs := s.mallocs.tail, responseBuffer := none })

/-- `gb_operation_send_oom_response` sends a header that needs no allocation. -/
def gbOperationSendOomResponse (s : Session) : Int × Session :=
  uniproSend s
    { size := BitVec.ofNat 16 hdrSize
      id := s.request.id
      type := TYPE_RESPONSE_FLAG ||| s.request.type
      result := GB_OP_NO_MEMORY }

/-- This is the end of `gb_operation_send_response`, once there is a response buffer. -/
def Session.sendBuffer (s : Session) (respHdr : GbOperationHdr) (hasAllocatedResponse : Bool)
    (result : BitVec 8) : Int × Session :=
  let respHdr := { respHdr with result := result }
  let (retval, s) := uniproSend { s with responseBuffer := some respHdr } respHdr
  if retval < 0 then
    (retval, if hasAllocatedResponse then { s with responseBuffer := none } else s)
  else (0, { s with hasResponded := true })

def gbOperationSendResponse (s : Session) (result : BitVec 8) : Int × Session :=
  if s.hasResponded then (-EINVAL, s) else
    match s.responseBuffer with
    | some respHdr => s.sendBuffer respHdr false result
    | none =>
      let (_, s) := gbOperationAllocResponse s 0
      match s.responseBuffer with
      | none => gbOperationSendOomResponse s
      | some respHdr => s.sendBuffer respHdr true result

/-- A handler runs on the operation of its request. -/
def Handler.run : Handler → Session → BitVec 8 × Session
  | .ret result, s => (result, s)
  | .allocResponse size next, s =>
    let (allocated, s) := gbOperationAllocResponse s size
    (next allocated).run s
  | .sendResponse result next, s =>
    let (retval, s) := gbOperationSendResponse s result
    (next retval).run s

def gbProcessRequest (opHandlers : Option (List GbOperationHandler)) (s : Session) : Session :=
  match findOperationHandler opHandlers s.request.type with
  | none => (gbOperationSendResponse s GB_OP_INVALID).2
  | some opHandler =>
    let (result, s) := opHandler.handler.run s
    if s.request.id ≠ 0 then (gbOperationSendResponse s result).2 else s

end Phabos.Greybus
