import Phabos.Construction.Greybus.Request

namespace Phabos.Greybus
open List

/-- These are the messages that the transport accepted. -/
def accepted (sent : List (GbOperationHdr × Int)) : List GbOperationHdr :=
  (sent.filter fun message => decide (0 ≤ message.2)).map Prod.fst

/-- A response carries the id of its request and the type of its request with the response flag. -/
def GbOperationHdr.Answers (hdr request : GbOperationHdr) : Prop :=
  hdr.id = request.id ∧ hdr.type = request.type ||| TYPE_RESPONSE_FLAG

/-- A request gets at most one response, exactly one when it has an id and the transport accepts one,
and none when its id is zero. -/
structure Session.Disciplined (s : Session) (request : GbOperationHdr) : Prop where
  atMostOne : (accepted s.sent).length ≤ 1
  carries : ∀ hdr ∈ accepted s.sent, hdr.Answers request
  attempted : request.id ≠ 0 → s.sent ≠ []
  answered : request.id ≠ 0 → (∃ message ∈ s.sent, 0 ≤ message.2) → (accepted s.sent).length = 1
  silent : request.id = 0 → accepted s.sent = []

/-- On no path does the handler send a response. -/
def Handler.NeverSends : Handler → Prop
  | .ret _ => True
  | .allocResponse _ next => (next true).NeverSends ∧ (next false).NeverSends
  | .sendResponse _ _ => False

/-- On no path does the handler send a first response without a response buffer that it allocated. -/
def Handler.SendsPrepared : Handler → Bool → Bool → Prop
  | .ret _, _, _ => True
  | .allocResponse _ next, _, responded =>
    (next true).SendsPrepared true responded ∧ (next false).SendsPrepared false responded
  | .sendResponse _ next, prepared, true => (next (-EINVAL)).SendsPrepared prepared true
  | .sendResponse _ next, true, false =>
    (next 0).SendsPrepared true true ∧ ∀ retval < 0, (next retval).SendsPrepared true false
  | .sendResponse _ _, false, false => False

/-- A request without an id has a handler that never sends; a request with an id has none, or one
that prepares its first response. -/
def KeepsDiscipline (opHandlers : Option (List GbOperationHandler)) (request : GbOperationHdr) : Prop :=
  match findOperationHandler opHandlers request.type with
  | none => request.id ≠ 0
  | some opHandler =>
    if request.id = 0 then opHandler.handler.NeverSends
    else opHandler.handler.SendsPrepared false false

section Send
variable {s : Session} {request : GbOperationHdr}

theorem accepted_append_taken (sent : List (GbOperationHdr × Int)) (hdr : GbOperationHdr)
    {retval : Int} (taken : 0 ≤ retval) :
    accepted (sent ++ [(hdr, retval)]) = accepted sent ++ [hdr] := by
  simp [accepted, filter_append, taken]

theorem accepted_append_refused (sent : List (GbOperationHdr × Int)) (hdr : GbOperationHdr)
    {retval : Int} (refused : retval < 0) : accepted (sent ++ [(hdr, retval)]) = accepted sent := by
  simp [accepted, filter_append, refused]

theorem accepted_ne_nil {sent : List (GbOperationHdr × Int)} :
    accepted sent ≠ [] ↔ ∃ message ∈ sent, 0 ≤ message.2 := by
  simp [accepted, filter_eq_nil_iff]

theorem sendBuffer_taken (respHdr : GbOperationHdr) (hasAllocatedResponse : Bool) (result : BitVec 8)
    (taken : 0 ≤ s.transport.head) :
    s.sendBuffer respHdr hasAllocatedResponse result = (0, { s with
      responseBuffer := some { respHdr with result := result }
      hasResponded := true
      transport := s.transport.tail
      sent := s.sent ++ [({ respHdr with result := result }, s.transport.head)] }) := by
  unfold Session.sendBuffer uniproSend
  exact if_neg (by dsimp only; omega)

theorem sendBuffer_refused (respHdr : GbOperationHdr) (hasAllocatedResponse : Bool)
    (result : BitVec 8) (refused : s.transport.head < 0) :
    s.sendBuffer respHdr hasAllocatedResponse result = (s.transport.head, { s with
      responseBuffer := if hasAllocatedResponse then none else some { respHdr with result := result }
      transport := s.transport.tail
      sent := s.sent ++ [({ respHdr with result := result }, s.transport.head)] }) := by
  unfold Session.sendBuffer uniproSend
  cases hasAllocatedResponse <;> exact if_pos refused

/-- This is the response without payload that a send allocates itself. -/
def Session.emptyResponse (s : Session) : GbOperationHdr :=
  { size := BitVec.ofNat 16 hdrSize
    id := s.request.id
    type := TYPE_RESPONSE_FLAG ||| s.request.type
    result := 0 }

theorem sent_sendBuffer (respHdr : GbOperationHdr) (hasAllocatedResponse : Bool) (result : BitVec 8) :
    (s.sendBuffer respHdr hasAllocatedResponse result).2.sent =
      s.sent ++ [({ respHdr with result := result }, s.transport.head)] := by
  rcases Int.lt_or_le s.transport.head 0 with refused | taken
  · rw [sendBuffer_refused respHdr hasAllocatedResponse result refused]
  · rw [sendBuffer_taken respHdr hasAllocatedResponse result taken]

theorem request_sendBuffer (respHdr : GbOperationHdr) (hasAllocatedResponse : Bool) (result : BitVec 8) :
    (s.sendBuffer respHdr hasAllocatedResponse result).2.request = s.request := by
  rcases Int.lt_or_le s.transport.head 0 with refused | taken
  · rw [sendBuffer_refused respHdr hasAllocatedResponse result refused]
  · rw [sendBuffer_taken respHdr hasAllocatedResponse result taken]

theorem allocResponse_granted (size : Nat) (granted : s.mallocs.head = true) :
    gbOperationAllocResponse s size = (true, { s with
      mallocs := s.mallocs.tail
      responseBuffer := some
        { size := BitVec.ofNat 16 (size + hdrSize)
          id := s.request.id
          type := TYPE_RESPONSE_FLAG ||| s.request.type
          result := 0 } }) := if_pos granted

theorem allocResponse_denied (size : Nat) (denied : s.mallocs.head = false) :
    gbOperationAllocResponse s size =
      (false, { s with mallocs := s.mallocs.tail, responseBuffer := none }) :=
  if_neg (by simp [denied])

theorem sendResponse_responded (result : BitVec 8) (responded : s.hasResponded = true) :
    gbOperationSendResponse s result = (-EINVAL, s) := if_pos responded

section
variable (result : BitVec 8) (unresponded : s.hasResponded = false)
include unresponded

theorem sendResponse_prepared {respHdr : GbOperationHdr} (prepared : s.responseBuffer = some respHdr) :
    gbOperationSendResponse s result = s.sendBuffer respHdr false result := by
  unfold gbOperationSendResponse
  rw [if_neg (by simp [unresponded]), prepared]

theorem sendResponse_granted (unprepared : s.responseBuffer = none) (granted : s.mallocs.head = true) :
    gbOperationSendResponse s result = Session.sendBuffer
      { s with mallocs := s.mallocs.tail, responseBuffer := some s.emptyResponse }
      s.emptyResponse true result := by
  unfold gbOperationSendResponse
  rw [if_neg (by simp [unresponded]), unprepared, allocResponse_granted 0 granted]
  rfl

theorem sendResponse_denied (unprepared : s.responseBuffer = none) (denied : s.mallocs.head = false) :
    gbOperationSendResponse s result =
      gbOperationSendOomResponse { s with mallocs := s.mallocs.tail, responseBuffer := none } := by
  unfold gbOperationSendResponse
  rw [if_neg (by simp [unresponded]), unprepared, allocResponse_denied 0 denied]

end

end Send

section Disciplined
variable {s : Session} {request : GbOperationHdr}

/-- Every response so far answers the request, and one was accepted exactly when that is recorded. -/
structure Session.Recorded (s : Session) (request : GbOperationHdr) : Prop where
  request_eq : s.request = request
  buffer : ∀ hdr, s.responseBuffer = some hdr → hdr.Answers request
  carries : ∀ hdr ∈ accepted s.sent, hdr.Answers request
  counted : (accepted s.sent).length = if s.hasResponded then 1 else 0

theorem Session.Recorded.none_accepted (recorded : s.Recorded request)
    (unresponded : s.hasResponded = false) : accepted s.sent = [] := by
  have counted := recorded.counted
  rw [unresponded] at counted
  exact eq_nil_of_length_eq_zero counted

theorem Session.Recorded.alloc (recorded : s.Recorded request) (size : Nat) :
    (gbOperationAllocResponse s size).2.Recorded request := by
  unfold gbOperationAllocResponse
  split
  · refine { recorded with buffer := ?_ }
    rintro hdr same
    obtain rfl := Option.some.inj same
    rw [← recorded.request_eq]
    exact ⟨rfl, BitVec.or_comm _ _⟩
  · refine { recorded with buffer := ?_ }
    rintro hdr same
    cases same

theorem Session.Recorded.sendBuffer (recorded : s.Recorded request) (unresponded : s.hasResponded = false)
    {respHdr : GbOperationHdr} (answers : respHdr.Answers request) (hasAllocatedResponse : Bool) (result : BitVec 8) :
    (s.sendBuffer respHdr hasAllocatedResponse result).2.Recorded request := by
  have empty := recorded.none_accepted unresponded
  rcases Int.lt_or_le s.transport.head 0 with refused | taken
  · rw [sendBuffer_refused respHdr hasAllocatedResponse result refused]
    refine ⟨recorded.request_eq, ?_, ?_, ?_⟩
    · intro hdr same
      dsimp only at same
      split at same
      · cases same
      · obtain rfl := Option.some.inj same
        exact answers
    · dsimp only
      rw [accepted_append_refused _ _ refused]
      exact recorded.carries
    · dsimp only
      rw [accepted_append_refused _ _ refused]
      exact recorded.counted
  · rw [sendBuffer_taken respHdr hasAllocatedResponse result taken]
    refine ⟨recorded.request_eq, ?_, ?_, ?_⟩
    · intro hdr same
      obtain rfl := Option.some.inj same
      exact answers
    · intro hdr inside
      dsimp only at inside
      rw [accepted_append_taken _ _ taken, empty, nil_append, mem_singleton] at inside
      subst hdr
      exact answers
    · dsimp only
      rw [accepted_append_taken _ _ taken, empty]
      rfl

theorem disciplined_of_attempt (named : request.id ≠ 0) (attempted : s.sent ≠ [])
    (atMostOne : (accepted s.sent).length ≤ 1) (carries : ∀ hdr ∈ accepted s.sent, hdr.Answers request) :
    s.Disciplined request where
  atMostOne := atMostOne
  carries := carries
  attempted _ := attempted
  answered _ taken := by
    have positive := length_pos_iff.mpr (accepted_ne_nil.mpr taken)
    omega
  silent unnamed := absurd unnamed named

theorem Session.Recorded.disciplined (recorded : s.Recorded request) (named : request.id ≠ 0)
    (attempted : s.sent ≠ []) : s.Disciplined request := by
  apply disciplined_of_attempt named attempted ?_ recorded.carries
  have counted := recorded.counted
  split at counted <;> omega

/-- An answer to a request that has an id leaves the session disciplined. -/
theorem Session.Recorded.answer (recorded : s.Recorded request) (result : BitVec 8)
    (named : request.id ≠ 0) : (gbOperationSendResponse s result).2.Disciplined request := by
  cases responded : s.hasResponded with
  | true =>
    rw [sendResponse_responded result responded]
    refine recorded.disciplined named fun empty => ?_
    have counted := recorded.counted
    rw [responded, empty] at counted
    contradiction
  | false =>
    have attempted (s : Session) (respHdr : GbOperationHdr) (allocated : Bool) :
        (s.sendBuffer respHdr allocated result).2.sent ≠ [] := by
      rw [sent_sendBuffer]
      exact append_ne_nil_of_right_ne_nil _ (cons_ne_nil _ _)
    cases prepared : s.responseBuffer with
    | some respHdr =>
      rw [sendResponse_prepared result responded prepared]
      exact (recorded.sendBuffer responded (recorded.buffer respHdr prepared) false
        result).disciplined named (attempted _ _ _)
    | none =>
      have allocated := recorded.alloc 0
      cases granted : s.mallocs.head with
      | true =>
        rw [sendResponse_granted result responded prepared granted]
        rw [allocResponse_granted 0 granted] at allocated
        refine (Session.Recorded.sendBuffer allocated responded ?_ true result).disciplined named
          (attempted _ _ _)
        rw [← recorded.request_eq]
        exact ⟨rfl, BitVec.or_comm _ _⟩
      | false =>
        rw [sendResponse_denied result responded prepared granted]
        unfold gbOperationSendOomResponse uniproSend
        have empty := recorded.none_accepted responded
        apply disciplined_of_attempt named
          (append_ne_nil_of_right_ne_nil _ (cons_ne_nil _ _))
        · rcases Int.lt_or_le s.transport.head 0 with refused | taken
          · rw [accepted_append_refused _ _ refused, empty]
            exact Nat.zero_le 1
          · rw [accepted_append_taken _ _ taken, empty]
            exact Nat.le_refl 1
        · intro hdr inside
          rcases Int.lt_or_le s.transport.head 0 with refused | taken
          · rw [accepted_append_refused _ _ refused, empty] at inside
            cases inside
          · rw [accepted_append_taken _ _ taken, empty, nil_append,
              mem_singleton] at inside
            rw [inside, ← recorded.request_eq]
            exact ⟨rfl, BitVec.or_comm _ _⟩

/-- A handler that prepares its sends keeps the record of the request. -/
theorem Session.Recorded.run (handler : Handler) {s : Session} (recorded : s.Recorded request)
    (prepares : handler.SendsPrepared s.responseBuffer.isSome s.hasResponded) :
    (handler.run s).2.Recorded request := by
  induction handler generalizing s with
  | ret result => exact recorded
  | allocResponse size next ih =>
    have allocated := recorded.alloc size
    unfold Handler.run
    cases granted : s.mallocs.head with
    | true =>
      rw [allocResponse_granted size granted] at allocated ⊢
      exact ih true allocated prepares.1
    | false =>
      rw [allocResponse_denied size granted] at allocated ⊢
      exact ih false allocated prepares.2
  | sendResponse result next ih =>
    unfold Handler.run
    cases responded : s.hasResponded with
    | true =>
      rw [sendResponse_responded result responded]
      rw [responded] at prepares
      exact ih _ recorded (responded ▸ prepares)
    | false =>
      rw [responded] at prepares
      cases prepared : s.responseBuffer with
      | none =>
        rw [prepared] at prepares
        exact prepares.elim
      | some respHdr =>
        rw [prepared] at prepares
        have kept := recorded.sendBuffer responded (recorded.buffer respHdr prepared) false result
        rw [sendResponse_prepared result responded prepared]
        rcases Int.lt_or_le s.transport.head 0 with refused | taken
        · rw [sendBuffer_refused respHdr false result refused] at kept ⊢
          apply ih _ kept
          show (next _).SendsPrepared true s.hasResponded
          rw [responded]
          exact prepares.2 _ refused
        · rw [sendBuffer_taken respHdr false result taken] at kept ⊢
          exact ih _ kept prepares.1

theorem run_silent (handler : Handler) (s : Session) (silent : handler.NeverSends) :
    (handler.run s).2.sent = s.sent := by
  induction handler generalizing s with
  | ret result => rfl
  | allocResponse size next ih =>
    unfold Handler.run
    cases granted : s.mallocs.head with
    | true =>
      rw [allocResponse_granted size granted]
      exact ih true _ silent.1
    | false =>
      rw [allocResponse_denied size granted]
      exact ih false _ silent.2
  | sendResponse result next ih => exact silent.elim

end Disciplined

section Undisciplined

/-- Too many responses are accepted already, or will be by the next send, on a transport that accepts
everything. -/
structure Session.Overspent (s : Session) : Prop where
  accepts : ∀ n, 0 ≤ s.transport.get n
  spent : (if s.hasResponded then 2 else 1) ≤ (accepted s.sent).length

variable {s : Session}

theorem overspent_sendBuffer (accepts : ∀ n, 0 ≤ s.transport.get n) (spent : 1 ≤ (accepted s.sent).length)
    (respHdr : GbOperationHdr) (allocated : Bool) (result : BitVec 8) :
    (s.sendBuffer respHdr allocated result).2.Overspent ∧
      2 ≤ (accepted (s.sendBuffer respHdr allocated result).2.sent).length := by
  have more : 2 ≤ (accepted (s.sendBuffer respHdr allocated result).2.sent).length := by
    rw [sent_sendBuffer, accepted_append_taken _ _ (accepts 0), length_append]
    exact Nat.succ_le_succ spent
  refine ⟨?_, more⟩
  rw [sendBuffer_taken respHdr allocated result (accepts 0)] at more ⊢
  exact ⟨fun n => accepts (n + 1), more⟩

/-- A further response is accepted as well. -/
theorem Session.Overspent.send (overspent : s.Overspent) (result : BitVec 8) :
    (gbOperationSendResponse s result).2.Overspent ∧
      2 ≤ (accepted (gbOperationSendResponse s result).2.sent).length := by
  have spent := overspent.spent
  cases responded : s.hasResponded with
  | true =>
    rw [sendResponse_responded result responded]
    rw [responded] at spent
    exact ⟨overspent, spent⟩
  | false =>
    rw [responded] at spent
    cases prepared : s.responseBuffer with
    | some respHdr =>
      rw [sendResponse_prepared result responded prepared]
      exact overspent_sendBuffer overspent.accepts spent _ _ _
    | none =>
      cases granted : s.mallocs.head with
      | true =>
        rw [sendResponse_granted result responded prepared granted]
        apply overspent_sendBuffer
        · exact overspent.accepts
        · exact spent
      | false =>
        rw [sendResponse_denied result responded prepared granted]
        have more : 2 ≤ (accepted (gbOperationSendOomResponse
            { s with mallocs := s.mallocs.tail, responseBuffer := none }).2.sent).length := by
          change 2 ≤ (accepted (s.sent ++ [(_, s.transport.head)])).length
          rw [accepted_append_taken _ _ (overspent.accepts 0), length_append]
          exact Nat.succ_le_succ spent
        refine ⟨⟨fun n => overspent.accepts (n + 1), ?_⟩, more⟩
        change (if s.hasResponded then 2 else 1) ≤ _
        rw [responded]
        exact Nat.le_of_succ_le more

theorem Session.Overspent.run (handler : Handler) (overspent : s.Overspent) :
    (handler.run s).2.Overspent := by
  induction handler generalizing s with
  | ret result => exact overspent
  | allocResponse size next ih =>
    unfold Handler.run
    cases granted : s.mallocs.head with
    | true =>
      rw [allocResponse_granted size granted]
      exact ih true ⟨overspent.accepts, overspent.spent⟩
    | false =>
      rw [allocResponse_denied size granted]
      exact ih false ⟨overspent.accepts, overspent.spent⟩
  | sendResponse result next ih =>
    unfold Handler.run
    exact ih _ (overspent.send result).1

/-- The outcomes of the allocations and of the sends that lie ahead. -/
def Session.ahead (s : Session) (mallocs : Stream' Bool) (transport : Stream' Int) : Session :=
  { s with mallocs := mallocs, transport := transport }

/-- A handler that sends a first response without a buffer can have two responses accepted: the first
allocation of the send fails, its substitute is accepted, and so is the last response. -/
theorem exists_overspent (handler : Handler)
    (unprepared : ¬ handler.SendsPrepared s.responseBuffer.isSome s.hasResponded) :
    ∃ mallocs transport, (handler.run (s.ahead mallocs transport)).2.Overspent := by
  induction handler generalizing s with
  | ret result => exact absurd trivial unprepared
  | allocResponse size next ih =>
    by_cases first : (next true).SendsPrepared true s.hasResponded
    · have second : ¬ (next false).SendsPrepared false s.hasResponded :=
        fun second => unprepared ⟨first, second⟩
      obtain ⟨mallocs, transport, overspent⟩ := ih false (s := { s with responseBuffer := none }) second
      exact ⟨.cons false mallocs, transport, overspent⟩
    · obtain ⟨mallocs, transport, overspent⟩ := ih true (s := { s with
        responseBuffer := some
          { size := BitVec.ofNat 16 (size + hdrSize)
            id := s.request.id
            type := TYPE_RESPONSE_FLAG ||| s.request.type
            result := 0 } }) first
      exact ⟨.cons true mallocs, transport, overspent⟩
  | sendResponse result next ih =>
    cases responded : s.hasResponded with
    | true =>
      rw [responded] at unprepared
      obtain ⟨mallocs, transport, overspent⟩ := ih (-EINVAL) (s := s) (by rwa [responded])
      refine ⟨mallocs, transport, ?_⟩
      unfold Handler.run
      rwa [sendResponse_responded result (show (s.ahead mallocs transport).hasResponded = true from responded)]
    | false =>
      rw [responded] at unprepared
      cases prepared : s.responseBuffer with
      | none =>
        have substituted : (gbOperationSendResponse
            (s.ahead (.const false) (.const 0)) result).2.Overspent := by
          rw [sendResponse_denied (s := s.ahead (.const false) (.const 0)) result responded
            prepared rfl]
          refine ⟨fun _ => Int.le_refl 0, ?_⟩
          change (if s.hasResponded then 2 else 1) ≤ (accepted (s.sent ++ [(_, 0)])).length
          rw [responded, accepted_append_taken _ _ (Int.le_refl 0), length_append]
          exact Nat.le_add_left 1 _
        exact ⟨.const false, .const 0, substituted.run _⟩
      | some respHdr =>
        rw [prepared] at unprepared
        by_cases taken : (next 0).SendsPrepared true true
        · have refused : ∃ retval < 0, ¬ (next retval).SendsPrepared true false := by
            by_contra none
            push Not at none
            exact unprepared ⟨taken, none⟩
          obtain ⟨retval, negative, later⟩ := refused
          obtain ⟨mallocs, transport, overspent⟩ := ih retval (s := { s with
            responseBuffer := some { respHdr with result := result }
            sent := s.sent ++ [({ respHdr with result := result }, retval)] })
            (by rw [responded]; exact later)
          refine ⟨mallocs, .cons retval transport, ?_⟩
          unfold Handler.run
          rw [sendResponse_prepared (s := s.ahead mallocs (.cons retval transport)) result
            responded prepared, sendBuffer_refused (s := s.ahead mallocs (.cons retval transport))
            respHdr false result negative]
          exact overspent
        · obtain ⟨mallocs, transport, overspent⟩ := ih 0 (s := { s with
            responseBuffer := some { respHdr with result := result }
            hasResponded := true
            sent := s.sent ++ [({ respHdr with result := result }, 0)] }) taken
          refine ⟨mallocs, .cons 0 transport, ?_⟩
          unfold Handler.run
          rw [sendResponse_prepared (s := s.ahead mallocs (.cons 0 transport)) result
            responded prepared, sendBuffer_taken (s := s.ahead mallocs (.cons 0 transport))
            respHdr false result (Int.le_refl 0)]
          exact overspent

theorem sent_sendResponse (s : Session) (result : BitVec 8) :
    s.hasResponded = true ∧ gbOperationSendResponse s result = (-EINVAL, s) ∨
      (gbOperationSendResponse s result).2.request = s.request ∧
        ∃ hdr, (gbOperationSendResponse s result).2.sent = s.sent ++ [(hdr, s.transport.head)] := by
  cases responded : s.hasResponded with
  | true => exact .inl ⟨rfl, sendResponse_responded result responded⟩
  | false =>
    refine .inr ?_
    cases prepared : s.responseBuffer with
    | some respHdr =>
      rw [sendResponse_prepared result responded prepared, sent_sendBuffer, request_sendBuffer]
      exact ⟨rfl, _, rfl⟩
    | none =>
      cases granted : s.mallocs.head with
      | true =>
        rw [sendResponse_granted result responded prepared granted, sent_sendBuffer,
          request_sendBuffer]
        exact ⟨rfl, _, rfl⟩
      | false =>
        rw [sendResponse_denied result responded prepared granted]
        exact ⟨rfl, _, rfl⟩

theorem run_sendResponse (result : BitVec 8) (next : Int → Handler) (s : Session) :
    (Handler.sendResponse result next).run s =
      (next (gbOperationSendResponse s result).1).run (gbOperationSendResponse s result).2 := rfl

theorem run_extends (handler : Handler) (s : Session) :
    (handler.run s).2.request = s.request ∧ ∃ later, (handler.run s).2.sent = s.sent ++ later := by
  induction handler generalizing s with
  | ret result => exact ⟨rfl, [], (append_nil _).symm⟩
  | allocResponse size next ih =>
    unfold Handler.run
    cases granted : s.mallocs.head with
    | true =>
      rw [allocResponse_granted size granted]
      exact ih true _
    | false =>
      rw [allocResponse_denied size granted]
      exact ih false _
  | sendResponse result next ih =>
    obtain ⟨kept, later, extended⟩ :=
      ih (gbOperationSendResponse s result).1 (gbOperationSendResponse s result).2
    rw [run_sendResponse]
    rcases sent_sendResponse s result with ⟨_, same⟩ | ⟨request, hdr, more⟩
    · rw [same] at kept extended ⊢
      exact ⟨kept, later, extended⟩
    · rw [more, append_assoc] at extended
      exact ⟨kept.trans request, _, extended⟩

/-- A handler that sends does so for some outcomes of the allocations and of the transport. -/
theorem exists_accepted (handler : Handler) (unresponded : s.hasResponded = false) (sends : ¬ handler.NeverSends) :
    ∃ mallocs transport, accepted (handler.run (s.ahead mallocs transport)).2.sent ≠ [] := by
  induction handler generalizing s with
  | ret result => exact absurd trivial sends
  | allocResponse size next ih =>
    by_cases first : (next true).NeverSends
    · have second : ¬ (next false).NeverSends := fun second => sends ⟨first, second⟩
      obtain ⟨mallocs, transport, taken⟩ := ih false (s := { s with responseBuffer := none })
        unresponded second
      exact ⟨.cons false mallocs, transport, taken⟩
    · obtain ⟨mallocs, transport, taken⟩ := ih true (s := { s with
        responseBuffer := some
          { size := BitVec.ofNat 16 (size + hdrSize)
            id := s.request.id
            type := TYPE_RESPONSE_FLAG ||| s.request.type
            result := 0 } }) unresponded first
      exact ⟨.cons true mallocs, transport, taken⟩
  | sendResponse result next ih =>
    refine ⟨.const true, .const 0, ?_⟩
    rcases sent_sendResponse (s.ahead (.const true) (.const 0)) result with
      ⟨responded, _⟩ | ⟨_, hdr, more⟩
    · rw [show s.hasResponded = true from responded] at unresponded
      contradiction
    · obtain ⟨_, later, extended⟩ := run_extends
        (next (gbOperationSendResponse (s.ahead (.const true) (.const 0)) result).1)
        (gbOperationSendResponse (s.ahead (.const true) (.const 0)) result).2
      rw [accepted_ne_nil, run_sendResponse, extended, more]
      refine ⟨(hdr, 0), ?_, Int.le_refl 0⟩
      exact mem_append_left _ (mem_append_right _ (mem_singleton_self _))

end Undisciplined

theorem recorded_deliver (request : GbOperationHdr) (mallocs : Stream' Bool) (transport : Stream' Int) :
    (Session.deliver request mallocs transport).Recorded request := by
  refine ⟨rfl, ?_, ?_, rfl⟩
  · intro hdr same
    cases same
  · intro hdr inside
    cases inside

/-- Whatever allocations fail and sends are refused, a request is answered with discipline exactly
when its handler keeps it. -/
theorem gb_process_request_discipline (opHandlers : Option (List GbOperationHandler)) (request : GbOperationHdr) :
    (∀ mallocs transport,
      (gbProcessRequest opHandlers (.deliver request mallocs transport)).Disciplined request) ↔
      KeepsDiscipline opHandlers request := by
  unfold gbProcessRequest KeepsDiscipline
  cases found : findOperationHandler opHandlers request.type with
  | none =>
    have path (mallocs : Stream' Bool) (transport : Stream' Int) :
        findOperationHandler opHandlers (Session.deliver request mallocs transport).request.type =
          none := found
    simp only [path]
    constructor
    · intro holds unnamed
      have silent := (holds (.const true) (.const 0)).silent unnamed
      rcases sent_sendResponse (.deliver request (.const true) (.const 0)) GB_OP_INVALID with
        ⟨responded, _⟩ | ⟨_, hdr, more⟩
      · cases responded
      · rw [more] at silent
        cases silent
    · intro named mallocs transport
      exact (recorded_deliver request mallocs transport).answer GB_OP_INVALID named
  | some opHandler =>
    have path (mallocs : Stream' Bool) (transport : Stream' Int) :
        findOperationHandler opHandlers (Session.deliver request mallocs transport).request.type =
          some opHandler := found
    by_cases unnamed : request.id = 0
    · have silent (mallocs : Stream' Bool) (transport : Stream' Int) :
          ¬ (opHandler.handler.run (.deliver request mallocs transport)).2.request.id ≠ 0 :=
        fun named => named (by rw [(run_extends _ _).1]; exact unnamed)
      simp only [path, if_neg (silent _ _), if_pos unnamed]
      constructor
      · intro holds
        by_contra sends
        obtain ⟨mallocs, transport, taken⟩ := exists_accepted opHandler.handler
          (s := .deliver request (.const true) (.const 0)) rfl sends
        exact taken ((holds mallocs transport).silent unnamed)
      · intro silent mallocs transport
        have unsent := run_silent opHandler.handler (.deliver request mallocs transport) silent
        have none : accepted (opHandler.handler.run (.deliver request mallocs transport)).2.sent = [] := by
          rw [unsent]
          rfl
        refine ⟨by simp [none], by simp [none], fun named => absurd unnamed named,
          fun named => absurd unnamed named, fun _ => none⟩
    · have named (mallocs : Stream' Bool) (transport : Stream' Int) :
          (opHandler.handler.run (.deliver request mallocs transport)).2.request.id ≠ 0 := by
        rw [(run_extends _ _).1]
        exact unnamed
      simp only [path, if_pos (named _ _), if_neg unnamed]
      constructor
      · intro holds
        by_contra unprepared
        obtain ⟨mallocs, transport, overspent⟩ := exists_overspent opHandler.handler
          (s := .deliver request (.const true) (.const 0)) unprepared
        have twice := (overspent.send (opHandler.handler.run (.deliver request mallocs transport)).1).2
        have once := (holds mallocs transport).atMostOne
        exact absurd (Nat.le_trans twice once) (by decide)
      · intro prepares mallocs transport
        exact ((recorded_deliver request mallocs transport).run opHandler.handler prepares).answer _
          unnamed

/-- A handler that answers before it returns. -/
def eagerHandlers : Option (List GbOperationHandler) :=
  some [⟨1, .sendResponse 0 fun _ => .ret 0, false⟩]

/-- The eager handler has two responses accepted when memory runs out, one for its own send and one
for the send after it; a request with id zero and an unknown type has one accepted. -/
theorem gb_process_request_answers_twice :
    (∃ mallocs transport, ¬ (gbProcessRequest eagerHandlers
        (.deliver ⟨8, 7, 1, 0⟩ mallocs transport)).Disciplined ⟨8, 7, 1, 0⟩) ∧
      (accepted (gbProcessRequest eagerHandlers
        (.deliver ⟨8, 7, 1, 0⟩ (.const false) (.const 0))).sent).length = 2 ∧
      (accepted (gbProcessRequest eagerHandlers
        (.deliver ⟨8, 0, 2, 0⟩ (.const true) (.const 0))).sent).length = 1 := by
  refine ⟨⟨.const false, .const 0, fun disciplined => ?_⟩, by decide, by decide⟩
  exact absurd disciplined.atMostOne (by decide)

end Phabos.Greybus
