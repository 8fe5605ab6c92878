import Xten.Http.Buffers

/-!
# The length of a body

`GetBodyLength` returns a `size_t`, of which `RecvRequest` keeps a `uint32_t` before it compares
it with the largest body that it takes.
-/

namespace Xten.http

open HttpSession

/-- The number that a text stands for, which may have a sign. -/
def numericValue (text : List Byte) : Option Int :=
  let (minus, digits) := signed text
  if digits ≠ [] ∧ digits.all isdigit then
    let size : Nat := digits.foldl (fun value digit => value * 10 + (digit.toNat - 48)) 0
    some (if minus then -size else size)
  else
    none

/-- The length that the header of a request announces. -/
def HttpRequest.contentLength (request : HttpRequest) : Option Int :=
  (request.headers.find (ascii "content-length")).bind numericValue

/-- The length that is left in `body_size`. -/
def taken (length : Int) : Nat :=
  if -2 ^ 64 < length ∧ length < 2 ^ 64 then (length % 2 ^ 32).toNat else 0

/-- A request with the body that its header announces out of the bytes behind that, or none. -/
structure Obeys (machine : HttpParser) (sizes : Sizes) (socket : Socket)
    (following : List Byte) (length : Int) : Prop where
  body : ∀ request, (recvRequest machine sizes socket).1 = some request →
    request.body.length = length ∧ request.body <+: following ∧ following <:+ socket.incoming
  limit : sizes.requestBody < length → (recvRequest machine sizes socket).1 = none
  inside : ∀ buffer, buffer.length = sizes.request →
    recvRequestIn machine sizes buffer socket = some (recvRequest machine sizes socket)

/-- The length fits 32 bits, or what is left of it is refused, or does not come. -/
def Fits (sizes : Sizes) (following : List Byte) (length : Int) : Prop :=
  0 ≤ length ∧ length < 2 ^ 32 ∨ sizes.requestBody < taken length ∨
    following.length < taken length

section Numbers

variable {text digits : List Byte} {length : Int}

theorem digitsValue_eq (digital : digits ≠ [] ∧ digits.all isdigit) :
    digitsValue digits =
      let value := digits.foldl (fun value digit => value * 10 + (digit.toNat - 48)) 0
      if value < 2 ^ 64 then some (BitVec.ofNat 64 value) else none :=
  if_pos digital

/-- `lexical_cast` negates the unsigned number behind a minus sign. -/
theorem lexicalCast_signed (some : text ≠ []) : lexicalCast text =
    if (signed text).1 then (digitsValue (signed text).2).map fun value => -value
    else digitsValue (signed text).2 := by
  obtain ⟨sign, rest, rfl⟩ := List.exists_cons_of_ne_nil some
  rw [lexicalCast, signed]
  split
  · rfl
  · split <;> rfl

/-- `lexical_cast` takes a number to 64 bits, if it is one of them without its sign. -/
theorem lexicalCast_eq (numeric : numericValue text = some length) :
    lexicalCast text =
      if -2 ^ 64 < length ∧ length < 2 ^ 64 then some (BitVec.ofInt 64 length) else none := by
  simp only [numericValue] at numeric
  split at numeric
  case isFalse => cases numeric
  case isTrue digital =>
    have some : text ≠ [] := by
      rintro rfl
      exact digital.1 rfl
    rw [lexicalCast_signed some, digitsValue_eq digital]
    dsimp only at numeric ⊢
    generalize List.foldl _ 0 _ = size at *
    obtain rfl := Option.some_inj.mp numeric
    cases (signed text).1
    · have small : -2 ^ 64 < (size : Int) ∧ (size : Int) < 2 ^ 64 ↔ size < 2 ^ 64 := by omega
      simp only [Bool.false_eq_true, if_false, small]
      rfl
    · have small : -2 ^ 64 < -(size : Int) ∧ -(size : Int) < 2 ^ 64 ↔ size < 2 ^ 64 := by omega
      simp only [if_true, small, apply_ite (Option.map _), Option.map_some, Option.map_none,
        BitVec.ofInt_neg]
      rfl

end Numbers

section Headers

variable {machine : HttpParser} {sizes : Sizes} {socket later : Socket} {data left : List Byte}
  {parser parsed : HttpRequestParser machine} {rounds : Nat}

theorem execute_body (stdLen : Nat) :
    (parser.execute data stdLen).2.request.body = parser.request.body :=
  parser.foldl_body

/-- What the loop for the header leaves is the end of what has come and is to come. -/
theorem recvHeader_leaves
    (received : recvHeader sizes rounds data parser socket = (some (left, parsed), later)) :
    later.connected = true ∧ parsed.request.body = parser.request.body ∧
      left ++ later.incoming <:+ data ++ socket.incoming := by
  induction rounds generalizing data parser socket with
  | zero => cases received
  | succ rounds ih =>
      rw [recvHeader] at received
      by_cases connected : socket.connected = true
      · rw [SocketStream.readBuffer_eq connected rfl] at received
        generalize socket.delivery (sizes.request - data.length) = count at received
        have whole : data ++ socket.incoming.take count ++ (socket.received count).incoming =
            data ++ socket.incoming := by
          rw [Socket.received, List.append_assoc, List.take_append_drop]
        have still : (socket.received count).connected = true := connected
        dsimp only at received
        split at received
        · cases received
        · split at received
          · obtain ⟨open_, body, suffix⟩ := ih received
            exact ⟨open_, body, whole ▸ suffix⟩
          case h_2 stdLen _ =>
            have same := @execute_body _ (data ++ socket.incoming.take count) parser stdLen
            have behind : (parser.execute (data ++ socket.incoming.take count) stdLen).1.2 ++
                (socket.received count).incoming <:+ data ++ socket.incoming := by
              rw [← whole]
              exact List.suffix_append_self_iff.mpr (List.drop_suffix _ _)
            generalize parser.execute (data ++ socket.incoming.take count) stdLen = result at *
            split at received
            · cases received
            · split at received
              · cases received
              · split at received
                · cases received
                  exact ⟨still, same, behind⟩
                · obtain ⟨open_, body, suffix⟩ := ih received
                  exact ⟨open_, body.trans same, suffix.trans behind⟩
      · rw [SocketStream.readBuffer, if_neg connected] at received
        cases received

/-- The length that is left of what a header announces. -/
theorem taken_eq {request : HttpRequest} {length : Int}
    (announces : request.contentLength = some length) :
    ((request.getHeaderAs (ascii "content-length") 0).setWidth 32).toNat = taken length := by
  obtain ⟨text, found, numeric⟩ := Option.bind_eq_some_iff.mp announces
  rw [HttpRequest.getHeaderAs, found, Option.bind_some, lexicalCast_eq numeric, taken]
  split
  · rw [Option.getD_some, BitVec.toNat_setWidth, BitVec.toNat_ofInt]
    omega
  · rfl

theorem taken_of_fits {length : Int} (fits : 0 ≤ length ∧ length < 2 ^ 32) :
    (taken length : Int) = length := by
  rw [taken, if_pos (by omega)]
  omega

theorem taken_lt (length : Int) : taken length < 2 ^ 32 := by
  rw [taken]
  split <;> omega

/-- The body of a request is what `RecvRequest` has put into it. -/
theorem body_eq {request : HttpRequest} (empty : request.body = []) (bodySize : Nat)
    (following : List Byte) :
    (withBody bodySize following (continued request)).init.initParam.body =
      following.take bodySize := by
  obtain ⟨close, init⟩ := (withBody bodySize following (continued request)).init_eq
  obtain ⟨params, cookies, flag, all⟩ :=
    (withBody bodySize following (continued request)).init.initParam_eq
  have same : (continued request).body = [] := by
    rw [continued]
    split <;> exact empty
  rw [all, init]
  change (withBody bodySize following (continued request)).body = _
  rw [withBody]
  split
  case isTrue => rfl
  case isFalse none => rw [same, Nat.eq_zero_of_not_pos none, List.take_zero]

/-- `RecvRequest` obeys the length that a header announces exactly if it fits. -/
theorem obeys_iff {length : Int} (bounded : machine.Bounded)
    (received : recvHeader sizes (socket.incoming.length + 1) [] {} socket =
      (some (data, parser), later))
    (announces : parser.request.contentLength = some length) :
    Obeys machine sizes socket (data ++ later.incoming) length ↔
      Fits sizes (data ++ later.incoming) length := by
  obtain ⟨connected, empty, suffix⟩ := recvHeader_leaves received
  rw [List.nil_append] at suffix
  have inside (buffer : List Byte) (size : buffer.length = sizes.request) :
      recvRequestIn machine sizes buffer socket = some (recvRequest machine sizes socket) :=
    recvRequestIn_eq sizes bounded size
  have front : data = (data ++ later.incoming).take data.length := List.take_left.symm
  have behind : later.incoming = (data ++ later.incoming).drop data.length := List.drop_left.symm
  obtain ⟨refuses, accepts⟩ :=
    recvRequest_of_header (received.trans (by rw [← front])) connected behind
  rw [show (parser.getBodyLength.setWidth 32).toNat = taken length from taken_eq announces]
    at refuses accepts
  generalize data ++ later.incoming = following at *
  have small := sizes.requestBody_lt
  constructor
  · intro obeys
    by_contra unfit
    obtain ⟨large, accepted⟩ := not_or.mp unfit
    obtain ⟨some, -, -⟩ := accepts accepted
    have body := (obeys.body _ some).1
    rw [body_eq empty, List.length_take_of_le (by omega)] at body
    have lt := taken_lt length
    omega
  · intro fits
    by_cases refused : sizes.requestBody < taken length ∨ following.length < taken length
    · have none := refuses refused
      refine ⟨fun request returned => ?_, fun _ => none, inside⟩
      rw [none] at returned
      cases returned
    · have fit := taken_of_fits (fits.resolve_right refused)
      obtain ⟨some, -, -⟩ := accepts refused
      refine ⟨fun request returned => ?_, fun large => absurd (Or.inl ?_) refused, inside⟩
      · obtain rfl := Option.some_inj.mp (some.symm.trans returned)
        rw [body_eq empty, List.length_take_of_le (by omega)]
        exact ⟨fit, List.take_prefix _ _, suffix⟩
      · omega

end Headers

section Example

theorem ByteMachine.bounded (machine : ByteMachine) : machine.toHttpParser.Bounded := by
  intro bytes state
  rw [execute_eq]
  induction bytes generalizing state with
  | nil => exact Nat.le_refl 0
  | cons byte rest ih =>
      rw [exec]
      split
      · exact Nat.zero_le _
      · exact Nat.succ_le_succ (ih _)

theorem obeys_iff_post : Obeys lineMachine.toHttpParser defaultSizes
    (arriving (postHeader ++ ascii "x\r\ny") 4096) (ascii "x\r\ny") 4 := by
  obtain ⟨extra, later, -, -, -, left, received⟩ :=
    @recvHeader_eq _ _ _ _ _ (ascii "x\r\ny") defaultSizes
      (arriving (postHeader ++ ascii "x\r\ny") 4096) _ wellFormed_post.reads wellFormed_post.errno
      (by decide) (Reading.start wellFormed_post.reads.endsLine) rfl rfl (Nat.lt_succ_self _)
  have obeys := (@obeys_iff lineMachine.toHttpParser _ _ later _
    (.parsed _ postHeader) 4 (ByteMachine.bounded _) received (by decide)).mpr
      (.inl (by decide))
  rwa [left, List.take_append_drop] at obeys

/-- A header that announces 2^32 bytes. -/
def endlessHeader : List Byte :=
  ascii "POST / HTTP/1.1\r\nContent-Length: 4294967296\r\n\r\n"

theorem not_obeys : ¬ ∀ (machine : HttpParser) (sizes : Sizes) (socket later : Socket)
    (data : List Byte) (parser : HttpRequestParser machine) (length : Int), machine.Bounded →
    recvHeader sizes (socket.incoming.length + 1) [] {} socket = (some (data, parser), later) →
    parser.request.contentLength = some length →
    Obeys machine sizes socket (data ++ later.incoming) length := by
  intro claimed
  have reads : lineMachine.toHttpParser.Reads endlessHeader :=
    lineMachine_reads (by decide) (by decide) (by decide)
  obtain ⟨extra, later, -, -, -, left, received⟩ :=
    @recvHeader_eq _ _ _ _ _ [] defaultSizes (arriving endlessHeader 4096) _ reads
      (by decide) (by decide) (Reading.start reads.endsLine) rfl (List.append_nil _).symm
      (Nat.lt_succ_self _)
  have obeys := claimed lineMachine.toHttpParser _ _ later _ (.parsed _ endlessHeader)
    4294967296 (ByteMachine.bounded _) received (by decide)
  have none := obeys.limit (by decide)
  have some : (recvRequest lineMachine.toHttpParser defaultSizes
      (arriving endlessHeader 4096)).1.isSome = true := by decide
  rw [none] at some
  cases some

end Example

end Xten.http
