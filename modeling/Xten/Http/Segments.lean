import Xten.Http.Machine

/-!
# Requests in segments

What `RecvRequest` makes of a request, however the network cuts the bytes. The parser has had
the lines of the header that are in, and the buffer has the bytes after them, until the last
line is in: then the buffer has what came with it of the bytes behind the header.
-/

namespace Xten

/-- The receives up to the first that brings a stream to a goal. The room that a receive has
follows from the position that the stream has come to. -/
inductive Socket.Reaches (room : Nat → Nat) (goal : Nat) : Nat → Socket → Nat → Socket → Prop where
  | there {position : Nat} {socket : Socket} (reached : goal ≤ position) :
      Reaches room goal position socket position socket
  | more {position count last : Nat} {socket later : Socket} (before : position < goal)
      (delivers : socket.delivery (room position) = count) (comes : 0 < count)
      (rest : Reaches room goal (position + count) (socket.received count) last later) :
      Reaches room goal position socket last later

namespace Socket.Reaches

variable {room : Nat → Nat} {goal position last last' : Nat} {socket later later' : Socket}

/-- The network decides how far a stream comes. -/
theorem unique (first : socket.Reaches room goal position last later)
    (second : socket.Reaches room goal position last' later') : last = last' ∧ later = later' := by
  induction first with
  | there reached =>
      cases second with
      | there => exact ⟨rfl, rfl⟩
      | more before => exact absurd reached (Nat.not_le.mpr before)
  | more before delivers comes rest ih =>
      subst delivers
      cases second with
      | there reached => exact absurd reached (Nat.not_le.mpr before)
      | more _ delivers _ again =>
          subst delivers
          exact ih again

end Socket.Reaches

namespace http

open HttpRequestParser

section Header

variable {machine : HttpParser} {header read data ahead rest : List Byte}

/-- The room in the buffer once a stream has come to a position in a header. -/
def headerRoom (sizes : Sizes) (header : List Byte) (position : Nat) : Nat :=
  sizes.request - (position - lastLine (header.take position))

/-- Where a header is being read: the lines that the parser has had, the bytes in the buffer and
the bytes to come. -/
structure Reading (header read data ahead : List Byte) : Prop where
  split : header = read ++ data ++ ahead
  line : AtLine read
  noLineEnd : NoLineEnd data data.length
  left : ahead ≠ []

namespace Reading

theorem start (ends : EndsLine header) : Reading header [] [] header where
  split := rfl
  line := .inl rfl
  noLineEnd := fun index _ here => by
    have two := here.two_le
    rw [List.take_nil] at two
    cases two
  left := by
    rintro rfl
    exact absurd ends.two_le (by decide)

theorem room_eq {sizes : Sizes} (reading : Reading header read data ahead) :
    headerRoom sizes header (read.length + data.length) = sizes.request - data.length := by
  have taken : header.take (read.length + data.length) = read ++ data := by
    rw [reading.split, ← List.length_append, List.take_left]
  rw [headerRoom, taken, lastLine_eq reading.line reading.noLineEnd, Nat.add_sub_cancel_left]

theorem length (reading : Reading header read data ahead) :
    header.length = read.length + data.length + ahead.length := by
  rw [reading.split, List.length_append, List.length_append]

/-- More bytes come, but no line end with them. -/
theorem more {bytes : List Byte} (reading : Reading header read data (bytes ++ ahead))
    (none : NoLineEnd (data ++ bytes) (data ++ bytes).length) (some : ahead ≠ []) :
    Reading header read (data ++ bytes) ahead where
  split := by rw [reading.split, List.append_assoc, List.append_assoc, List.append_assoc]
  line := reading.line
  noLineEnd := none
  left := some

/-- More bytes come, and a line end with them. -/
theorem lines {bytes : List Byte} {last : Nat} (reading : Reading header read data (bytes ++ ahead))
    (found : getLastRN (data ++ bytes) = some last) (some : ahead ≠ []) :
    Reading header (read ++ (data ++ bytes).take last) ((data ++ bytes).drop last) ahead where
  split := by
    rw [reading.split, List.append_assoc read, List.append_assoc read, List.take_append_drop,
      List.append_assoc, List.append_assoc]
  line := .inr (getLastRN_some found).2.1.append
  noLineEnd := fun index within ends => by
    obtain ⟨inside, here, final⟩ := getLastRN_some found
    have two := ends.two_le
    rw [List.length_take] at two
    rw [List.length_drop] at within two
    refine final (last + index) (by omega) (by omega) ?_
    rw [List.take_add]
    exact ends.append
  left := some

end Reading

/-- The bytes of a header that are in the buffer and to come end with its line end. -/
theorem Reading.endsLine (reading : Reading header read data ahead) (ends : EndsLine header) :
    EndsLine (data ++ ahead) := by
  apply reading.line.endsLine_append
  · exact List.append_ne_nil_of_right_ne_nil _ reading.left
  · rw [← List.append_assoc, ← reading.split]
    exact ends

/-- The parser takes more lines of a header. -/
theorem Reading.execute_lines {last : Nat} {bytes : List Byte} (reads : machine.Reads header)
    (good : (parsed machine header).errno = 0)
    (reading : Reading header read data (bytes ++ ahead))
    (found : getLastRN (data ++ bytes) = some last) (left : ahead ≠ []) :
    (parsed machine read).execute (data ++ bytes) last =
        ((last, (data ++ bytes).drop last), parsed machine (read ++ (data ++ bytes).take last)) ∧
      (parsed machine (read ++ (data ++ bytes).take last)).hasError = false ∧
      (parsed machine (read ++ (data ++ bytes).take last)).isFinished = 0 := by
  have next := reading.lines found left
  obtain ⟨within, ends, -⟩ := getLastRN_some found
  have split := next.split
  rw [List.append_assoc] at split
  have some := List.append_ne_nil_of_right_ne_nil ((data ++ bytes).drop last) left
  obtain ⟨count, parser, sound, goesOn⟩ := reads.execute_lines reading.line split ends some
  rw [List.length_take_of_le within] at count
  have errno := reads.parsed_errno next.line split good
  refine ⟨execute_eq count parser, hasError_eq_false errno sound, ?_⟩
  rw [isFinished_eq sound]
  exact if_neg (goesOn ▸ Bool.false_ne_true)

/-- The parser takes the last lines of a header and leaves the bytes behind it. -/
theorem Reading.execute_last {last : Nat} {extra : List Byte} (reads : machine.Reads header)
    (good : (parsed machine header).errno = 0) (reading : Reading header read data ahead)
    (found : getLastRN (data ++ ahead ++ extra) = some last) :
    (parsed machine read).execute (data ++ ahead ++ extra) last =
        (((data ++ ahead).length, extra), parsed machine header) ∧
      (parsed machine header).hasError = false ∧ (parsed machine header).isFinished = 1 := by
  obtain ⟨within, ends, final⟩ := getLastRN_some found
  have whole := reading.endsLine reads.endsLine
  have beyond : (data ++ ahead).length ≤ last := by
    refine Nat.le_of_not_lt fun before => final _ ?_ before ?_
    · exact (List.prefix_append (data ++ ahead) extra).length_le
    · rwa [List.take_left]
  have cut : (data ++ ahead ++ extra).take last =
      data ++ ahead ++ extra.take (last - (data ++ ahead).length) := by
    rw [List.take_append, List.take_of_length_le beyond]
  have split := reading.split
  rw [List.append_assoc] at split
  rw [cut] at ends
  obtain ⟨count, parser⟩ := reads.execute_last reading.line split
    (List.append_ne_nil_of_right_ne_nil data reading.left) ends
  rw [← cut] at count parser
  obtain ⟨-, sound, finished⟩ := reads.whole
  have executed := execute_eq count parser
  rw [List.drop_left] at executed
  refine ⟨executed, hasError_eq_false good sound, ?_⟩
  rw [isFinished_eq sound]
  exact if_pos finished

variable {sizes : Sizes} {socket : Socket} {rounds : Nat}

/-- A receive on an open stream. -/
theorem SocketStream.readBuffer_eq {room count : Nat} (connected : socket.connected = true)
    (delivers : socket.delivery room = count) :
    SocketStream.readBuffer room socket =
      (((count : Int), socket.incoming.take count), socket.received count) := by
  simp only [SocketStream.readBuffer, Socket.recv, connected, if_true, delivers]

namespace HttpSession

variable {parser next : HttpRequestParser machine} {count stdLen nparse : Nat} {left : List Byte}

/-- A round that finds no line end in the buffer. -/
theorem recvHeader_waits (connected : socket.connected = true)
    (delivers : socket.delivery (sizes.request - data.length) = count) (comes : 0 < count)
    (none : getLastRN (data ++ socket.incoming.take count) = none) :
    recvHeader sizes (rounds + 1) data parser socket =
      recvHeader sizes rounds (data ++ socket.incoming.take count) parser
        (socket.received count) := by
  have positive : ¬ ((count : Int) ≤ 0) := by omega
  rw [recvHeader, SocketStream.readBuffer_eq connected delivers]
  simp only [if_neg positive, none]

/-- A round that parses lines, which leave some bytes in the buffer. -/
theorem recvHeader_parses (connected : socket.connected = true)
    (delivers : socket.delivery (sizes.request - data.length) = count) (comes : 0 < count)
    (found : getLastRN (data ++ socket.incoming.take count) = some stdLen)
    (executed : parser.execute (data ++ socket.incoming.take count) stdLen =
      ((nparse, left), next))
    (sound : next.hasError = false) (fewer : left.length < sizes.request) :
    recvHeader sizes (rounds + 1) data parser socket =
      if next.isFinished = 1 then (some (left, next), socket.received count)
      else recvHeader sizes rounds left next (socket.received count) := by
  have positive : ¬ ((count : Int) ≤ 0) := by omega
  rw [recvHeader, SocketStream.readBuffer_eq connected delivers]
  simp only [if_neg positive, found, executed, sound, Bool.false_eq_true, if_false,
    if_neg (Nat.not_le.mpr fewer)]

end HttpSession

open HttpSession

/-- The loop of `RecvRequest` takes the header and the bytes that come with its last ones. -/
theorem recvHeader_eq (reads : machine.Reads header) (good : (parsed machine header).errno = 0)
    (fits : header.length ≤ sizes.request) (reading : Reading header read data ahead)
    (connected : socket.connected = true) (incoming : socket.incoming = ahead ++ rest)
    (enough : socket.incoming.length < rounds) :
    ∃ extra later, socket.Reaches (headerRoom sizes header) header.length
        (read.length + data.length) (header.length + extra) later ∧
      extra ≤ rest.length ∧ later.connected = true ∧ later.incoming = rest.drop extra ∧
      recvHeader sizes rounds data (parsed machine read) socket =
        (some (rest.take extra, parsed machine header), later) := by
  induction rounds generalizing read data ahead socket with
  | zero => cases enough
  | succ rounds ih =>
      have total := reading.length
      have positive := List.length_pos_iff.mpr reading.left
      have more : 0 < socket.incoming.length := by
        rw [incoming, List.length_append]
        omega
      have comes := @Socket.delivery_pos socket (sizes.request - data.length) (by omega) more
      have inside := @Socket.delivery_le_incoming socket (sizes.request - data.length)
      have bounded := @Socket.delivery_le socket (sizes.request - data.length)
      have before : read.length + data.length < header.length := by omega
      generalize delivers : socket.delivery (sizes.request - data.length) = count at *
      have brings : socket.delivery (headerRoom sizes header (read.length + data.length)) = count :=
        (congrArg socket.delivery reading.room_eq).trans delivers
      have shorter : (socket.received count).incoming.length < rounds := by
        rw [Socket.received, List.length_drop]
        omega
      by_cases partly : count < ahead.length
      · -- the header is not all in
        have left : ahead.drop count ≠ [] := by
          rw [ne_eq, List.drop_eq_nil_iff]
          omega
        have bytes : socket.incoming.take count = ahead.take count := by
          rw [incoming, List.take_append_of_le_length partly.le]
        have later : (socket.received count).incoming = ahead.drop count ++ rest := by
          rw [Socket.received, incoming, List.drop_append_of_le_length partly.le]
        have length : (ahead.take count).length = count := List.length_take_of_le partly.le
        rw [← List.take_append_drop count ahead] at reading
        cases found : getLastRN (data ++ ahead.take count) with
        | none =>
            obtain ⟨extra, last, reaches, rest⟩ := @ih _ _ _ (socket.received count)
              (reading.more (getLastRN_none found) left) connected later shorter
            rw [List.length_append, length, ← Nat.add_assoc] at reaches
            rw [recvHeader_waits connected delivers comes (bytes ▸ found), bytes]
            exact ⟨extra, last, .more before brings comes reaches, rest⟩
        | some stdLen =>
            obtain ⟨executed, sound, unfinished⟩ := reading.execute_lines reads good found left
            obtain ⟨extra, last, reaches, rest⟩ := @ih _ _ _ (socket.received count)
              (reading.lines found left) connected later shorter
            have fewer : ((data ++ ahead.take count).drop stdLen).length < sizes.request := by
              rw [List.length_drop, List.length_append, length]
              omega
            have same : (read ++ (data ++ ahead.take count).take stdLen).length +
                ((data ++ ahead.take count).drop stdLen).length =
                read.length + data.length + count := by
              rw [List.length_append, Nat.add_assoc, ← List.length_append,
                List.take_append_drop, List.length_append, length, Nat.add_assoc]
            rw [same] at reaches
            rw [← bytes] at found
            have parses := congrArg (fun bytes => (parsed machine read).execute (data ++ bytes) stdLen)
              bytes
            rw [recvHeader_parses connected delivers comes found (parses.trans executed) sound fewer,
              if_neg (unfinished ▸ by decide)]
            exact ⟨extra, last, .more before brings comes reaches, rest⟩
      · -- its last line is in, with bytes of what follows
        have whole : ahead.length ≤ count := Nat.le_of_not_lt partly
        have bytes : data ++ socket.incoming.take count =
            data ++ ahead ++ rest.take (count - ahead.length) := by
          rw [incoming, List.take_append, List.take_of_length_le whole, List.append_assoc]
        have later : (socket.received count).incoming = rest.drop (count - ahead.length) := by
          rw [Socket.received, incoming, List.drop_append, List.drop_eq_nil_of_le whole,
            List.nil_append]
        rw [incoming, List.length_append] at inside
        have here : EndsLine ((data ++ ahead ++ rest.take (count - ahead.length)).take
            (data ++ ahead).length) := by
          rw [List.take_left]
          exact reading.endsLine reads.endsLine
        obtain ⟨stdLen, found, -⟩ := le_getLastRN
          (List.prefix_append (data ++ ahead) _).length_le here
        obtain ⟨executed, sound, finished⟩ := reading.execute_last reads good found
        have fewer : (rest.take (count - ahead.length)).length < sizes.request := by
          rw [List.length_take]
          omega
        have same : read.length + data.length + count =
            header.length + (count - ahead.length) := by omega
        have reaches : (socket.received count).Reaches (headerRoom sizes header) header.length
            (read.length + data.length + count) (header.length + (count - ahead.length))
            (socket.received count) := by
          rw [same]
          exact .there (Nat.le_add_right _ _)
        rw [recvHeader_parses connected delivers comes (bytes ▸ found) (bytes ▸ executed) sound
          fewer, if_pos finished]
        exact ⟨count - ahead.length, _, .more before brings comes reaches, by omega, connected,
          later, rfl⟩

end Header

section Body

variable {sizes : Sizes} {socket : Socket} {request : HttpRequest} {rest : List Byte}
  {bodySize extra : Nat}

/-- A request without the header that asks for an answer before its body is sent. -/
def continued (request : HttpRequest) : HttpRequest :=
  if foldCase (request.getHeader (ascii "Expect")) = foldCase (ascii "100-continue") then
    request.delHeader (ascii "Expect")
  else
    request

theorem sendContinue_eq (connected : socket.connected = true) :
    ∃ later, HttpSession.sendContinue sizes request socket = (some (continued request), later) ∧
      later.connected = true ∧ later.incoming = socket.incoming := by
  rw [HttpSession.sendContinue, continued]
  split
  · obtain ⟨later, wrote, -, still⟩ := Stream.writeFixBuffer_eq sizes.stream_pos connected
      (ascii "HTTP/1.1 100 Continue\r\n\r\n")
    have incoming := @Stream.writeFixBuffer_incoming sizes.stream socket
      (ascii "HTTP/1.1 100 Continue\r\n\r\n")
    rw [wrote] at incoming
    have sent : ¬ ((ascii "HTTP/1.1 100 Continue\r\n\r\n").length : Int) ≤ 0 := by decide
    exact ⟨later, by simp only [wrote, if_neg sent], still, incoming⟩
  · exact ⟨socket, rfl, connected, rfl⟩

/-- A request with the bytes behind its header that are its body. -/
def withBody (bodySize : Nat) (rest : List Byte) (request : HttpRequest) : HttpRequest :=
  if 0 < bodySize then { request with body := rest.take bodySize } else request

/-- The body is the bytes behind the header, wherever the last receive of the header ended. -/
theorem recvBody_eq (connected : socket.connected = true)
    (incoming : socket.incoming = rest.drop extra) (there : bodySize ≤ rest.length) :
    ∃ later, HttpSession.recvBody sizes bodySize (rest.take extra) request socket =
        (some (withBody bodySize rest request), later) ∧
      later.connected = true ∧ later.incoming = rest.drop (max bodySize extra) := by
  rw [HttpSession.recvBody, withBody]
  by_cases some : 0 < bodySize
  · rw [if_pos some, if_pos some]
    by_cases all : bodySize ≤ extra
    · -- the buffer has the body
      have copied : (if bodySize < (rest.take extra).length then (rest.take extra).take bodySize
          else rest.take extra) = rest.take bodySize := by
        split
        · rw [List.take_take, Nat.min_eq_left all]
        · rename_i short
          rw [List.length_take] at short
          rw [List.take_eq_take_iff]
          omega
      have none : ¬ 0 < bodySize - (rest.take bodySize).length := by
        rw [List.length_take_of_le there]
        omega
      simp only [copied, if_neg none]
      exact ⟨socket, rfl, connected, by rw [incoming, Nat.max_eq_right all]⟩
    · have fewer : extra ≤ bodySize := (Nat.lt_of_not_le all).le
      have length : (rest.take extra).length = extra := List.length_take_of_le (fewer.trans there)
      have copied : ¬ bodySize < (rest.take extra).length := by
        rw [length]
        exact Nat.not_lt.mpr fewer
      have left : 0 < bodySize - (rest.take extra).length := by
        rw [length]
        omega
      have enough : bodySize - (rest.take extra).length ≤ socket.incoming.length := by
        rw [length, incoming, List.length_drop]
        omega
      obtain ⟨later, takes⟩ := Socket.takes_buffer sizes.stream_pos 0 enough
      have received := Stream.readFixBuffer_eq takes connected
      have positive : ¬ ((bodySize - (rest.take extra).length : Nat) : Int) ≤ 0 := by omega
      have body : rest.take extra ++ socket.incoming.take (bodySize - (rest.take extra).length) =
          rest.take bodySize := by
        rw [length, incoming, ← List.take_add, Nat.add_sub_cancel' fewer]
      refine ⟨later, ?_, takes.kept.1.trans connected, ?_⟩
      · simp only [if_neg copied, if_pos left, received, if_neg positive, body]
      · rw [takes.incoming.2, incoming, List.drop_drop, length, Nat.add_sub_cancel' fewer,
          Nat.max_eq_left fewer]
  · rw [if_neg some, if_neg some]
    have zero : bodySize ≤ extra := (Nat.le_of_not_lt some).trans (Nat.zero_le _)
    exact ⟨socket, rfl, connected, by rw [incoming, Nat.max_eq_right zero]⟩

/-- A body that ends early is no body. -/
theorem recvBody_short (incoming : socket.incoming = rest.drop extra)
    (short : rest.length < bodySize) :
    (HttpSession.recvBody sizes bodySize (rest.take extra) request socket).1 = none := by
  have within : (rest.take extra).length ≤ rest.length := by
    rw [List.length_take]
    exact Nat.min_le_right _ _
  have left : 0 < bodySize - (rest.take extra).length := by omega
  have fails := @Stream.readFixBuffer_fails sizes.stream _ socket left (.inr (by
    rw [incoming, List.length_drop, List.length_take]
    omega))
  have copied : ¬ bodySize < (rest.take extra).length := by omega
  simp only [HttpSession.recvBody, if_pos (Nat.zero_lt_of_lt short), if_neg copied, if_pos left,
    if_pos fails]

end Body

section Requests

open HttpSession

variable {machine : HttpParser} {sizes : Sizes} {socket : Socket} {header rest : List Byte}

/-- The length of the body that a header announces, as `RecvRequest` takes it. -/
def announced (machine : HttpParser) (header : List Byte) : Nat :=
  ((parsed machine header).getBodyLength.setWidth 32).toNat

/-- The request that a header and the bytes behind it make. -/
def assembled (machine : HttpParser) (sizes : Sizes) (header rest : List Byte) :
    Option HttpRequest :=
  if sizes.requestBody < announced machine header ∨ rest.length < announced machine header then
    none
  else
    some (withBody (announced machine header) rest
      (continued (parsed machine header).request)).init.initParam

/-- What `RecvRequest` makes of a header and the bytes behind it, of which some are in its buffer. -/
theorem recvRequest_of_header {parser : HttpRequestParser machine} {extra : Nat} {later : Socket}
    (received : recvHeader sizes (socket.incoming.length + 1) [] {} socket =
      (some (rest.take extra, parser), later))
    (connected : later.connected = true) (left : later.incoming = rest.drop extra) :
    let bodySize := (parser.getBodyLength.setWidth 32).toNat
    let refused := sizes.requestBody < bodySize ∨ rest.length < bodySize
    (refused → (recvRequest machine sizes socket).1 = none) ∧
      (¬ refused → (recvRequest machine sizes socket).1 =
          some (withBody bodySize rest (continued parser.request)).init.initParam ∧
        (recvRequest machine sizes socket).2.connected = true ∧
        (recvRequest machine sizes socket).2.incoming = rest.drop (max bodySize extra)) := by
  rw [recvRequest, received]
  dsimp only
  generalize (parser.getBodyLength.setWidth 32).toNat = bodySize
  by_cases large : sizes.requestBody < bodySize
  · simp only [if_pos large]
    exact ⟨fun _ => trivial, fun accepted => absurd (.inl large) accepted⟩
  simp only [if_neg large]
  obtain ⟨next, sent, still, same⟩ := @sendContinue_eq sizes _ parser.request connected
  rw [left] at same
  simp only [sent]
  by_cases short : rest.length < bodySize
  · have none := @recvBody_short sizes next (continued parser.request) _ _ _ same short
    refine ⟨fun _ => ?_, fun accepted => absurd (.inr short) accepted⟩
    generalize recvBody sizes bodySize (rest.take extra) (continued parser.request) next = result
      at none ⊢
    obtain ⟨body, last⟩ := result
    subst none
    rfl
  · obtain ⟨last, body, still, remaining⟩ := @recvBody_eq sizes next
      (continued parser.request) _ _ _ still same (Nat.le_of_not_lt short)
    simp only [body]
    exact ⟨fun fails => absurd fails (not_or.mpr ⟨large, short⟩), fun _ => ⟨trivial, still, remaining⟩⟩

/-- `RecvRequest` returns the request at the start of the stream, and leaves the bytes that no
receive brought together with its header. -/
theorem recvRequest_eq (reads : machine.Reads header) (good : (parsed machine header).errno = 0)
    (fits : header.length ≤ sizes.request) (connected : socket.connected = true)
    (incoming : socket.incoming = header ++ rest) :
    (recvRequest machine sizes socket).1 = assembled machine sizes header rest ∧
    ∃ extra later, socket.Reaches (headerRoom sizes header) header.length 0
        (header.length + extra) later ∧
      extra ≤ rest.length ∧
      (assembled machine sizes header rest ≠ none →
        (recvRequest machine sizes socket).2.connected = true ∧
        (recvRequest machine sizes socket).2.incoming =
          rest.drop (max (announced machine header) extra)) := by
  obtain ⟨extra, later, reaches, within, still, left, taken⟩ := recvHeader_eq reads good fits
    (Reading.start reads.endsLine) connected incoming (Nat.lt_succ_self _)
  have start : parsed machine [] = {} := rfl
  rw [start] at taken
  obtain ⟨refuses, accepts⟩ := recvRequest_of_header taken still left
  change (_ ∨ rest.length < announced machine header → _) at refuses
  suffices whole : (recvRequest machine sizes socket).1 = assembled machine sizes header rest ∧
      (assembled machine sizes header rest ≠ none →
        (recvRequest machine sizes socket).2.connected = true ∧
        (recvRequest machine sizes socket).2.incoming =
          rest.drop (max (announced machine header) extra)) from
    ⟨whole.1, extra, later, reaches, within, whole.2⟩
  rw [assembled]
  split
  case isTrue refused => exact ⟨refuses refused, fun some => absurd rfl some⟩
  case isFalse accepted => exact ⟨(accepts accepted).1, fun _ => (accepts accepted).2⟩

variable {body : List Byte}

theorem WellFormed.announced_eq (wellFormed : WellFormed machine header body)
    (small : body.length ≤ sizes.requestBody) : announced machine header = body.length := by
  rw [announced, BitVec.toNat_setWidth, wellFormed.length]
  exact Nat.mod_eq_of_lt (small.trans_lt sizes.requestBody_lt)

/-- The request that a client means by a header and a body. -/
def meant (machine : HttpParser) (header body : List Byte) : HttpRequest :=
  (withBody body.length body (continued (parsed machine header).request)).init.initParam

theorem WellFormed.assembled_eq (wellFormed : WellFormed machine header body)
    (small : body.length ≤ sizes.requestBody) :
    assembled machine sizes header (body ++ rest) = some (meant machine header body) := by
  rw [assembled, wellFormed.announced_eq small, if_neg, meant, withBody, withBody, List.take_left,
    List.take_length]
  rw [List.length_append]
  omega

/-- What is in the request that a client means. -/
theorem meant_fields :
    (meant machine header body).method = (parsed machine header).request.method ∧
      (meant machine header body).path = (parsed machine header).request.path ∧
      (meant machine header body).query = (parsed machine header).request.query ∧
      (meant machine header body).headers =
        (continued (parsed machine header).request).headers ∧
      (meant machine header body).body = body := by
  have same : ∃ changed, continued (parsed machine header).request =
      { (parsed machine header).request with headers := changed } := by
    rw [continued]
    split
    · exact ⟨_, rfl⟩
    · exact ⟨_, rfl⟩
  have whole : withBody body.length body (continued (parsed machine header).request) =
      { continued (parsed machine header).request with body := body } := by
    rw [withBody]
    split
    · rw [List.take_length]
    · rename_i none
      obtain rfl := List.length_eq_zero_iff.mp (Nat.eq_zero_of_not_pos none)
      obtain ⟨changed, same⟩ := same
      rw [same, ← parsed_body machine header]
  rw [meant]
  obtain ⟨close, init⟩ :=
    (withBody body.length body (continued (parsed machine header).request)).init_eq
  obtain ⟨params, cookies, flag, all⟩ :=
    (withBody body.length body (continued (parsed machine header).request)).init.initParam_eq
  obtain ⟨changed, same⟩ := same
  rw [all, init, whole, same]
  exact ⟨rfl, rfl, rfl, rfl, rfl⟩

/-- `RecvRequest` returns the same request however its bytes are split into receives, the one
that is meant unless its body is too large. -/
theorem recvRequest_segments (wellFormed : WellFormed machine header body)
    (fits : header.length < sizes.request) {first second : Socket}
    (connected : first.connected = true ∧ second.connected = true)
    (incoming : first.incoming = header ++ body ∧ second.incoming = header ++ body) :
    (recvRequest machine sizes first).1 = (recvRequest machine sizes second).1 ∧
      (body.length ≤ sizes.requestBody → ∃ request,
        (recvRequest machine sizes first).1 = some request ∧
        request.method = (parsed machine header).request.method ∧
        request.path = (parsed machine header).request.path ∧
        request.query = (parsed machine header).request.query ∧
        request.headers = (continued (parsed machine header).request).headers ∧
        request.body = body) := by
  have one := (recvRequest_eq wellFormed.reads wellFormed.errno fits.le connected.1 incoming.1).1
  have two := (recvRequest_eq wellFormed.reads wellFormed.errno fits.le connected.2 incoming.2).1
  refine ⟨one.trans two.symm, fun small => ⟨meant machine header body, ?_, meant_fields⟩⟩
  have assembled := @WellFormed.assembled_eq _ sizes _ [] _ wellFormed small
  rw [List.append_nil] at assembled
  rw [one, assembled]

end Requests

section Example

open HttpSession

theorem defaultStream_pos : 0 < 1024 * 16 := by decide

def defaultSizes : Sizes where
  request := 4 * 1024
  requestBody := 64 * 1024 * 1024
  stream := 1024 * 16
  request_lt := by decide
  requestBody_lt := by decide
  stream_pos := defaultStream_pos

/-- A socket to which all bytes have come, of which each receive takes at most some. -/
def arriving (incoming : List Byte) (most : Nat) : Socket :=
  ⟨true, incoming, [], fun _ => most⟩

def postHeader : List Byte :=
  ascii "POST /a?b=c HTTP/1.1\r\nContent-Length: 4\r\n\r\n"

theorem wellFormed_post : WellFormed lineMachine.toHttpParser postHeader (ascii "x\r\ny") where
  reads := lineMachine_reads (by decide) (by decide) (by decide)
  errno := by decide
  length := by decide

/-- Byte by byte, and all at once. -/
theorem recvRequest_segments_post :
    (recvRequest lineMachine.toHttpParser defaultSizes
        (arriving (postHeader ++ ascii "x\r\ny") 1)).1 =
      (recvRequest lineMachine.toHttpParser defaultSizes
        (arriving (postHeader ++ ascii "x\r\ny") 4096)).1 :=
  (recvRequest_segments wellFormed_post (by decide) ⟨rfl, rfl⟩ ⟨rfl, rfl⟩).1

end Example

end http

end Xten
