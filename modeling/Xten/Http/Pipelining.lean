import Xten.Http.Segments

/-!
# Requests behind one another

What the calls of a session return where the peer sends requests without waiting. The bytes
behind a request that a receive brings together with its header are in the buffer of the call,
and are lost with it.
-/

namespace Xten.http

open HttpRequestParser

/-- A request as a client sends it. -/
structure Message where
  header : List Byte
  body : List Byte
deriving DecidableEq, Repr

def Message.bytes (message : Message) : List Byte :=
  message.header ++ message.body

/-- A call of a session by its server. -/
inductive Call
  | recvRequest
  | sendResponse (response : List Byte)
deriving DecidableEq, Repr

/-- The socket of a session, and what it has returned. -/
structure Served where
  socket : Socket
  returned : List (Option HttpRequest) := []

section Calls

variable (machine : HttpParser) (sizes : Sizes)

def Served.perform (served : Served) : Call → Served
  | .recvRequest =>
      let (request, socket) := HttpSession.recvRequest machine sizes served.socket
      ⟨socket, served.returned ++ [request]⟩
  | .sendResponse response =>
      { served with socket := (HttpSession.sendResponse sizes response served.socket).2 }

/-- A session after some calls. -/
def Served.after (served : Served) (calls : List Call) : Served :=
  calls.foldl (Served.perform machine sizes) served

/-- A message is well formed, and not too large. -/
structure Message.Acceptable (message : Message) : Prop where
  wellFormed : WellFormed machine message.header message.body
  fits : message.header.length ≤ sizes.request
  small : message.body.length ≤ sizes.requestBody

/-- As many of the requests are returned, in order, and the bytes of the others are there. -/
structure InOrder (messages : List Message) (count : Nat) (served : Served) : Prop where
  connected : served.socket.connected = true
  returned : served.returned =
    (messages.take count).map fun message => some (meant machine message.header message.body)
  incoming : served.socket.incoming = (messages.drop count).flatMap Message.bytes

end Calls

/-- The receive that brings the end of a header brings nothing behind the body. -/
def Apart (sizes : Sizes) (message : Message) (socket : Socket) : Prop :=
  ∃ last later, socket.Reaches (headerRoom sizes message.header) message.header.length 0 last
    later ∧ last ≤ message.bytes.length

section Run

variable {machine : HttpParser} {sizes : Sizes} {message : Message} {messages : List Message}
  {socket : Socket} {served : Served} {rest : List Byte} {count : Nat} {calls : List Call}

/-- One request, and the bytes behind it. -/
theorem recvRequest_next (acceptable : message.Acceptable machine sizes)
    (connected : socket.connected = true) (incoming : socket.incoming = message.bytes ++ rest) :
    (HttpSession.recvRequest machine sizes socket).1 =
        some (meant machine message.header message.body) ∧
      (HttpSession.recvRequest machine sizes socket).2.connected = true ∧
      ((HttpSession.recvRequest machine sizes socket).2.incoming = rest ↔
        Apart sizes message socket) := by
  obtain ⟨wellFormed, fits, small⟩ := acceptable
  rw [Message.bytes, List.append_assoc] at incoming
  have same := @WellFormed.assembled_eq _ sizes _ rest _ wellFormed small
  obtain ⟨returned, extra, later, reaches, within, remaining⟩ :=
    recvRequest_eq wellFormed.reads wellFormed.errno fits connected incoming
  rw [same] at returned remaining
  obtain ⟨still, left⟩ := remaining (Option.some_ne_none _)
  refine ⟨returned, still, ?_⟩
  rw [left, wellFormed.announced_eq small]
  rw [List.length_append] at within
  have length : message.bytes.length = message.header.length + message.body.length :=
    List.length_append
  constructor
  · intro kept
    refine ⟨_, later, reaches, ?_⟩
    have lengths := congrArg List.length kept
    rw [List.length_drop, List.length_append] at lengths
    omega
  · rintro ⟨last, later', again, bound⟩
    obtain ⟨rfl, -⟩ := reaches.unique again
    have fewer : extra ≤ message.body.length := by omega
    rw [Nat.max_eq_left fewer, List.drop_left]

/-- A client that waits for each response never has its bytes lost. -/
theorem apart_alone (acceptable : message.Acceptable machine sizes)
    (connected : socket.connected = true) (incoming : socket.incoming = message.bytes) :
    Apart sizes message socket := by
  obtain ⟨extra, later, reaches, within, -⟩ := (recvRequest_eq acceptable.wellFormed.reads
    acceptable.wellFormed.errno acceptable.fits connected incoming).2
  refine ⟨_, later, reaches, ?_⟩
  rw [Message.bytes, List.length_append]
  exact Nat.add_le_add_left within _

/-- The next request is returned. Its call keeps the bytes behind it just where no receive of
its header brought any. -/
theorem InOrder.recvRequest_iff (inOrder : InOrder machine messages count served)
    (next : messages[count]? = some message) (acceptable : message.Acceptable machine sizes) :
    InOrder machine messages (count + 1) (served.perform machine sizes .recvRequest) ↔
      Apart sizes message served.socket := by
  obtain ⟨inside, rfl⟩ := List.getElem?_eq_some_iff.mp next
  have incoming := inOrder.incoming
  rw [List.drop_eq_getElem_cons inside, List.flatMap_cons] at incoming
  obtain ⟨returned, still, kept⟩ := recvRequest_next acceptable inOrder.connected incoming
  rw [← kept]
  refine ⟨fun after => after.incoming, fun same => ⟨still, ?_, same⟩⟩
  change served.returned ++ [(HttpSession.recvRequest machine sizes served.socket).1] = _
  rw [inOrder.returned, returned, List.take_succ_eq_append_getElem inside, List.map_append]
  rfl

/-- A response leaves the requests that have come. -/
theorem InOrder.sendResponse (inOrder : InOrder machine messages count served)
    (response : List Byte) :
    InOrder machine messages count (served.perform machine sizes (.sendResponse response)) := by
  obtain ⟨later, wrote, -, still⟩ := Stream.writeFixBuffer_eq sizes.stream_pos inOrder.connected
    response
  refine ⟨?_, inOrder.returned, ?_⟩
  · change (Stream.writeFixBuffer _ _ _).2.connected = true
    rwa [wrote]
  · exact Stream.writeFixBuffer_incoming.trans inOrder.incoming

theorem Served.after_concat (call : Call) :
    served.after machine sizes (calls ++ [call]) =
      (served.after machine sizes calls).perform machine sizes call := by
  simp only [after, List.foldl_append, List.foldl_cons, List.foldl_nil]

/-- How many requests have been asked for. -/
def asked (calls : List Call) : Nat :=
  calls.count .recvRequest

theorem asked_recvRequest : asked (calls ++ [.recvRequest]) = asked calls + 1 := by
  simp [asked]

theorem asked_sendResponse (response : List Byte) :
    asked (calls ++ [.sendResponse response]) = asked calls := by
  simp [asked]

theorem forall_prefix_concat {call : Call} {holds : List Call → Prop} :
    (∀ early, early <+: calls ++ [call] → holds early) ↔
      (∀ early, early <+: calls → holds early) ∧ holds (calls ++ [call]) := by
  simp only [List.prefix_concat_iff, or_imp, forall_and, forall_eq]
  exact and_comm

theorem forall_recvRequest_concat {call : Call} {holds : List Call → Prop} :
    (∀ early, early ++ [.recvRequest] <+: calls ++ [call] → holds early) ↔
      (∀ early, early ++ [.recvRequest] <+: calls → holds early) ∧
        (.recvRequest = call → holds calls) := by
  simp only [List.prefix_concat_iff, List.append_singleton_inj, or_imp, and_imp, forall_and,
    forall_eq]
  exact and_comm

/-- Successive calls return the requests in order, and lose no byte of those to come, exactly
if no receive of a header takes in bytes of a later request. -/
theorem pipelined_iff (acceptable : ∀ message ∈ messages, message.Acceptable machine sizes)
    (connected : socket.connected = true)
    (incoming : socket.incoming = messages.flatMap Message.bytes)
    (enough : asked calls ≤ messages.length) :
    (∀ early, early <+: calls →
      InOrder machine messages (asked early) (Served.after machine sizes ⟨socket, []⟩ early)) ↔
    ∀ early, early ++ [.recvRequest] <+: calls → ∀ message ∈ messages[asked early]?,
      Apart sizes message (Served.after machine sizes ⟨socket, []⟩ early).socket := by
  induction calls using List.reverseRecOn with
  | nil =>
      refine iff_of_true (fun early none => ?_) fun early none => ?_
      · obtain rfl := List.prefix_nil.mp none
        exact ⟨connected, rfl, incoming⟩
      · exact absurd (List.prefix_nil.mp none) (List.append_ne_nil_of_right_ne_nil _ (by simp))
  | append_singleton calls call ih =>
      have fewer : asked calls ≤ messages.length :=
        (List.Sublist.count_le _ (List.sublist_append_left calls [call])).trans enough
      rw [forall_prefix_concat, forall_recvRequest_concat, ← ih fewer]
      refine and_congr_right fun before => ?_
      have inOrder := before calls (List.prefix_refl calls)
      rw [Served.after_concat]
      cases call with
      | recvRequest =>
          rw [asked_recvRequest] at enough ⊢
          have next := List.getElem?_eq_getElem (Nat.lt_of_succ_le enough)
          rw [inOrder.recvRequest_iff next (acceptable _ (List.getElem_mem _)), next]
          simp
      | sendResponse response =>
          rw [asked_sendResponse]
          exact iff_of_true (inOrder.sendResponse response) nofun

end Run

section Example

/-- A request without a body. -/
def get (path : String) : Message :=
  ⟨ascii (String.append (String.append "GET " path) " HTTP/1.1\r\n\r\n"), []⟩

def gets : List Message :=
  [get "/a", get "/b"]

theorem acceptable_gets :
    ∀ message ∈ gets, message.Acceptable lineMachine.toHttpParser defaultSizes := by
  simp only [gets, List.mem_cons, List.not_mem_nil, or_false, forall_eq_or_imp, forall_eq]
  constructor
  · exact ⟨⟨lineMachine_reads (by decide) (by decide) (by decide),
      by decide, by decide⟩, by decide, by decide⟩
  · exact ⟨⟨lineMachine_reads (by decide) (by decide) (by decide),
      by decide, by decide⟩, by decide, by decide⟩

/-- Two requests that come byte by byte. -/
theorem pipelined_iff_gets :
    (∀ early, early <+:
        [.recvRequest, .sendResponse (ascii "HTTP/1.1 200 OK\r\n\r\n"), .recvRequest] →
      InOrder lineMachine.toHttpParser gets (asked early)
        (Served.after lineMachine.toHttpParser defaultSizes
          ⟨arriving (gets.flatMap Message.bytes) 1, []⟩ early)) ↔
    ∀ early, early ++ [.recvRequest] <+:
        [.recvRequest, .sendResponse (ascii "HTTP/1.1 200 OK\r\n\r\n"), .recvRequest] →
      ∀ message ∈ gets[asked early]?, Apart defaultSizes message
        (Served.after lineMachine.toHttpParser defaultSizes
          ⟨arriving (gets.flatMap Message.bytes) 1, []⟩ early).socket :=
  pipelined_iff acceptable_gets rfl rfl (by decide)

/-- Two requests that come with one receive: the second is lost. -/
theorem not_pipelined :
    (∀ message ∈ gets, message.Acceptable lineMachine.toHttpParser defaultSizes) ∧
      (Served.after lineMachine.toHttpParser defaultSizes
        ⟨arriving (gets.flatMap Message.bytes) 4096, []⟩ [.recvRequest, .recvRequest]).returned =
      [some (meant lineMachine.toHttpParser (get "/a").header []), none] := by
  refine ⟨acceptable_gets, ?_⟩
  decide

end Example

end Xten.http
