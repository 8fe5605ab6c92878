import Xten.Http.Requests

/-!
# The parser of request headers

`HttpRequestParser` over the machine that is generated from `http11_parser.rl`. The machine is
a parameter here: it takes the bytes of a buffer and calls back for each element of a header
that it has seen the end of.
-/

namespace Xten.http

/-- An element that the machine points at: the bytes of its line from there on, and how many of
them are its own. -/
structure Element where
  start : List Byte
  length : Nat
deriving DecidableEq, Repr

/-- `std::string(at, length)`. -/
def Element.text (element : Element) : List Byte :=
  element.start.take element.length

/-- The calls of the machine to the functions of `http_parser.cpp` that do something. -/
inductive Callback
  | requestMethod (element : Element)
  | requestPath (element : Element)
  | queryString (element : Element)
  | fragment (element : Element)
  | httpVersion (element : Element)
  | httpField (field value : Element)
deriving DecidableEq, Repr

/-- What comes of some bytes: how many of them are taken, the calls, and the machine
afterwards. -/
structure Executed (State : Type) where
  nread : Nat
  callbacks : List Callback
  state : State
deriving DecidableEq

/-- What comes of some bytes and of those after them. -/
def Executed.andThen {State : Type} (first : Executed State) (next : State → Executed State) :
    Executed State where
  nread := first.nread + (next first.state).nread
  callbacks := first.callbacks ++ (next first.state).callbacks
  state := (next first.state).state

/-- The code that `http11_parser.rl` is compiled to. -/
structure HttpParser where
  State : Type
  init : State
  exec : List Byte → State → Executed State
  hasError : State → Bool
  isFinished : State → Bool

namespace HttpParser

variable (machine : HttpParser)

/-- `http_parser_execute(parser, buffer, len, 0)`. -/
def execute (buffer : List Byte) (state : machine.State) : Executed machine.State :=
  if buffer.length = 0 then ⟨0, [], state⟩ else machine.exec buffer state

/-- `http_parser_finish(parser)`. -/
def finish (state : machine.State) : Int :=
  if machine.hasError state then -1 else if machine.isFinished state then 1 else 0

end HttpParser

/-- `HttpRequestParser`. -/
structure HttpRequestParser (machine : HttpParser) where
  parser : machine.State := machine.init
  request : HttpRequest := {}
  errno : Nat := 0

namespace HttpRequestParser

variable {machine : HttpParser} (self : HttpRequestParser machine)

def onRequestMethod (element : Element) : HttpRequestParser machine :=
  let mtd := charsToHttpMethod element.start
  { self with
    errno := if mtd = .INVALID_METHOD then 1000 else self.errno
    request := { self.request with method := mtd } }

/-- `on_http_version`. As many characters are compared as the version has. -/
def onHttpVersion (element : Element) : HttpRequestParser machine :=
  let compare (version : String) : Bool := element.text = (ascii version).take element.length
  if compare "HTTP/1.1" then { self with request := { self.request with version := 0x11 } }
  else if compare "HTTP/1.0" then { self with request := { self.request with version := 0x10 } }
  else { self with errno := 1001, request := { self.request with version := 0 } }

def onHttpField (field value : Element) : HttpRequestParser machine :=
  if field.length = 0 then self
  else { self with request := self.request.setHeader field.text value.text }

/-- The functions of the constructor, each for its call. -/
def call : Callback → HttpRequestParser machine
  | .requestMethod element => self.onRequestMethod element
  | .requestPath element =>
      { self with request := { self.request with path := element.text } }
  | .queryString element =>
      { self with request := { self.request with query := element.text } }
  | .fragment element =>
      { self with request := { self.request with fragment := element.text } }
  | .httpVersion element => self.onHttpVersion element
  | .httpField field value => self.onHttpField field value

/-- The parser after what came of some bytes. -/
def after (executed : Executed machine.State) : HttpRequestParser machine :=
  { executed.callbacks.foldl call self with parser := executed.state }

/-- `Execute(data, len, std_len)`, with the data that it leaves at the start of the buffer. -/
def execute (data : List Byte) (stdLen : Nat) :
    (Nat × List Byte) × HttpRequestParser machine :=
  let executed := machine.execute (data.take stdLen) self.parser
  ((executed.nread, data.drop executed.nread), self.after executed)

def isFinished : Int :=
  machine.finish self.parser

def hasError : Bool :=
  self.errno ≠ 0 ∨ machine.hasError self.parser

/-- `GetBodyLength()`. -/
def getBodyLength : BitVec 64 :=
  self.request.getHeaderAs (ascii "content-length") 0

end HttpRequestParser

end Xten.http
