import Xten.Util.Strings

/-!
# HTTP requests

`HttpRequest` with its maps, as its parser and its session fill it.
-/

namespace Xten.http

open StringUtil

/-- `HttpMethod`, in the order of `HTTP_METHOD_MAP`. -/
inductive HttpMethod
  | DELETE | GET | HEAD | POST | PUT
  | CONNECT | OPTIONS | TRACE
  | COPY | LOCK | MKCOL | MOVE | PROPFIND | PROPPATCH | SEARCH | UNLOCK
  | BIND | REBIND | UNBIND | ACL
  | REPORT | MKACTIVITY | CHECKOUT | MERGE
  | MSEARCH | NOTIFY | SUBSCRIBE | UNSUBSCRIBE
  | PATCH | PURGE | MKCALENDAR | LINK | UNLINK | SOURCE
  | INVALID_METHOD
deriving DecidableEq, Repr

/-- `HTTP_METHOD_MAP`: the methods and their names. -/
def httpMethodMap : List (HttpMethod × String) :=
  [(.DELETE, "DELETE"), (.GET, "GET"), (.HEAD, "HEAD"), (.POST, "POST"), (.PUT, "PUT"),
    (.CONNECT, "CONNECT"), (.OPTIONS, "OPTIONS"), (.TRACE, "TRACE"),
    (.COPY, "COPY"), (.LOCK, "LOCK"), (.MKCOL, "MKCOL"), (.MOVE, "MOVE"),
    (.PROPFIND, "PROPFIND"), (.PROPPATCH, "PROPPATCH"), (.SEARCH, "SEARCH"),
    (.UNLOCK, "UNLOCK"), (.BIND, "BIND"), (.REBIND, "REBIND"), (.UNBIND, "UNBIND"),
    (.ACL, "ACL"), (.REPORT, "REPORT"), (.MKACTIVITY, "MKACTIVITY"),
    (.CHECKOUT, "CHECKOUT"), (.MERGE, "MERGE"), (.MSEARCH, "M - SEARCH"),
    (.NOTIFY, "NOTIFY"), (.SUBSCRIBE, "SUBSCRIBE"), (.UNSUBSCRIBE, "UNSUBSCRIBE"),
    (.PATCH, "PATCH"), (.PURGE, "PURGE"), (.MKCALENDAR, "MKCALENDAR"), (.LINK, "LINK"),
    (.UNLINK, "UNLINK"), (.SOURCE, "SOURCE")]

/-- `CharsToHttpMethod(m)`: the first method whose name the characters begin with. -/
def charsToHttpMethod (m : List Byte) : HttpMethod :=
  match httpMethodMap.find? fun entry => (ascii entry.2).isPrefixOf m with
  | some entry => entry.1
  | none => .INVALID_METHOD

/-- `HttpRequest::MapType`, in the order of its keys. Keys that `CaseInsensitiveLess` does not
tell apart are one. -/
abbrev MapType := List (List Byte × List Byte)

namespace MapType

/-- The order of the keys, `CaseInsensitiveLess`. -/
def less (lhs rhs : List Byte) : Prop :=
  foldCase lhs < foldCase rhs

instance (lhs rhs : List Byte) : Decidable (less lhs rhs) :=
  inferInstanceAs (Decidable (foldCase lhs < foldCase rhs))

/-- The map with a value put at a key, which may depend on the value there. -/
def update (key : List Byte) (value : Option (List Byte) → List Byte) : MapType → MapType
  | [] => [(key, value none)]
  | (first, found) :: rest =>
      if less key first then (key, value none) :: (first, found) :: rest
      else if less first key then (first, found) :: update key value rest
      else (first, value (some found)) :: rest

/-- `m[key] = val`. -/
def assign (key val : List Byte) : MapType → MapType :=
  update key fun _ => val

/-- `m.insert(std::make_pair(key, val))`, which leaves a value that is there. -/
def insert (key val : List Byte) : MapType → MapType :=
  update key fun found => found.getD val

/-- `m.find(key)`. -/
def find (m : MapType) (key : List Byte) : Option (List Byte) :=
  (List.find? (fun entry => foldCase entry.1 = foldCase key) m).map Prod.snd

/-- `m.erase(key)`. -/
def erase (key : List Byte) (m : MapType) : MapType :=
  m.filter fun entry => foldCase entry.1 ≠ foldCase key

end MapType

/-- `HttpRequest`. -/
structure HttpRequest where
  method : HttpMethod := .GET
  version : BitVec 8 := 0x11
  close : Bool := true
  parserParamFlag : BitVec 8 := 0
  path : List Byte := ascii "/"
  query : List Byte := []
  fragment : List Byte := []
  body : List Byte := []
  headers : MapType := []
  params : MapType := []
  cookies : MapType := []
deriving DecidableEq, Repr

namespace HttpRequest

/-- `getHeader(key)`, with the empty default. -/
def getHeader (self : HttpRequest) (key : List Byte) : List Byte :=
  (self.headers.find key).getD []

/-- `getHeaderAs<size_t>(key, def)`. -/
def getHeaderAs (self : HttpRequest) (key : List Byte) (default : BitVec 64) : BitVec 64 :=
  ((self.headers.find key).bind lexicalCast).getD default

def setHeader (self : HttpRequest) (key val : List Byte) : HttpRequest :=
  { self with headers := self.headers.assign key val }

def delHeader (self : HttpRequest) (key : List Byte) : HttpRequest :=
  { self with headers := self.headers.erase key }

def init (self : HttpRequest) : HttpRequest :=
  let conn := self.getHeader (ascii "connection")
  if conn = [] then self
  else { self with close := foldCase conn ≠ foldCase (ascii "keep-alive") }

/-- The loop of `PARSE_PARAM(str, m, flag, trim)`, from a position on. A round takes an equals
sign or ends it, so that the bytes there are bound its rounds. -/
def parseParamLoop (flag : Byte) (trim : List Byte → List Byte) :
    Nat → List Byte → MapType → MapType
  | 0, _, m => m
  | rounds + 1, str, m =>
      let key := str.takeWhile (· ≠ 61)
      if key.length = str.length then
        m
      else
        let rest := str.drop (key.length + 1)
        let value := rest.takeWhile (· ≠ flag)
        let m := m.insert (trim key) (urlDecode true value)
        if value.length = rest.length then
          m
        else
          parseParamLoop flag trim rounds (rest.drop (value.length + 1)) m

/-- `PARSE_PARAM(str, m, flag, trim)`. -/
def parseParam (str : List Byte) (flag : Byte) (trim : List Byte → List Byte) (m : MapType) :
    MapType :=
  parseParamLoop flag trim (str.length + 1) str m

def initQueryParam (self : HttpRequest) : HttpRequest :=
  if self.parserParamFlag &&& 1 ≠ 0 then
    self
  else
    { self with
      params := parseParam self.query 38 id self.params
      parserParamFlag := self.parserParamFlag ||| 1 }

def initBodyParam (self : HttpRequest) : HttpRequest :=
  if self.parserParamFlag &&& 2 ≠ 0 then
    self
  else if strcasestr (self.getHeader (ascii "content-type"))
      (ascii "application/x-www-form-urlencoded") then
    { self with
      params := parseParam self.body 38 id self.params
      parserParamFlag := self.parserParamFlag ||| 2 }
  else
    { self with parserParamFlag := self.parserParamFlag ||| 2 }

def initCookies (self : HttpRequest) : HttpRequest :=
  if self.parserParamFlag &&& 4 ≠ 0 then
    self
  else
    let cookie := self.getHeader (ascii "cookie")
    if cookie = [] then
      { self with parserParamFlag := self.parserParamFlag ||| 4 }
    else
      { self with
        cookies := parseParam cookie 59 trim self.cookies
        parserParamFlag := self.parserParamFlag ||| 4 }

def initParam (self : HttpRequest) : HttpRequest :=
  self.initQueryParam.initBodyParam.initCookies

variable (self : HttpRequest)

theorem init_eq : ∃ close, self.init = { self with close := close } := by
  simp only [init]
  split
  · exact ⟨self.close, rfl⟩
  · exact ⟨_, rfl⟩

theorem initQueryParam_eq : ∃ params parserParamFlag,
    self.initQueryParam =
      { self with params := params, parserParamFlag := parserParamFlag } := by
  simp only [initQueryParam]
  split
  · exact ⟨_, _, rfl⟩
  · exact ⟨_, _, rfl⟩

theorem initBodyParam_eq : ∃ params parserParamFlag,
    self.initBodyParam =
      { self with params := params, parserParamFlag := parserParamFlag } := by
  simp only [initBodyParam]
  split
  · exact ⟨_, _, rfl⟩
  · split
    · exact ⟨_, _, rfl⟩
    · exact ⟨_, _, rfl⟩

theorem initCookies_eq : ∃ cookies parserParamFlag,
    self.initCookies =
      { self with cookies := cookies, parserParamFlag := parserParamFlag } := by
  simp only [initCookies]
  split
  · exact ⟨_, _, rfl⟩
  · split
    · exact ⟨_, _, rfl⟩
    · exact ⟨_, _, rfl⟩

/-- The parameters and cookies are all that is read out of the other fields. -/
theorem initParam_eq : ∃ params cookies parserParamFlag,
    self.initParam = { self with
      params := params, cookies := cookies, parserParamFlag := parserParamFlag } := by
  obtain ⟨params, flag, query⟩ := self.initQueryParam_eq
  obtain ⟨params, flag, body⟩ := self.initQueryParam.initBodyParam_eq
  obtain ⟨cookies, flag, all⟩ := self.initQueryParam.initBodyParam.initCookies_eq
  exact ⟨params, cookies, flag, by rw [initParam, all, body, query]⟩

end HttpRequest

end Xten.http
