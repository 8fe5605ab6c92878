import Xten.Http.BodyLength
import Xten.Http.Maps
import Xten.Std.Delimiters

/-!
# HTTP responses

`HttpResponse` and the bytes that `dump` makes of it, as the lines of a head and a body.
-/

namespace Xten.http

open StringUtil Std.Delimiters

/-- `HTTP_STATUS_MAP`: the codes, and the texts as their macro spells them. -/
def httpStatusMap : List (Nat × String) :=
  [(100, "Continue"), (101, "Switching Protocols"), (102, "Processing"), (200, "OK"),
    (201, "Created"), (202, "Accepted"), (203, "Non - Authoritative Information"),
    (204, "No Content"), (205, "Reset Content"), (206, "Partial Content"),
    (207, "Multi - Status"), (208, "Already Reported"), (226, "IM Used"),
    (300, "Multiple Choices"), (301, "Moved Permanently"), (302, "Found"), (303, "See Other"),
    (304, "Not Modified"), (305, "Use Proxy"), (307, "Temporary Redirect"),
    (308, "Permanent Redirect"), (400, "Bad Request"), (401, "Unauthorized"),
    (402, "Payment Required"), (403, "Forbidden"), (404, "Not Found"),
    (405, "Method Not Allowed"), (406, "Not Acceptable"), (407, "Proxy Authentication Required"),
    (408, "Request Timeout"), (409, "Conflict"), (410, "Gone"), (411, "Length Required"),
    (412, "Precondition Failed"), (413, "Payload Too Large"), (414, "URI Too Long"),
    (415, "Unsupported Media Type"), (416, "Range Not Satisfiable"), (417, "Expectation Failed"),
    (421, "Misdirected Request"), (422, "Unprocessable Entity"), (423, "Locked"),
    (424, "Failed Dependency"), (426, "Upgrade Required"), (428, "Precondition Required"),
    (429, "Too Many Requests"), (431, "Request Header Fields Too Large"),
    (451, "Unavailable For Legal Reasons"), (500, "Internal Server Error"),
    (501, "Not Implemented"), (502, "Bad Gateway"), (503, "Service Unavailable"),
    (504, "Gateway Timeout"), (505, "HTTP Version Not Supported"),
    (506, "Variant Also Negotiates"), (507, "Insufficient Storage"), (508, "Loop Detected"),
    (510, "Not Extended"), (511, "Network Authentication Required")]

/-- `HttpStatusToString(s)`. -/
def httpStatusToString (status : BitVec 32) : String :=
  match httpStatusMap.find? fun entry => entry.1 = status.toNat with
  | some entry => entry.2
  | none => "<unknown>"

/-- A number on a stream. -/
def decimal (value : Nat) : List Byte :=
  (Nat.toDigits 10 value).map fun letter => BitVec.ofNat 8 letter.toNat

/-- A map with its order. -/
def HeaderMap := { m : MapType // m.Ordered }

/-- `HttpResponse`. -/
structure HttpResponse where
  status : BitVec 32 := 200
  version : BitVec 8 := 0x11
  close : Bool := true
  websocket : Bool := false
  body : List Byte := []
  reason : List Byte := []
  headers : HeaderMap := ⟨[], List.Pairwise.nil⟩
  cookies : List (List Byte) := []

/-- The loop of `dump` over the headers: what it writes, and whether there has been a length. -/
def dumpHeaders (websocket : Bool) : MapType → Bool → List Byte × Bool
  | [], hasContentLength => ([], hasContentLength)
  | i :: rest, hasContentLength =>
      if websocket = false ∧ foldCase i.1 = foldCase (ascii "connection") then
        dumpHeaders websocket rest hasContentLength
      else
        let has := hasContentLength || foldCase i.1 = foldCase (ascii "content-length")
        let (os, has) := dumpHeaders websocket rest has
        (i.1 ++ ascii ": " ++ i.2 ++ lineEnd ++ os, has)

/-- A name and a value on a line. -/
def fieldLine (field : List Byte × List Byte) : List Byte :=
  field.1 ++ 58 :: 32 :: field.2

namespace HttpResponse

def setHeader (response : HttpResponse) (key val : List Byte) : HttpResponse :=
  { response with headers := ⟨response.headers.1.assign key val, response.headers.2.update⟩ }

/-- `dump(os)`. -/
def dump (response : HttpResponse) : List Byte :=
  let (headers, hasContentLength) := dumpHeaders response.websocket response.headers.1 false
  ascii "HTTP/" ++ decimal (response.version >>> 4).toNat ++ ascii "." ++
    decimal (response.version &&& 0x0F).toNat ++ ascii " " ++ decimal response.status.toNat ++
    ascii " " ++
    (if response.reason = [] then ascii (httpStatusToString response.status)
      else response.reason) ++ lineEnd ++
    headers ++
    (response.cookies.flatMap fun i => ascii "Set-Cookie: " ++ i ++ lineEnd) ++
    (if response.websocket then []
      else ascii "connection: " ++ ascii (if response.close then "close" else "keep-alive") ++
        lineEnd) ++
    (if response.body ≠ [] then
      if hasContentLength = false then
        ascii "content-length: " ++ decimal response.body.length ++ lineEnd ++ lineEnd ++
          response.body
      else
        lineEnd ++ response.body
    else
      lineEnd)

/-- The first line, without its end. -/
def statusLine (response : HttpResponse) : List Byte :=
  ascii "HTTP/" ++ decimal (response.version >>> 4).toNat ++ ascii "." ++
    decimal (response.version &&& 0x0F).toNat ++ ascii " " ++ decimal response.status.toNat ++
    ascii " " ++
    (if response.reason = [] then ascii (httpStatusToString response.status)
      else response.reason)

/-- The headers that are written. -/
def written (websocket : Bool) (headers : MapType) : MapType :=
  headers.filter fun i => ¬ (websocket = false ∧ foldCase i.1 = foldCase (ascii "connection"))

def connectionField (response : HttpResponse) : MapType :=
  if response.websocket then []
  else [(ascii "connection", ascii (if response.close then "close" else "keep-alive"))]

/-- The length that is not set by hand. -/
def lengthField (response : HttpResponse) : MapType :=
  if response.body ≠ [] ∧ response.headers.1.find (ascii "content-length") = none then
    [(ascii "content-length", decimal response.body.length)]
  else []

/-- The other lines up to the empty one, as names and values. -/
def fields (response : HttpResponse) : MapType :=
  written response.websocket response.headers.1 ++
    response.cookies.map (fun i => (ascii "Set-Cookie", i)) ++
    response.connectionField ++ response.lengthField

/-- Fields as the lines that they are on. -/
def wire (fields : MapType) : List Byte :=
  fields.flatMap fun field => fieldLine field ++ lineEnd

theorem fieldLine_eq (name value : List Byte) :
    fieldLine (name, value) = name ++ ascii ": " ++ value := by
  rw [List.append_assoc]
  rfl

theorem wire_cons (field : List Byte × List Byte) (fields : MapType) :
    wire (field :: fields) = fieldLine field ++ lineEnd ++ wire fields :=
  List.flatMap_cons

theorem wire_singleton (field : List Byte × List Byte) :
    wire [field] = fieldLine field ++ lineEnd :=
  List.flatMap_singleton _ _

theorem wire_append (fields others : MapType) :
    wire (fields ++ others) = wire fields ++ wire others :=
  List.flatMap_append

theorem written_cons (websocket : Bool) (i : List Byte × List Byte) (rest : MapType) :
    written websocket (i :: rest) =
      if websocket = false ∧ foldCase i.1 = foldCase (ascii "connection") then
        written websocket rest
      else i :: written websocket rest := by
  rw [written, List.filter_cons]
  simp only [decide_eq_true_eq, ite_not]
  rfl

theorem dumpHeaders_eq (websocket : Bool) (headers : MapType) (has : Bool) :
    dumpHeaders websocket headers has =
      (wire (written websocket headers),
        has || decide (headers.find (ascii "content-length") ≠ none)) := by
  induction headers generalizing has with
  | nil => simp [dumpHeaders, written, wire, MapType.find_nil]
  | cons i rest ih =>
      obtain ⟨name, value⟩ := i
      rw [dumpHeaders, MapType.find_cons]
      split
      case isTrue skipped =>
        have other : foldCase name ≠ foldCase (ascii "content-length") := by
          rw [skipped.2]
          decide
        rw [ih, if_neg other, written_cons, if_pos skipped]
      case isFalse kept =>
        dsimp only
        rw [ih, written_cons, if_neg kept, wire_cons, fieldLine_eq]
        by_cases same : foldCase name = foldCase (ascii "content-length")
        · simp [same]
        · simp [same]

theorem wire_connectionField (response : HttpResponse) : wire response.connectionField =
    if response.websocket then []
    else ascii "connection: " ++ ascii (if response.close then "close" else "keep-alive") ++
      lineEnd := by
  rw [connectionField]
  split
  · rfl
  · rw [wire_singleton, fieldLine_eq]
    rfl

theorem wire_lengthField (response : HttpResponse) :
    wire response.lengthField ++ lineEnd ++ response.body =
      if response.body ≠ [] then
        if decide (response.headers.1.find (ascii "content-length") ≠ none) = false then
          ascii "content-length: " ++ decimal response.body.length ++ lineEnd ++ lineEnd ++
            response.body
        else lineEnd ++ response.body
      else lineEnd := by
  rw [lengthField]
  by_cases empty : response.body = []
  · simp [empty, wire]
  · by_cases none : response.headers.1.find (ascii "content-length") = none
    · have name : ascii "content-length: " = ascii "content-length" ++ ascii ": " := rfl
      simp [empty, none, wire_singleton, fieldLine_eq, name]
    · simp [empty, none, wire]

/-- What `dump` writes are lines, an empty line and the body. -/
theorem dump_eq (response : HttpResponse) : response.dump =
    response.statusLine ++ lineEnd ++ wire response.fields ++ lineEnd ++ response.body := by
  have cookies : wire (response.cookies.map fun i => (ascii "Set-Cookie", i)) =
      response.cookies.flatMap fun i => ascii "Set-Cookie: " ++ i ++ lineEnd := by
    rw [wire, List.flatMap_map]
    rfl
  rw [dump, dumpHeaders_eq]
  dsimp only
  rw [Bool.false_or, ← wire_lengthField, ← wire_connectionField, ← cookies, fields, wire_append,
    wire_append, wire_append, statusLine]
  simp only [List.append_assoc]

end HttpResponse

section Decimal

variable {letter : Char} {byte : Byte} {value : Nat}

theorem digit_bounds (digit : letter.isDigit = true) : 48 ≤ letter.toNat ∧ letter.toNat ≤ 57 :=
  Char.isDigit_iff_toNat.mp digit

theorem digit_byte (digit : letter.isDigit = true) :
    (BitVec.ofNat 8 letter.toNat).toNat = letter.toNat := by
  have bounds := digit_bounds digit
  rw [BitVec.toNat_ofNat]
  omega

theorem isdigit_decimal (member : byte ∈ decimal value) : isdigit byte = true := by
  obtain ⟨letter, inside, rfl⟩ := List.mem_map.mp member
  have digit := Nat.isDigit_of_mem_toDigits (by decide) (by decide) inside
  rw [isdigit, digit_byte digit]
  exact decide_eq_true (digit_bounds digit)

theorem decimal_ne_nil (value : Nat) : decimal value ≠ [] := fun none =>
  Nat.toDigits_ne_nil (List.map_eq_nil_iff.mp none)

theorem foldl_digits (letters : List Char) (digits : ∀ letter ∈ letters, letter.isDigit = true)
    (start : Nat) : (letters.map fun letter => BitVec.ofNat 8 letter.toNat).foldl
      (fun value digit => value * 10 + (digit.toNat - 48)) start =
        Nat.ofDigitChars 10 letters start := by
  induction letters generalizing start with
  | nil => rfl
  | cons letter letters ih =>
      obtain ⟨here, later⟩ := List.forall_mem_cons.mp digits
      rw [List.map_cons, List.foldl_cons, ih later, Nat.ofDigitChars_eq_foldl,
        Nat.ofDigitChars_eq_foldl, List.foldl_cons, digit_byte here, Nat.mul_comm 10]
      rfl

/-- The digits of a number are read as the number. -/
theorem numericValue_decimal (value : Nat) : numericValue (decimal value) = some (value : Int) := by
  have digital : (decimal value).all isdigit = true :=
    List.all_eq_true.mpr fun byte member => isdigit_decimal member
  have unsigned : signed (decimal value) = (false, decimal value) := by
    obtain ⟨sign, rest, same⟩ := List.exists_cons_of_ne_nil (decimal_ne_nil value)
    have digit : isdigit sign = true := isdigit_decimal (same ▸ List.mem_cons_self)
    have notMinus : sign ≠ 45 := by
      rintro rfl
      exact absurd digit (by decide)
    have notPlus : sign ≠ 43 := by
      rintro rfl
      exact absurd digit (by decide)
    rw [same, signed, if_neg notMinus, if_neg notPlus]
  have size : (decimal value).foldl (fun value digit => value * 10 + (digit.toNat - 48)) 0 =
      value := by
    rw [decimal, foldl_digits, Nat.ofDigitChars_ten_toDigits]
    exact fun letter inside => Nat.isDigit_of_mem_toDigits (by decide) (by decide) inside
  rw [numericValue, unsigned]
  dsimp only
  rw [if_pos ⟨decimal_ne_nil value, digital⟩, size]
  rfl

end Decimal

end Xten.http
