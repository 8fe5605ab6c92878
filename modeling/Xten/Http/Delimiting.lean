import Xten.Http.Responses

/-!
# Where a response ends

A client that keeps its connection reads the lines of a response up to the empty one, and takes as
many bytes behind it as the only length among them says.
-/

namespace Xten.http

open StringUtil Std.Delimiters HttpResponse
open Xten.ByteArray (cString)

/-- A line without its end, and what is behind it. -/
def readLine : List Byte → Option (List Byte × List Byte)
  | [] => none
  | letter :: rest =>
      if letter = 13 ∧ rest.head? = some 10 then some ([], rest.tail)
      else (readLine rest).map fun read => (letter :: read.1, read.2)

/-- The lines up to an empty one, and what is behind that. -/
def readLines : Nat → List Byte → Option (List (List Byte) × List Byte)
  | 0, _ => none
  | rounds + 1, wire =>
      match readLine wire with
      | none => none
      | some ([], rest) => some ([], rest)
      | some (line, rest) =>
          (readLines rounds rest).map fun read => (line :: read.1, read.2)

/-- The head of a response, and what is behind it. There are no more lines than bytes. -/
def readHead (wire : List Byte) : Option (List (List Byte) × List Byte) :=
  readLines wire.length wire

/-- The name on a line. -/
def fieldName (line : List Byte) : List Byte :=
  line.takeWhile (· ≠ 58)

/-- The value on a line, without the blanks around it. -/
def fieldValue (line : List Byte) : List Byte :=
  trim (line.drop ((fieldName line).length + 1))

/-- A client compares names without their case. -/
def IsLength (name : List Byte) : Prop :=
  name.map toLower = ascii "content-length"

instance (name : List Byte) : Decidable (IsLength name) :=
  inferInstanceAs (Decidable (_ = _))

/-- The lengths that are announced on some lines. -/
def contentLengths (lines : List (List Byte)) : List (List Byte) :=
  (lines.filter fun line => IsLength (fieldName line)).map fieldValue

/-- The body follows the blank line, and other bytes may follow the body. One line announces a
length, with a value. -/
def Announces (response : HttpResponse) (value : List Byte) : Prop :=
  ∀ next, ∃ status lines, readHead (response.dump ++ next) =
    some (status :: lines, response.body ++ next) ∧ contentLengths lines = [value]

/-- The one length that is announced is the size of the body. -/
def SelfDelimiting (response : HttpResponse) : Prop :=
  ∃ value, Announces response value ∧ numericValue value = some (response.body.length : Int)

/-- No text of the response makes a line or a name of its own. -/
structure PlainTexts (response : HttpResponse) : Prop where
  reason : ¬ lineEnd <:+: response.reason
  names : ∀ i ∈ response.headers.1, ¬ lineEnd <:+: i.1 ∧ 58 ∉ i.1 ∧ 0 ∉ i.1
  values : ∀ i ∈ response.headers.1, ¬ lineEnd <:+: i.2
  cookies : ∀ i ∈ response.cookies, ¬ lineEnd <:+: i

section Reading

variable {line rest letters : List Byte} {lines : List (List Byte)} {rounds : Nat}

theorem readLine_line (noEnd : ¬ lineEnd <:+: line) :
    readLine (line ++ lineEnd ++ rest) = some (line, rest) := by
  induction line with
  | nil => rfl
  | cons letter line ih =>
      have later : ¬ lineEnd <:+: line := fun inside => noEnd (List.infix_cons inside)
      have here : ¬ (letter = 13 ∧ (line ++ lineEnd ++ rest).head? = some 10) := by
        rintro ⟨rfl, next⟩
        cases line with
        | nil => exact absurd (show some (13 : Byte) = some 10 from next) (by decide)
        | cons next line =>
            obtain rfl := Option.some.inj next
            exact noEnd (List.prefix_append lineEnd line).isInfix
      rw [List.cons_append, List.cons_append, readLine, if_neg here, ih later]
      rfl

theorem readLines_lines (enough : lines.length < rounds)
    (each : ∀ line ∈ lines, line ≠ [] ∧ ¬ lineEnd <:+: line) :
    readLines rounds ((lines.flatMap fun line => line ++ lineEnd) ++ lineEnd ++ rest) =
      some (lines, rest) := by
  induction lines generalizing rounds with
  | nil =>
      cases rounds with
      | zero => cases enough
      | succ rounds => rfl
  | cons line lines ih =>
      cases rounds with
      | zero => cases enough
      | succ rounds =>
          obtain ⟨⟨some, noEnd⟩, later⟩ := List.forall_mem_cons.mp each
          obtain ⟨letter, letters, rfl⟩ := List.exists_cons_of_ne_nil some
          have read := ih (Nat.lt_of_succ_lt_succ enough) later
          rw [List.flatMap_cons, List.append_assoc, List.append_assoc, List.append_assoc,
            ← List.append_assoc _ lineEnd, readLines, readLine_line noEnd]
          dsimp only
          rw [← List.append_assoc, read]
          rfl

end Reading

section Fields

variable {field : List Byte × List Byte} {fields : MapType} {response : HttpResponse}
  {name value : List Byte}

theorem fieldLine_plain (name : ¬ lineEnd <:+: field.1) (value : ¬ lineEnd <:+: field.2) :
    fieldLine field ≠ [] ∧ ¬ lineEnd <:+: fieldLine field := by
  refine ⟨List.append_ne_nil_of_right_ne_nil _ (List.cons_ne_nil _ _), fun inside => ?_⟩
  obtain left | right := infix_of_absent (by decide) inside
  · exact name left
  · have blank : lineEnd <:+: [] ++ 32 :: field.2 := right
    obtain none | right := infix_of_absent (by decide) blank
    · exact absurd none (by decide)
    · exact value right

theorem fieldName_fieldLine (noColon : 58 ∉ field.1) : fieldName (fieldLine field) = field.1 :=
  takeWhile_split noColon

theorem trim_blank (value : List Byte) : trim (32 :: value) = trim value := by
  rw [trim, trim, List.dropWhile_cons_of_pos (by decide)]

theorem fieldValue_fieldLine (noColon : 58 ∉ field.1) :
    fieldValue (fieldLine field) = trim field.2 := by
  have behind : (fieldLine field).drop (field.1.length + 1) = 32 :: field.2 := by
    simp [fieldLine]
  rw [fieldValue, fieldName_fieldLine noColon, behind, trim_blank]

theorem contentLengths_fields (noColon : ∀ field ∈ fields, 58 ∉ field.1) :
    contentLengths (fields.map fieldLine) =
      (fields.filter fun field => IsLength field.1).map fun field => trim field.2 := by
  induction fields with
  | nil => rfl
  | cons field fields ih =>
      obtain ⟨here, later⟩ := List.forall_mem_cons.mp noColon
      have rest := ih later
      rw [contentLengths] at rest ⊢
      rw [List.map_cons, List.filter_cons, List.filter_cons, fieldName_fieldLine here]
      split
      · rw [List.map_cons, List.map_cons, rest, fieldValue_fieldLine here]
      · exact rest

theorem isLength_iff (noNull : 0 ∉ name) :
    IsLength name ↔ foldCase name = foldCase (ascii "content-length") := by
  have whole : cString name = name := takeWhile_absent noNull
  have key : foldCase (ascii "content-length") = ascii "content-length" := by decide
  rw [IsLength, foldCase, whole, key]

theorem trim_eq (noBlank : ∀ letter ∈ value, letter ∉ ascii " \t\r\n") : trim value = value := by
  have front : value.dropWhile (· ∈ ascii " \t\r\n") = value := by
    refine List.dropWhile_eq_self_iff.mpr fun some blank => ?_
    exact noBlank _ (List.getElem_mem _) (of_decide_eq_true blank)
  rw [trim, front, List.rdropWhile_eq_self_iff]
  exact fun some blank => noBlank _ (List.getLast_mem some) (of_decide_eq_true blank)

theorem trim_decimal (size : Nat) : trim (decimal size) = decimal size := by
  refine trim_eq fun letter member blank => ?_
  have none : ∀ letter ∈ ascii " \t\r\n", isdigit letter = false := by decide
  exact absurd (isdigit_decimal member) (by rw [none letter blank]; exact Bool.false_ne_true)

/-- A field that is on one line, with a name that ends at its colon. -/
def OneLine (field : List Byte × List Byte) : Prop :=
  58 ∉ field.1 ∧ ¬ lineEnd <:+: field.1 ∧ ¬ lineEnd <:+: field.2

theorem noLineEnd_of_noReturn (noReturn : 13 ∉ value) : ¬ lineEnd <:+: value := fun inside =>
  noReturn (inside.subset List.mem_cons_self)

theorem oneLine_of (noColon : 58 ∉ name) (noReturn : 13 ∉ name) (noEnd : ¬ lineEnd <:+: value) :
    OneLine (name, value) :=
  ⟨noColon, noLineEnd_of_noReturn noReturn, noEnd⟩

theorem decimal_no_return (size : Nat) : 13 ∉ decimal size := fun inside =>
  absurd (isdigit_decimal inside) (by decide)

theorem PlainTexts.oneLine (plain : PlainTexts response) :
    ∀ field ∈ response.fields, OneLine field := by
  intro field member
  rw [HttpResponse.fields, List.mem_append, List.mem_append, List.mem_append] at member
  obtain ((header | cookie) | connection) | length := member
  · have inside := (List.mem_filter.mp header).1
    exact ⟨(plain.names _ inside).2.1, (plain.names _ inside).1, plain.values _ inside⟩
  · obtain ⟨i, inside, rfl⟩ := List.mem_map.mp cookie
    exact oneLine_of (by decide) (by decide) (plain.cookies i inside)
  · rw [connectionField] at connection
    split at connection
    · cases connection
    · obtain rfl := List.mem_singleton.mp connection
      refine oneLine_of (by decide) (by decide) ?_
      cases response.close
      · exact noLineEnd_of_noReturn (by decide)
      · exact noLineEnd_of_noReturn (by decide)
  · rw [lengthField] at length
    split at length
    · obtain rfl := List.mem_singleton.mp length
      exact oneLine_of (by decide) (by decide) (noLineEnd_of_noReturn (decimal_no_return _))
    · cases length

theorem statusText_plain (status : BitVec 32) :
    ¬ lineEnd <:+: ascii (httpStatusToString status) := by
  have texts : ∀ entry ∈ httpStatusMap, 13 ∉ ascii entry.2 := by
    rw [httpStatusMap]
    repeat' refine List.forall_mem_cons.mpr ⟨not_mem_ascii _ (by decide), ?_⟩
    exact List.forall_mem_nil _
  rw [httpStatusToString]
  split
  case h_1 entry found =>
    exact noLineEnd_of_noReturn (texts entry (List.mem_of_find?_eq_some found))
  case h_2 => exact noLineEnd_of_noReturn (by decide)

theorem PlainTexts.statusLine (plain : PlainTexts response) :
    response.statusLine ≠ [] ∧ ¬ lineEnd <:+: response.statusLine := by
  have reason : ¬ lineEnd <:+: (if response.reason = [] then
      ascii (httpStatusToString response.status) else response.reason) := by
    split
    · exact statusText_plain response.status
    · exact plain.reason
  have numbers : 13 ∉ ascii "HTTP/" ++ decimal (response.version >>> 4).toNat ++ ascii "." ++
      decimal (response.version &&& 0x0F).toNat ++ ascii " " ++ decimal response.status.toNat := by
    have texts : 13 ∉ ascii "HTTP/" ∧ 13 ∉ ascii "." ∧ 13 ∉ ascii " " := by decide
    simp only [List.mem_append, texts, decimal_no_return, or_self, not_false_eq_true]
  rw [HttpResponse.statusLine, List.append_assoc]
  refine ⟨List.append_ne_nil_of_right_ne_nil _ (List.cons_ne_nil _ _), fun inside => ?_⟩
  obtain left | right := infix_of_absent (by decide) inside
  · exact noLineEnd_of_noReturn numbers left
  · exact reason right

theorem length_le_flatMap (lines : List (List Byte)) :
    lines.length ≤ (lines.flatMap fun line => line ++ lineEnd).length := by
  induction lines with
  | nil => exact Nat.le_refl 0
  | cons line lines ih =>
      rw [List.flatMap_cons, List.length_append, List.length_append, List.length_cons]
      have two : lineEnd.length = 2 := rfl
      omega

/-- A client reads the lines of a response, and what follows its body behind the body. -/
theorem PlainTexts.readHead (plain : PlainTexts response) (next : List Byte) :
    readHead (response.dump ++ next) =
      some (response.statusLine :: response.fields.map fieldLine, response.body ++ next) := by
  have lines : response.dump ++ next =
      ((response.statusLine :: response.fields.map fieldLine).flatMap fun line =>
        line ++ lineEnd) ++ lineEnd ++ (response.body ++ next) := by
    rw [dump_eq, List.flatMap_cons, List.flatMap_map, wire]
    simp only [List.append_assoc]
  have each : ∀ line ∈ response.statusLine :: response.fields.map fieldLine,
      line ≠ [] ∧ ¬ lineEnd <:+: line := by
    refine List.forall_mem_cons.mpr ⟨plain.statusLine, fun line member => ?_⟩
    obtain ⟨field, inside, rfl⟩ := List.mem_map.mp member
    have oneLine := plain.oneLine field inside
    exact fieldLine_plain oneLine.2.1 oneLine.2.2
  rw [http.readHead, lines]
  refine readLines_lines ?_ each
  have count := length_le_flatMap (response.statusLine :: response.fields.map fieldLine)
  have two : lineEnd.length = 2 := rfl
  rw [List.length_append, List.length_append, two]
  omega

/-- A length that is set by hand is a header that is written. -/
theorem PlainTexts.filter_written (plain : PlainTexts response) :
    (written response.websocket response.headers.1).filter (fun field => IsLength field.1) =
      (List.find? (fun i => foldCase i.1 = foldCase (ascii "content-length"))
        response.headers.1).toList := by
  rw [← response.headers.2.filter_eq, written, List.filter_filter]
  refine List.filter_congr fun i inside => ?_
  have length := isLength_iff (plain.names i inside).2.2
  have apart : foldCase (ascii "content-length") ≠ foldCase (ascii "connection") := by
    decide
  by_cases same : foldCase i.1 = foldCase (ascii "content-length")
  · simp [length, same, apart]
  · simp [length, same]

theorem filter_cookies (cookies : List (List Byte)) :
    (cookies.map fun i => (ascii "Set-Cookie", i)).filter (fun field => IsLength field.1) = [] := by
  rw [List.filter_eq_nil_iff]
  intro field member
  obtain ⟨i, -, rfl⟩ := List.mem_map.mp member
  have other : ¬ IsLength (ascii "Set-Cookie") := by decide
  exact decide_eq_true_iff.not.mpr other

theorem filter_connectionField (response : HttpResponse) :
    response.connectionField.filter (fun field => IsLength field.1) = [] := by
  have other : ¬ IsLength (ascii "connection") := by decide
  rw [connectionField]
  split
  · rfl
  · exact List.filter_cons_of_neg (decide_eq_true_iff.not.mpr other)

theorem filter_lengthField (response : HttpResponse) :
    response.lengthField.filter (fun field => IsLength field.1) = response.lengthField := by
  have length : IsLength (ascii "content-length") := by decide
  rw [lengthField]
  split
  · exact List.filter_cons_of_pos (decide_eq_true length)
  · rfl

/-- The lengths that are announced: the one that is set by hand, or else the size of a body. -/
theorem PlainTexts.contentLengths (plain : PlainTexts response) :
    contentLengths (response.fields.map fieldLine) =
      match response.headers.1.find (ascii "content-length") with
      | some value => [trim value]
      | none => if response.body = [] then [] else [decimal response.body.length] := by
  have noColon : ∀ field ∈ response.fields, 58 ∉ field.1 := fun field member =>
    (plain.oneLine field member).1
  rw [contentLengths_fields noColon, HttpResponse.fields, List.filter_append, List.filter_append,
    List.filter_append, plain.filter_written, filter_cookies, filter_connectionField,
    filter_lengthField, lengthField, MapType.find]
  cases found : List.find? (fun i => foldCase i.1 = foldCase (ascii "content-length"))
      response.headers.1 with
  | some i => simp
  | none =>
      by_cases empty : response.body = []
      · simp [empty]
      · simp [empty, trim_decimal]

end Fields

/-- In a response of plain texts the body follows the blank line unchanged. A length that is set by
hand is the only one, and else it is the size of the body, if there is one. -/
theorem dump_delimits (response : HttpResponse) (plain : PlainTexts response) :
    (∀ next, ∃ status lines, readHead (response.dump ++ next) =
      some (status :: lines, response.body ++ next)) ∧
    (∀ value, response.headers.1.find (ascii "content-length") = some value →
      Announces response (trim value)) ∧
    (response.headers.1.find (ascii "content-length") = none → response.body ≠ [] →
      SelfDelimiting response) := by
  have lengths := plain.contentLengths
  refine ⟨fun next => ⟨_, _, plain.readHead next⟩, fun value found next => ?_, fun none some => ?_⟩
  · rw [found] at lengths
    exact ⟨_, _, plain.readHead next, lengths⟩
  · rw [none] at lengths
    dsimp only at lengths
    rw [if_neg some] at lengths
    exact ⟨_, fun next => ⟨_, _, plain.readHead next, lengths⟩, numericValue_decimal _⟩

/-- A new response with a body. -/
theorem dump_delimits_body : SelfDelimiting { body := ascii "ab" } := by
  have plain : PlainTexts { body := ascii "ab" } :=
    ⟨noLineEnd_of_noReturn (by decide), List.forall_mem_nil _, List.forall_mem_nil _,
      List.forall_mem_nil _⟩
  exact (dump_delimits { body := ascii "ab" } plain).2.2 rfl (by decide)

/-- What a client makes of a response with nothing behind it. -/
theorem SelfDelimiting.read_eq {response : HttpResponse} (delimits : SelfDelimiting response) :
    (readHead response.dump).map (fun read =>
        (read.2, (contentLengths read.1.tail).map numericValue)) =
      some (response.body, [some (response.body.length : Int)]) := by
  obtain ⟨value, announces, numeric⟩ := delimits
  obtain ⟨status, lines, read, lengths⟩ := announces []
  rw [List.append_nil, List.append_nil] at read
  rw [read, Option.map_some, List.tail_cons, lengths, List.map_singleton, numeric]

/-- A length that is set by hand is written as it is. So are line ends and colons in the texts, and
the bytes of a name behind a null, which `strcasecmp` does not see. -/
theorem not_selfDelimiting :
    ([setHeader { body := ascii "ab" } (ascii "Content-Length") (ascii "5"),
      setHeader { body := ascii "ab" } (ascii "a") (ascii "b\r\nContent-Length: 5"),
      setHeader { body := ascii "ab" } (ascii "Content-Length: 5\r\na") (ascii "b"),
      setHeader { body := ascii "ab" } (ascii "Content-Length:a") (ascii "b"),
      setHeader { body := ascii "ab" } (ascii "Content-Length" ++ [0]) (ascii "2"),
      { body := ascii "ab", reason := ascii "a\r\nContent-Length: 5" },
      { body := ascii "ab", cookies := [ascii "a\r\nContent-Length: 5"] }] :
        List HttpResponse).Forall fun response =>
      response.websocket = false ∧ ¬ SelfDelimiting response := by
  refine List.forall_iff_forall_mem.mpr fun response member => ?_
  fin_cases member
  all_goals exact ⟨rfl, fun delimits => absurd delimits.read_eq (by decide)⟩

end Xten.http
