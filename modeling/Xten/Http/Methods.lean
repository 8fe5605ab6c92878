import Xten.Http.Machine
import Xten.Std.Delimiters

/-!
# Methods

The machine hands over where the method of a request line starts and how long it is, and
`CharsToHttpMethod` looks for the name of a method at the start.
-/

namespace Xten.http

open Std.Delimiters StringUtil

/-- `HttpMethodToString(m)`. -/
def httpMethodToString (m : HttpMethod) : String :=
  match httpMethodMap[m.ctorIdx]? with
  | some entry => entry.2
  | none => "<unknown>"

/-- The token is the name of a method. -/
def Known (token : List Byte) : Prop :=
  ∃ entry ∈ httpMethodMap, ascii entry.2 = token

/-- `Method = ( upper | digit ){1,20}`. -/
structure IsMethod (token : List Byte) : Prop where
  letters : ∀ letter ∈ token, 65 ≤ letter.toNat ∧ letter.toNat ≤ 90 ∨ isdigit letter = true
  some : 1 ≤ token.length
  bounded : token.length ≤ 20

section Names

variable {token more : List Byte} {entry other : HttpMethod × String}

/-- The names as bytes: none is at the start of another, one has blanks in it, as its macro spells
it, and none is the letter before them. -/
theorem names_spelled : ∃ names : List (HttpMethod × List Byte),
    httpMethodMap.map (fun entry => (entry.1, ascii entry.2)) = names ∧
      (∀ name ∈ names, ∀ other ∈ names, name.2 <+: other.2 → name.1 = other.1) ∧
      (∀ name ∈ names, 32 ∈ name.2 → name.1 = .MSEARCH) ∧ ∀ name ∈ names, name.2 ≠ [77] := by
  apply Exists.intro
  apply And.intro
  · repeat apply congrArg₂ List.cons (congrArg (Prod.mk _) (ascii_ofList _))
    exact List.map_nil
  · decide

theorem httpMethodToString_of_mem : ∀ entry ∈ httpMethodMap,
    httpMethodToString entry.1 = entry.2 := by
  rw [httpMethodMap]
  repeat' refine List.forall_mem_cons.mpr ⟨rfl, ?_⟩
  exact List.forall_mem_nil _

theorem names_apart (member : entry ∈ httpMethodMap) (inside : other ∈ httpMethodMap)
    (starts : ascii entry.2 <+: ascii other.2) : entry.1 = other.1 := by
  obtain ⟨names, rfl, apart, -⟩ := names_spelled
  exact apart _ (List.mem_map_of_mem member) _ (List.mem_map_of_mem inside) starts

theorem blank_in_name (member : entry ∈ httpMethodMap) (blank : 32 ∈ ascii entry.2) :
    entry.2 = "M - SEARCH" := by
  obtain ⟨names, rfl, -, only, -⟩ := names_spelled
  have method : entry.1 = .MSEARCH := only _ (List.mem_map_of_mem member) blank
  rw [← httpMethodToString_of_mem entry member, method]
  rfl

theorem name_ne_letter (member : entry ∈ httpMethodMap) : ascii entry.2 ≠ ascii "M" := by
  obtain ⟨names, rfl, -, -, noLetter⟩ := names_spelled
  exact noLetter _ (List.mem_map_of_mem member)

theorem IsMethod.noBlank (isMethod : IsMethod token) : 32 ∉ token := by
  intro blank
  obtain upper | digit := isMethod.letters 32 blank
  · exact absurd upper (by decide)
  · exact absurd digit (by decide)

/-- A name at the start is one at the start of the token, unless it has a blank where the token
ends. -/
theorem prefix_token_iff (isMethod : IsMethod token) (member : entry ∈ httpMethodMap) :
    ascii entry.2 <+: token ++ 32 :: more ↔ ascii entry.2 <+: token ∨
      entry.2 = "M - SEARCH" ∧ token = ascii "M" ∧ ascii "- SEARCH" <+: more := by
  constructor
  · intro starts
    by_cases blank : 32 ∈ ascii entry.2
    · have name := blank_in_name member blank
      rw [name] at starts
      have short : 32 ∉ ascii "M" := by decide
      have split : ascii "M" = token ∧ ascii "- SEARCH" <+: more :=
        prefix_of_split isMethod.noBlank short starts
      exact .inr ⟨name, split.1.symm, split.2⟩
    · exact .inl (prefix_of_absent blank starts)
  · rintro (starts | ⟨name, rfl, rest, rfl⟩)
    · exact starts.trans (List.prefix_append _ _)
    · rw [name]
      exact ⟨rest, rfl⟩

theorem charsToHttpMethod_cases (m : List Byte) :
    (∃ entry ∈ httpMethodMap, ascii entry.2 <+: m ∧ charsToHttpMethod m = entry.1) ∨
      (∀ entry ∈ httpMethodMap, ¬ ascii entry.2 <+: m) ∧
        charsToHttpMethod m = .INVALID_METHOD := by
  cases found : httpMethodMap.find? fun entry => (ascii entry.2).isPrefixOf m with
  | some entry =>
      have starts : (ascii entry.2).isPrefixOf m = true := by simpa using List.find?_some found
      exact .inl ⟨entry, List.mem_of_find?_eq_some found, List.isPrefixOf_iff_prefix.mp starts,
        by rw [charsToHttpMethod, found]⟩
  | none =>
      refine .inr ⟨fun entry member starts => ?_, by rw [charsToHttpMethod, found]⟩
      exact List.find?_eq_none.mp found entry member (List.isPrefixOf_iff_prefix.mpr starts)

/-- The name of a method is found whatever is behind it. -/
theorem charsToHttpMethod_known (isMethod : IsMethod token) (known : Known token) :
    ascii (httpMethodToString (charsToHttpMethod (token ++ 32 :: more))) = token := by
  obtain ⟨entry, member, rfl⟩ := known
  obtain ⟨found, inside, starts, same⟩ | ⟨none, -⟩ :=
    charsToHttpMethod_cases (ascii entry.2 ++ 32 :: more)
  · obtain short | ⟨-, letter, -⟩ := (prefix_token_iff isMethod inside).mp starts
    · rw [same, names_apart inside member short, httpMethodToString_of_mem entry member]
    · exact absurd letter (name_ne_letter member)
  · exact absurd (List.prefix_append _ _) (none entry member)

theorem charsToHttpMethod_invalid_iff (m : List Byte) :
    charsToHttpMethod m = .INVALID_METHOD ↔ ∀ entry ∈ httpMethodMap, ¬ ascii entry.2 <+: m := by
  have valid : ∀ entry ∈ httpMethodMap, entry.1 ≠ .INVALID_METHOD := by decide
  obtain ⟨entry, member, starts, same⟩ | ⟨none, same⟩ := charsToHttpMethod_cases m
  · rw [same]
    exact iff_of_false (valid entry member) fun none => none entry member starts
  · exact iff_of_true same none

theorem charsToHttpMethod_token_iff (isMethod : IsMethod token) :
    charsToHttpMethod (token ++ 32 :: more) = .INVALID_METHOD ↔
      (∀ entry ∈ httpMethodMap, ¬ ascii entry.2 <+: token) ∧
        ¬ (token = ascii "M" ∧ ascii "- SEARCH" <+: more) := by
  rw [charsToHttpMethod_invalid_iff]
  constructor
  · intro none
    refine ⟨fun entry member starts => ?_, fun blank => ?_⟩
    · exact none entry member ((prefix_token_iff isMethod member).mpr (.inl starts))
    · have member : (.MSEARCH, "M - SEARCH") ∈ httpMethodMap := by decide
      exact none _ member ((prefix_token_iff isMethod member).mpr (.inr ⟨rfl, blank⟩))
  · rintro ⟨none, noBlank⟩ entry member starts
    obtain short | ⟨-, blank⟩ := (prefix_token_iff isMethod member).mp starts
    · exact none entry member short
    · exact noBlank blank

end Names

section Parsing

variable {machine : HttpParser} {self : HttpRequestParser machine}
  {executed : Executed machine.State} {token more : List Byte}

/-- A call that the grammar has behind the method: not another method, nor a version that is none. -/
def Callback.BehindMethod : Callback → Prop
  | .requestMethod _ => False
  | .httpVersion element => element.text = ascii "HTTP/1.1" ∨ element.text = ascii "HTTP/1.0"
  | _ => True

/-- The machine has read a request line whose method the grammar accepts, and may have read on. -/
structure RequestLine (executed : Executed machine.State) (token more : List Byte) : Prop where
  isMethod : IsMethod token
  calls : ∃ others, executed.callbacks =
      .requestMethod ⟨token ++ 32 :: more, token.length⟩ :: others ∧
    ∀ callback ∈ others, callback.BehindMethod

/-- The request has the method that the token is the name of, and another token is an error. -/
structure MatchedWhole (parser : HttpRequestParser machine) (token : List Byte) : Prop where
  name : Known token → ascii (httpMethodToString parser.request.method) = token
  error : ¬ Known token → parser.hasError = true

/-- A text is all of a version that it is compared with. -/
theorem text_eq_take {element : Element} {version : List Byte} (text : element.text = version) :
    element.text = version.take element.length := by
  have short : version.length ≤ element.length := by
    rw [← text, Element.text]
    exact List.length_take_le _ _
  rw [List.take_of_length_le short, text]

theorem call_method (self : HttpRequestParser machine) {callback : Callback}
    (behind : callback.BehindMethod) :
    (self.call callback).request.method = self.request.method ∧
      (self.call callback).errno = self.errno := by
  cases callback with
  | requestMethod element => exact behind.elim
  | httpVersion element =>
      simp only [HttpRequestParser.call, HttpRequestParser.onHttpVersion]
      split
      · exact ⟨rfl, rfl⟩
      · split
        · exact ⟨rfl, rfl⟩
        · rename_i first second
          obtain text | text := behind
          · exact absurd (decide_eq_true (text_eq_take text)) first
          · exact absurd (decide_eq_true (text_eq_take text)) second
  | httpField field value =>
      simp only [HttpRequestParser.call, HttpRequestParser.onHttpField]
      split
      · exact ⟨rfl, rfl⟩
      · exact ⟨rfl, rfl⟩
  | _ => exact ⟨rfl, rfl⟩

theorem foldl_method (self : HttpRequestParser machine) {others : List Callback}
    (behind : ∀ callback ∈ others, callback.BehindMethod) :
    (others.foldl HttpRequestParser.call self).request.method = self.request.method ∧
      (others.foldl HttpRequestParser.call self).errno = self.errno := by
  induction others generalizing self with
  | nil => exact ⟨rfl, rfl⟩
  | cons callback others ih =>
      obtain ⟨here, later⟩ := List.forall_mem_cons.mp behind
      obtain ⟨method, errno⟩ := call_method self here
      obtain ⟨lastMethod, lastErrno⟩ := ih (self.call callback) later
      exact ⟨lastMethod.trans method, lastErrno.trans errno⟩

/-- What a request line makes of the parser. -/
theorem RequestLine.after (self : HttpRequestParser machine)
    (line : RequestLine executed token more) :
    (self.after executed).request.method = charsToHttpMethod (token ++ 32 :: more) ∧
      (self.after executed).errno =
        if charsToHttpMethod (token ++ 32 :: more) = .INVALID_METHOD then 1000 else self.errno := by
  obtain ⟨others, calls, behind⟩ := line.calls
  obtain ⟨method, errno⟩ := foldl_method
    (self.call (.requestMethod ⟨token ++ 32 :: more, token.length⟩)) behind
  rw [HttpRequestParser.after, calls]
  exact ⟨method, errno⟩

theorem RequestLine.hasError_iff (fresh : self.errno = 0)
    (line : RequestLine executed token more) : (self.after executed).hasError = true ↔
      machine.hasError executed.state = true ∨
        charsToHttpMethod (token ++ 32 :: more) = .INVALID_METHOD := by
  obtain ⟨-, errno⟩ := line.after self
  have state : (self.after executed).parser = executed.state := rfl
  rw [HttpRequestParser.hasError, decide_eq_true_iff, errno, state, fresh, or_comm]
  simp

/-- The token is matched whole exactly if it is the name of a method, or no name of a method is at
its start and it is not what comes before the first blank of the only name with blanks. A line that
the machine refuses is an error in any case. -/
theorem matchedWhole_iff (fresh : self.errno = 0) (line : RequestLine executed token more) :
    MatchedWhole (self.after executed) token ↔ machine.hasError executed.state = true ∨
      Known token ∨ (∀ entry ∈ httpMethodMap, ¬ ascii entry.2 <+: token) ∧
        ¬ (token = ascii "M" ∧ ascii "- SEARCH" <+: more) := by
  obtain ⟨method, -⟩ := line.after self
  have reported := line.hasError_iff fresh
  constructor
  · intro matched
    by_cases known : Known token
    · exact .inr (.inl known)
    · obtain refused | invalid := reported.mp (matched.error known)
      · exact .inl refused
      · exact .inr (.inr ((charsToHttpMethod_token_iff line.isMethod).mp invalid))
  · intro holds
    refine ⟨fun known => ?_, fun unknown => reported.mpr ?_⟩
    · rw [method, charsToHttpMethod_known line.isMethod known]
    · obtain refused | known | invalid := holds
      · exact .inl refused
      · exact absurd known unknown
      · exact .inr ((charsToHttpMethod_token_iff line.isMethod).mpr invalid)

/-- What is behind the method of a short request line. -/
def shortTarget : List Byte :=
  ascii "/ HTTP/1.1\r\n"

theorem requestLine_short (isMethod : IsMethod token)
    (calls : executed.callbacks = [.requestMethod ⟨token ++ 32 :: shortTarget, token.length⟩,
      .requestPath ⟨shortTarget, 1⟩, .httpVersion ⟨shortTarget.drop 2, 8⟩]) :
    RequestLine executed token shortTarget := by
  have version : (Element.mk (shortTarget.drop 2) 8).text = ascii "HTTP/1.1" := by decide
  refine ⟨isMethod, _, calls, fun callback member => ?_⟩
  obtain rfl | rfl := List.mem_pair.mp member
  · trivial
  · exact .inl version

end Parsing

/-- A method that is none. -/
theorem matchedWhole_iff_brew : MatchedWhole
    (({} : HttpRequestParser lineMachine.toHttpParser).after
      (lineMachine.toHttpParser.started (ascii "BREW / HTTP/1.1\r\n"))) (ascii "BREW") := by
  have line : RequestLine (lineMachine.toHttpParser.started (ascii "BREW / HTTP/1.1\r\n"))
      (ascii "BREW") shortTarget :=
    requestLine_short ⟨by decide, by decide, by decide⟩ (by decide)
  exact (matchedWhole_iff rfl line).mpr (.inr (.inr (by decide)))

/-- A method with a letter too many is taken for the method. -/
theorem not_matchedWhole : ¬ ∀ (machine : HttpParser) (self : HttpRequestParser machine)
    (executed : Executed machine.State) (token more : List Byte), self.errno = 0 →
      RequestLine executed token more → MatchedWhole (self.after executed) token := by
  intro all
  have line : RequestLine (lineMachine.toHttpParser.started (ascii "GETX / HTTP/1.1\r\n"))
      (ascii "GETX") shortTarget :=
    requestLine_short ⟨by decide, by decide, by decide⟩ (by decide)
  have matched := all lineMachine.toHttpParser {} _ _ _ rfl line
  have unknown : ¬ Known (ascii "GETX") := by
    rw [Known]
    decide
  exact absurd (matched.error unknown) (by decide)

end Xten.http
