import Xten.Http.Session

/-!
# Headers and their lines

Where `GetLastRN` cuts the bytes of a buffer, and what the generated machine makes of a header
that comes line by line.
-/

namespace Xten.http

section Lines

variable {begin first second : List Byte} {index bound : Nat}

/-- Some bytes end with a line end. -/
def EndsLine (bytes : List Byte) : Prop :=
  lineEnd <:+ bytes

instance (bytes : List Byte) : Decidable (EndsLine bytes) :=
  inferInstanceAs (Decidable (lineEnd <:+ bytes))

theorem EndsLine.two_le (ends : EndsLine begin) : 2 ≤ begin.length :=
  ends.length_le

theorem EndsLine.append (ends : EndsLine second) : EndsLine (first ++ second) :=
  ends.trans (List.suffix_append first second)

/-- A line end at an index is one of the bytes before the index behind it. -/
theorem endsLine_take_iff (inside : index + 2 ≤ begin.length) :
    EndsLine (begin.take (index + 2)) ↔ (begin.drop index).take 2 = lineEnd := by
  rw [EndsLine, List.suffix_iff_eq_drop, List.length_take_of_le inside, List.drop_take]
  have two : index + 2 - lineEnd.length = index := rfl
  have rest : index + 2 - index = 2 := Nat.add_sub_cancel_left _ _
  rw [two, rest]
  exact eq_comm

/-- The bytes before a bound have no line end. -/
def NoLineEnd (begin : List Byte) (bound : Nat) : Prop :=
  ∀ index ≤ bound, ¬ EndsLine (begin.take index)

theorem lastRNBelow_none (inside : index + 1 ≤ begin.length)
    (none : lastRNBelow begin index = none) : NoLineEnd begin (index + 1) := by
  induction index with
  | zero =>
      intro last within ends
      have two := ends.two_le
      rw [List.length_take] at two
      omega
  | succ index ih =>
      rw [lastRNBelow] at none
      split at none
      · cases none
      · rename_i apart
        intro last within ends
        rcases Nat.lt_or_eq_of_le within with before | rfl
        · exact ih (by omega) none last (by omega) ends
        · exact apart ((endsLine_take_iff inside).mp ends)

theorem lastRNBelow_some {last : Nat} (inside : index + 1 ≤ begin.length)
    (found : lastRNBelow begin index = some last) :
    last ≤ index + 1 ∧ EndsLine (begin.take last) ∧
      ∀ later ≤ index + 1, last < later → ¬ EndsLine (begin.take later) := by
  induction index with
  | zero => cases found
  | succ index ih =>
      rw [lastRNBelow] at found
      split at found
      · rename_i here
        cases found
        exact ⟨Nat.le_refl _, (endsLine_take_iff inside).mpr here,
          fun later within after => absurd after (by omega)⟩
      · rename_i apart
        obtain ⟨within, ends, final⟩ := ih (by omega) found
        refine ⟨by omega, ends, fun later before after last => ?_⟩
        rcases Nat.lt_or_eq_of_le before with before | rfl
        · exact final later (by omega) after last
        · exact apart ((endsLine_take_iff inside).mp last)

/-- Where `GetLastRN` returns -1. -/
theorem getLastRN_none (none : getLastRN begin = none) : NoLineEnd begin begin.length := by
  rw [getLastRN] at none
  split at none
  · rename_i short
    intro last within ends
    have two := ends.two_le
    rw [List.length_take] at two
    omega
  · have all := lastRNBelow_none (by omega) none
    rwa [Nat.sub_add_cancel (by omega)] at all

/-- What else `GetLastRN` returns. -/
theorem getLastRN_some {last : Nat} (found : getLastRN begin = some last) :
    last ≤ begin.length ∧ EndsLine (begin.take last) ∧
      ∀ later ≤ begin.length, last < later → ¬ EndsLine (begin.take later) := by
  rw [getLastRN] at found
  split at found
  · cases found
  · have all := lastRNBelow_some (by omega) found
    rwa [Nat.sub_add_cancel (by omega)] at all

/-- `GetLastRN` finds a line end that is there. -/
theorem le_getLastRN (inside : index ≤ begin.length) (ends : EndsLine (begin.take index)) :
    ∃ last, getLastRN begin = some last ∧ index ≤ last := by
  cases found : getLastRN begin with
  | none => exact absurd ends (getLastRN_none found index inside)
  | some last =>
      refine ⟨last, rfl, Nat.le_of_not_lt fun before => ?_⟩
      exact (getLastRN_some found).2.2 index inside before ends

/-- Some bytes stop at the end of a line, or are none. -/
def AtLine (bytes : List Byte) : Prop :=
  bytes = [] ∨ EndsLine bytes

/-- No line end lies across the end of a line. -/
theorem AtLine.endsLine_append (line : AtLine first) (some : second ≠ [])
    (ends : EndsLine (first ++ second)) : EndsLine second := by
  rcases line with rfl | ⟨before, rfl⟩
  · exact ends
  · rcases Nat.lt_or_ge 1 second.length with two | one
    · exact List.suffix_of_suffix_length_le ends (List.suffix_append _ _) two
    · -- a single byte behind `\n` cannot complete a line end
      obtain ⟨letter, rfl⟩ := List.length_eq_one_iff.mp
        (Nat.le_antisymm one (List.length_pos_iff.mpr some))
      obtain ⟨rest, same⟩ := ends
      have tail : (rest ++ [13]) ++ [10] = (before ++ [13, 10]) ++ [letter] := by
        simpa [lineEnd] using same
      have front := (List.append_inj' tail rfl).1
      have last := (List.append_inj' (front.trans (List.append_cons before 13 [10])) rfl).2
      simp at last

/-- How many bytes the parser has had by the time that some bytes of a header are in. -/
def lastLine (bytes : List Byte) : Nat :=
  (getLastRN bytes).getD 0

theorem lastLine_eq (line : AtLine first) (none : NoLineEnd second second.length) :
    lastLine (first ++ second) = first.length := by
  have later {last : Nat} (inside : last ≤ (first ++ second).length)
      (after : first.length < last) : ¬ EndsLine ((first ++ second).take last) := by
    intro ends
    rw [List.length_append] at inside
    rw [List.take_append, List.take_of_length_le after.le] at ends
    refine none _ (by omega) (line.endsLine_append (fun empty => ?_) ends)
    have length := congrArg List.length empty
    rw [List.length_take, List.length_nil] at length
    omega
  have inside : first.length ≤ (first ++ second).length := List.length_append ▸ Nat.le_add_right _ _
  have prefixed : (first ++ second).take first.length = first := List.take_left
  rw [lastLine]
  cases found : getLastRN (first ++ second) with
  | none =>
      rcases line with rfl | ends
      · rfl
      · exact absurd (prefixed.symm ▸ ends) (getLastRN_none found _ inside)
  | some last =>
      obtain ⟨within, ends, final⟩ := getLastRN_some found
      apply Nat.le_antisymm
      · exact Nat.le_of_not_lt fun after => later within after ends
      · rcases line with rfl | here
        · exact Nat.zero_le _
        · exact Nat.le_of_not_lt fun before => final _ inside before (prefixed.symm ▸ here)

end Lines

namespace HttpRequestParser

variable {machine : HttpParser} (self : HttpRequestParser machine) {state : machine.State}

theorem call_with (callback : Callback) :
    ({ self with parser := state } : HttpRequestParser machine).call callback =
      { self.call callback with parser := state } := by
  cases callback with
  | httpVersion element =>
      simp only [call, onHttpVersion]
      split
      · rfl
      · split <;> rfl
  | httpField field value =>
      simp only [call, onHttpField]
      split <;> rfl
  | _ => rfl

theorem foldl_with (callbacks : List Callback) :
    callbacks.foldl call { self with parser := state } =
      { callbacks.foldl call self with parser := state } := by
  induction callbacks generalizing self with
  | nil => rfl
  | cons callback callbacks ih =>
      rw [List.foldl_cons, call_with, ih, List.foldl_cons]

/-- The machine's calls for some bytes and those for the bytes after them. -/
theorem after_andThen (first : Executed machine.State)
    (next : machine.State → Executed machine.State) :
    self.after (first.andThen next) = (self.after first).after (next first.state) := by
  simp only [after, Executed.andThen, List.foldl_append, foldl_with]

theorem call_errno {callback : Callback} (bad : self.errno ≠ 0) :
    (self.call callback).errno ≠ 0 := by
  cases callback with
  | requestMethod element =>
      simp only [call, onRequestMethod]
      split
      · decide
      · exact bad
  | httpVersion element =>
      simp only [call, onHttpVersion]
      split
      · exact bad
      · split
        · exact bad
        · simp
  | httpField field value =>
      simp only [call, onHttpField]
      split <;> exact bad
  | _ => exact bad

/-- An error is not forgotten. -/
theorem foldl_errno {callbacks : List Callback} (bad : self.errno ≠ 0) :
    (callbacks.foldl call self).errno ≠ 0 := by
  induction callbacks generalizing self with
  | nil => exact bad
  | cons callback callbacks ih => exact ih _ (self.call_errno bad)

theorem call_body {callback : Callback} :
    (self.call callback).request.body = self.request.body := by
  cases callback with
  | httpVersion element =>
      simp only [call, onHttpVersion]
      split
      · rfl
      · split <;> rfl
  | httpField field value =>
      simp only [call, onHttpField]
      split <;> rfl
  | _ => rfl

theorem foldl_body {callbacks : List Callback} :
    (callbacks.foldl call self).request.body = self.request.body := by
  induction callbacks generalizing self with
  | nil => rfl
  | cons callback callbacks ih => exact (ih _).trans self.call_body

theorem after_errno {executed : Executed machine.State}
    (good : (self.after executed).errno = 0) : self.errno = 0 := by
  by_contra bad
  exact self.foldl_errno bad good

variable {self}

theorem execute_eq {data : List Byte} {stdLen nparse : Nat} {next : HttpRequestParser machine}
    (count : (machine.execute (data.take stdLen) self.parser).nread = nparse)
    (parser : self.after (machine.execute (data.take stdLen) self.parser) = next) :
    self.execute data stdLen = ((nparse, data.drop nparse), next) := by
  simp only [execute, count, parser]

theorem hasError_eq_false (good : self.errno = 0) (sound : machine.hasError self.parser = false) :
    self.hasError = false := by
  simp [hasError, good, sound]

theorem isFinished_eq (sound : machine.hasError self.parser = false) :
    self.isFinished = if machine.isFinished self.parser then 1 else 0 := by
  simp [isFinished, HttpParser.finish, sound]

end HttpRequestParser

section Machine

variable (machine : HttpParser)

/-- The machine and its calls for some bytes from the start of a header. -/
def HttpParser.started (bytes : List Byte) : Executed machine.State :=
  machine.execute bytes machine.init

/-- The parser after some bytes from the start of a header. -/
def HttpRequestParser.parsed (bytes : List Byte) : HttpRequestParser machine :=
  ({} : HttpRequestParser machine).after (machine.started bytes)

/-- The generated machine reads a header with line ends byte by byte. It may be suspended at any
of them, and takes no byte beyond the last. -/
structure HttpParser.Reads (header : List Byte) : Prop where
  endsLine : EndsLine header
  suspends : ∀ {first second : List Byte}, EndsLine first → EndsLine second →
    first <+: header → first ≠ header → (first ++ second <+: header ∨ header <+: first ++ second) →
    machine.started (first ++ second) =
      (machine.started first).andThen fun state => machine.execute second state
  goesOn : ∀ {first : List Byte}, EndsLine first → first <+: header → first ≠ header →
    (machine.started first).nread = first.length ∧
      machine.hasError (machine.started first).state = false ∧
      machine.isFinished (machine.started first).state = false
  stops : ∀ more : List Byte, machine.started (header ++ more) = machine.started header
  whole : (machine.started header).nread = header.length ∧
    machine.hasError (machine.started header).state = false ∧
    machine.isFinished (machine.started header).state = true

/-- A header has no body in it. -/
theorem HttpRequestParser.parsed_body (bytes : List Byte) :
    (parsed machine bytes).request.body = [] :=
  foldl_body _

/-- A header and a body of the length that the header announces, as clients send them. -/
structure WellFormed (header body : List Byte) : Prop where
  reads : machine.Reads header
  errno : (HttpRequestParser.parsed machine header).errno = 0
  length : (HttpRequestParser.parsed machine header).getBodyLength.toNat = body.length

end Machine

namespace HttpParser.Reads

open HttpRequestParser

variable {machine : HttpParser} {header first second rest more : List Byte}

theorem started_nil : machine.started [] = ⟨0, [], machine.init⟩ :=
  rfl

/-- What comes of a line end of a header and of bytes after it. -/
theorem started_append (reads : machine.Reads header) (line : AtLine first)
    (ends : EndsLine second) (inside : first <+: header) (apart : first ≠ header)
    (along : first ++ second <+: header ∨ header <+: first ++ second) :
    machine.started (first ++ second) =
      (machine.started first).andThen fun state => machine.execute second state := by
  rcases line with rfl | here
  · simp only [started_nil, Executed.andThen, Nat.zero_add, List.nil_append]
    rfl
  · exact reads.suspends here ends inside apart along

theorem nread_eq (reads : machine.Reads header) (line : AtLine first) (inside : first <+: header)
    (apart : first ≠ header) : (machine.started first).nread = first.length := by
  rcases line with rfl | here
  · rfl
  · exact (reads.goesOn here inside apart).1

/-- More lines of a header, but not all of them. -/
theorem execute_lines (reads : machine.Reads header) (line : AtLine first)
    (split : header = first ++ second ++ rest) (ends : EndsLine second) (some : rest ≠ []) :
    (machine.execute second (machine.started first).state).nread = second.length ∧
      (parsed machine first).after (machine.execute second (machine.started first).state) =
        parsed machine (first ++ second) ∧
      machine.hasError (machine.started (first ++ second)).state = false ∧
      machine.isFinished (machine.started (first ++ second)).state = false := by
  have inside : first ++ second <+: header := ⟨rest, split.symm⟩
  have apart : first ++ second ≠ header := by
    intro same
    rw [split, List.self_eq_append_right] at same
    exact some same
  have before : first <+: header := (List.prefix_append _ _).trans inside
  have early : first ≠ header := by
    rintro rfl
    rw [List.append_assoc, List.self_eq_append_right, List.append_eq_nil_iff] at split
    exact some split.2
  have steps := reads.started_append line ends before early (.inl inside)
  obtain ⟨count, sound, open_⟩ := reads.goesOn ends.append inside apart
  refine ⟨?_, ?_, sound, open_⟩
  · have total := reads.nread_eq line before early
    rw [steps, List.length_append] at count
    simp only [Executed.andThen] at count
    omega
  · rw [parsed, parsed, steps, after_andThen]

/-- The last lines of a header, and bytes after them. -/
theorem execute_last (reads : machine.Reads header) (line : AtLine first)
    (split : header = first ++ second) (some : second ≠ []) (ends : EndsLine (second ++ more)) :
    (machine.execute (second ++ more) (machine.started first).state).nread = second.length ∧
      (parsed machine first).after
          (machine.execute (second ++ more) (machine.started first).state) =
        parsed machine header := by
  have early : first ≠ header := by
    rintro rfl
    rw [List.self_eq_append_right] at split
    exact some split
  have inside : first <+: header := ⟨second, split.symm⟩
  have whole : first ++ (second ++ more) = header ++ more := by
    rw [split, List.append_assoc]
  have steps := reads.started_append line ends inside early
    (.inr (whole ▸ List.prefix_append header more))
  rw [whole, reads.stops] at steps
  constructor
  · have total := reads.nread_eq line inside early
    have count := reads.whole.1
    rw [steps, split, List.length_append] at count
    simp only [Executed.andThen] at count
    omega
  · rw [parsed, parsed, steps, after_andThen]

theorem parsed_errno (reads : machine.Reads header) (line : AtLine first)
    (split : header = first ++ second) (good : (parsed machine header).errno = 0) :
    (parsed machine first).errno = 0 := by
  rcases line with rfl | here
  · rfl
  by_cases last : second = []
  · rw [last, List.append_nil] at split
    exact split ▸ good
  · have ends : EndsLine second := by
      apply AtLine.endsLine_append (.inr here) last
      exact split ▸ reads.endsLine
    rw [← List.append_nil second] at ends
    have after := (reads.execute_last (.inr here) split last ends).2
    rw [← after] at good
    exact after_errno _ good

end HttpParser.Reads

end Xten.http
