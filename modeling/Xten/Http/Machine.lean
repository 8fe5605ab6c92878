import Xten.Http.Headers

/-!
# Machines that read byte by byte

A machine that takes one byte after the other may be suspended anywhere. One that reads the
simple request lines and fields of the tests, and calls back at the end of each line, shows
that a header can be read as `Reads` says.
-/

namespace Xten.http

/-- A machine by what it does with each byte, until it is at its end. -/
structure ByteMachine where
  State : Type
  init : State
  step : Byte → State → List Callback × State
  hasError : State → Bool
  isFinished : State → Bool

namespace ByteMachine

variable (machine : ByteMachine)

/-- The machine takes no more bytes. -/
def halted (state : machine.State) : Bool :=
  machine.hasError state || machine.isFinished state

def exec : List Byte → machine.State → Executed machine.State
  | [], state => ⟨0, [], state⟩
  | byte :: rest, state =>
      if machine.halted state then
        ⟨0, [], state⟩
      else
        let (callbacks, next) := machine.step byte state
        let executed := exec rest next
        ⟨executed.nread + 1, callbacks ++ executed.callbacks, executed.state⟩

/-- The machine as generated code. -/
@[reducible] def toHttpParser : HttpParser where
  State := machine.State
  init := machine.init
  exec := machine.exec
  hasError := machine.hasError
  isFinished := machine.isFinished

variable {machine} {state : machine.State} {first second header : List Byte}

theorem exec_halted (halt : machine.halted state = true) (bytes : List Byte) :
    machine.exec bytes state = ⟨0, [], state⟩ := by
  cases bytes with
  | nil => rfl
  | cons byte rest => rw [exec, if_pos halt]

/-- The machine may be suspended at any byte. -/
theorem exec_append : machine.exec (first ++ second) state =
    (machine.exec first state).andThen (machine.exec second) := by
  induction first generalizing state with
  | nil => simp [exec, Executed.andThen]
  | cons byte rest ih =>
      by_cases halt : machine.halted state = true
      · rw [exec_halted halt, exec_halted halt, Executed.andThen]
        simp only [exec_halted halt, Nat.add_zero, List.append_nil]
      · rw [List.cons_append, exec, exec, if_neg halt, if_neg halt]
        simp only [ih, Executed.andThen, Nat.add_right_comm, List.append_assoc]

theorem execute_eq (bytes : List Byte) :
    machine.toHttpParser.execute bytes state = machine.exec bytes state := by
  cases bytes with
  | nil => rfl
  | cons byte rest => rfl

theorem started_eq (bytes : List Byte) :
    machine.toHttpParser.started bytes = machine.exec bytes machine.init :=
  execute_eq bytes

theorem nread_eq (runs : ∀ early, early <+: first → early ≠ first →
    machine.halted (machine.exec early state).state = false) :
    (machine.exec first state).nread = first.length := by
  induction first generalizing state with
  | nil => rfl
  | cons byte rest ih =>
      have start : ¬ machine.halted state = true := by
        have here := runs [] (List.nil_prefix) (List.cons_ne_nil byte rest).symm
        rw [exec] at here
        exact here ▸ Bool.false_ne_true
      rw [exec, if_neg start]
      refine congrArg Nat.succ (ih fun early inside apart => ?_)
      have later := runs (byte :: early) (List.cons_prefix_cons.mpr ⟨rfl, inside⟩)
        fun same => apart (List.cons.inj same).2
      rwa [exec, if_neg start] at later

/-- A header is read as the generated machine reads one, if the machine comes to its end with the
header and not before. -/
theorem reads (ends : EndsLine header)
    (runs : ∀ early, early <+: header → early ≠ header →
      machine.halted (machine.exec early machine.init).state = false)
    (sound : machine.hasError (machine.exec header machine.init).state = false)
    (finished : machine.isFinished (machine.exec header machine.init).state = true) :
    machine.toHttpParser.Reads header where
  endsLine := ends
  suspends := fun {first second} _ _ _ _ _ => by
    have same : (fun state => machine.toHttpParser.execute second state) = machine.exec second :=
      funext fun state => execute_eq second
    rw [started_eq, started_eq, same]
    exact exec_append
  goesOn := fun {first} _ inside apart => by
    have before := runs first inside apart
    rw [halted, Bool.or_eq_false_iff] at before
    rw [started_eq]
    refine ⟨nread_eq fun early prior differs => ?_, before⟩
    refine runs early (prior.trans inside) fun same => differs ?_
    exact prior.eq_of_length_le (same ▸ inside.length_le)
  stops := fun more => by
    have halt : machine.halted (machine.exec header machine.init).state = true := by
      rw [halted, finished, Bool.or_true]
    rw [started_eq, started_eq, exec_append, Executed.andThen, exec_halted halt, Nat.add_zero,
      List.append_nil]
  whole := by
    rw [started_eq]
    exact ⟨nread_eq runs, sound, finished⟩

end ByteMachine

/-- The line so far, whether the request line is behind, and whether the header is. -/
structure LineState where
  line : List Byte := []
  fields : Bool := false
  finished : Bool := false
deriving DecidableEq, Repr

namespace LineMachine

/-- The calls for a request line: its method, its path, its query if it has one, its version. -/
def requestLine (line : List Byte) : List Callback :=
  let method := line.takeWhile (· ≠ 32)
  let uri := line.drop (method.length + 1)
  let path := uri.takeWhile fun letter => letter ≠ 32 ∧ letter ≠ 63
  let target := uri.takeWhile (· ≠ 32)
  let query := uri.drop (path.length + 1)
  let version := uri.drop (target.length + 1)
  [.requestMethod ⟨line, method.length⟩, .requestPath ⟨uri, path.length⟩] ++
    (if path.length < target.length then
      [.queryString ⟨query, target.length - path.length - 1⟩] else []) ++
    [.httpVersion ⟨version, version.length - 2⟩]

/-- The call for a field, whose value starts behind the blanks. -/
def field (line : List Byte) : Callback :=
  let name := line.takeWhile (· ≠ 58)
  let value := (line.drop (name.length + 1)).dropWhile (· = 32)
  .httpField ⟨line, name.length⟩ ⟨value, value.length - 2⟩

def step (byte : Byte) (state : LineState) : List Callback × LineState :=
  let line := state.line ++ [byte]
  if ¬ EndsLine line then ([], { state with line := line })
  else if ¬ state.fields then (requestLine line, { fields := true })
  else if line = lineEnd then ([], { fields := true, finished := true })
  else ([field line], { fields := true })

end LineMachine

/-- A machine for requests without what the grammar has beside paths, queries and fields. -/
@[reducible] def lineMachine : ByteMachine where
  State := LineState
  init := {}
  step := LineMachine.step
  hasError := fun _ => false
  isFinished := LineState.finished

/-- Which headers the machine of lines comes to its end with. -/
theorem lineMachine_reads {header : List Byte} (ends : EndsLine header)
    (runs : ∀ count < header.length,
      (lineMachine.exec (header.take count) {}).state.finished = false)
    (finished : (lineMachine.exec header {}).state.finished = true) :
    lineMachine.toHttpParser.Reads header := by
  refine ByteMachine.reads ends (fun early inside apart => ?_) rfl finished
  obtain ⟨rest, rfl⟩ := inside
  have some : rest ≠ [] := by
    rintro rfl
    exact apart (List.append_nil early).symm
  have before := runs early.length (by
    rw [List.length_append]
    exact Nat.lt_add_of_pos_right (List.length_pos_iff.mpr some))
  rwa [List.take_left] at before

end Xten.http
