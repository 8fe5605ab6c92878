import Xten.ByteArray.Scan
import Xten.Rock.Messages

/-!
# What the parsers read

The parsers of the message classes on a byte array do what they do on the bytes
around its cursor. There each of them skims a list of fields: it returns if all of
them are there, unless a read of a string is undefined.
-/

namespace Xten

open Std.IntegerCodec Std.Programs

/-- The reads of a sequence of bytes. -/
def Cursor.readers : Readers Cursor where
  readFUint8 := Cursor.readFUint8
  readFUint32 := Cursor.readFUint32
  readStringF32 := Cursor.readStringF32

section Simulation

variable {σ τ α Object Part : Type} {related : σ → τ → Prop}

/-- States related beside the same object. -/
def Beside (related : σ → τ → Prop) (Object : Type) (left : σ × Object) (right : τ × Object) :
    Prop :=
  related left.1 right.1 ∧ left.2 = right.2

theorem assign_simulates {read : EStateM Fault σ α} {spec : EStateM Fault τ α}
    (simulates : Simulates related read spec) (set : α → Object → Object) :
    Simulates (Beside related Object) (assign read set) (assign spec set) := by
  rintro ⟨left, self⟩ ⟨right, _⟩ ⟨states, rfl⟩
  have agree := simulates states
  simp only [assign]
  generalize read left = result at agree
  generalize spec right = specResult at agree
  cases agree with
  | ok value states => exact .ok () ⟨states, rfl⟩
  | error fault states => exact .error fault ⟨states, rfl⟩

theorem onBase_simulates {base : Object → Part} {set : Part → Object → Object}
    {method : EStateM Fault (σ × Part) α} {spec : EStateM Fault (τ × Part) α}
    (simulates : Simulates (Beside related Part) method spec) :
    Simulates (Beside related Object) (onBase base set method) (onBase base set spec) := by
  rintro ⟨left, self⟩ ⟨right, _⟩ ⟨states, rfl⟩
  have agree := @simulates (left, base self) (right, base self) ⟨states, rfl⟩
  simp only [onBase]
  generalize method (left, base self) = result at agree
  generalize spec (right, base self) = specResult at agree
  cases agree with
  | ok value states => exact .ok value ⟨states.1, congrArg (set · self) states.2⟩
  | error fault states => exact .error fault ⟨states.1, congrArg (set · self) states.2⟩

theorem tryBoth_simulates {message body : EStateM Fault σ Bool}
    {specMessage specBody : EStateM Fault τ Bool}
    (first : Simulates related message specMessage) (second : Simulates related body specBody) :
    Simulates related (tryBoth message body) (tryBoth specMessage specBody) := by
  intro left right states
  have agree := first states
  simp only [tryBoth]
  generalize message left = result at agree
  generalize specMessage right = specResult at agree
  cases agree with
  | error fault states =>
      by_cases caught : fault.isException = true
      · simp only [if_pos caught]
        exact .ok true states
      · simp only [if_neg caught]
        exact .error fault states
  | @ok ret left right states =>
      have agree := second states
      simp only
      generalize body left = result at agree
      generalize specBody right = specResult at agree
      cases agree with
      | ok more states => exact .ok _ states
      | error fault states =>
          by_cases caught : fault.isException = true
          · simp only [if_pos caught]
            exact .ok ret states
          · simp only [if_neg caught]
            exact .error fault states

/-- Two sets of reads that do the same on related states. -/
structure Readers.Simulate (related : σ → τ → Prop) (ba : Readers σ) (spec : Readers τ) :
    Prop where
  readFUint8 : Simulates related ba.readFUint8 spec.readFUint8
  readFUint32 : Simulates related ba.readFUint32 spec.readFUint32
  readStringF32 : Simulates related ba.readStringF32 spec.readStringF32

variable {ba : Readers σ} {spec : Readers τ}

theorem Request.parse_simulates (readers : Readers.Simulate related ba spec) :
    Simulates (Beside related Request) (Request.parseFromByteArray ba)
      (Request.parseFromByteArray spec) := by
  apply (assign_simulates readers.readFUint32 _).bind
  intro _
  apply (assign_simulates readers.readFUint32 _).bind
  intro _
  exact Simulates.pure true

theorem Response.parse_simulates (readers : Readers.Simulate related ba spec) :
    Simulates (Beside related Response) (Response.parseFromByteArray ba)
      (Response.parseFromByteArray spec) := by
  apply (assign_simulates readers.readFUint32 _).bind
  intro _
  apply (assign_simulates readers.readFUint32 _).bind
  intro _
  apply (assign_simulates readers.readFUint32 _).bind
  intro _
  apply (assign_simulates readers.readStringF32 _).bind
  intro _
  exact Simulates.pure true

theorem Notify.parse_simulates (readers : Readers.Simulate related ba spec) :
    Simulates (Beside related Notify) (Notify.parseFromByteArray ba)
      (Notify.parseFromByteArray spec) := by
  apply (assign_simulates readers.readFUint32 _).bind
  intro _
  exact Simulates.pure true

theorem RockBody.parse_simulates (readers : Readers.Simulate related ba spec) :
    Simulates (Beside related RockBody) (RockBody.parseFromByteArray ba)
      (RockBody.parseFromByteArray spec) := by
  apply (assign_simulates readers.readStringF32 _).bind
  intro _
  exact Simulates.pure true

theorem Message.callOn_simulates {method : EStateM Fault (σ × Object) α}
    {specMethod : EStateM Fault (τ × Object) α}
    (simulates : Simulates (Beside related Object) method specMethod) (self : Object)
    (class_ : Object → Message) :
    Simulates related (Message.callOn method self class_)
      (Message.callOn specMethod self class_) := by
  intro left right states
  have agree := @simulates (left, self) (right, self) ⟨states, rfl⟩
  simp only [Message.callOn]
  generalize method (left, self) = result at agree
  generalize specMethod (right, self) = specResult at agree
  cases agree with
  | @ok value left right states =>
      obtain ⟨left, _⟩ := left
      obtain ⟨right, _⟩ := right
      obtain ⟨states, rfl⟩ := states
      exact .ok _ states
  | error fault states => exact .error fault states.1

theorem Message.parse_simulates (readers : Readers.Simulate related ba spec) (msg : Message) :
    Simulates related (msg.parseFromByteArray ba) (msg.parseFromByteArray spec) := by
  cases msg with
  | request self =>
      exact Message.callOn_simulates (tryBoth_simulates
        (onBase_simulates (Request.parse_simulates readers))
        (onBase_simulates (RockBody.parse_simulates readers))) self _
  | response self =>
      exact Message.callOn_simulates (tryBoth_simulates
        (onBase_simulates (Response.parse_simulates readers))
        (onBase_simulates (RockBody.parse_simulates readers))) self _
  | notify self =>
      exact Message.callOn_simulates (tryBoth_simulates
        (onBase_simulates (Notify.parse_simulates readers))
        (onBase_simulates (RockBody.parse_simulates readers))) self _

/-- The decoder does on an array what it does on the bytes around the cursor. -/
theorem parseBody_simulates (readers : Readers.Simulate related ba spec) :
    Simulates related (RockMessageDecoder.parseBody ba) (RockMessageDecoder.parseBody spec) := by
  apply readers.readFUint8.bind
  intro type
  cases Message.make type with
  | none => exact Simulates.pure none
  | some msg => exact (Message.parse_simulates readers msg).bind fun result => Simulates.pure _

theorem ByteArray.readers_simulate :
    Readers.Simulate ByteArray.Shows ByteArray.readers Cursor.readers where
  readFUint8 := readFUint8_simulates
  readFUint32 := readFUint32_simulates
  readStringF32 := readStringF32_simulates

end Simulation

end Xten
