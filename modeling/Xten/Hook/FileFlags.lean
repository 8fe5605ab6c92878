import Xten.Hook.FdManager

/-!
# The flags of managed sockets

`fcntl` and `ioctl` of the hook layer, as far as they change or show the file status flags. The
calls of the kernel succeed, and `F_SETFL` changes the flags that Linux lets it change.
-/

namespace Xten.FileFlags

/-- File status flags, an `int`. -/
abbrev Flags := BitVec 32

def O_NONBLOCK : Flags := 0x800

/-- `O_APPEND`, `O_NONBLOCK`, `O_ASYNC`, `O_DIRECT` and `O_NOATIME`. -/
def settable : Flags := 0x400 ||| O_NONBLOCK ||| 0x2000 ||| 0x4000 ||| 0x40000

/-- The flags of a descriptor in the kernel, and what `FdCtxMgr::Get` returns for it. -/
structure Descriptor where
  flags : Flags
  ctx : Option FdCtx
deriving DecidableEq, Repr

namespace Descriptor

variable (self : Descriptor)

/-- `fcntl_f(fd, F_SETFL, arg)`. -/
def fcntlF (arg : Flags) : Descriptor :=
  { self with flags := self.flags &&& ~~~settable ||| arg &&& settable }

/-- `ioctl_f(d, FIONBIO, &value)`. -/
def ioctlF (value : BitVec 32) : Descriptor :=
  { self with
    flags := if value ≠ 0 then self.flags ||| O_NONBLOCK else self.flags &&& ~~~O_NONBLOCK }

/-- The context of a managed socket; none where the hooks leave a call to the kernel. -/
def managed : Option FdCtx :=
  self.ctx.filter fun ctx => !ctx.isClose && ctx.isSocket

/-- `fcntl(fd, F_SETFL, arg)`. -/
def setfl (arg : Flags) : Descriptor :=
  match self.managed with
  | none => self.fcntlF arg
  | some ctx =>
      let ctx := ctx.setUserNoBlock (arg &&& O_NONBLOCK ≠ 0)
      { self with ctx := some ctx }.fcntlF
        (if ctx.isSysSetNoBlock then arg ||| O_NONBLOCK else arg &&& ~~~O_NONBLOCK)

/-- `fcntl(fd, F_GETFL)`. -/
def getfl : Flags :=
  match self.managed with
  | none => self.flags
  | some ctx =>
      if ctx.isUserSetNoBlock then self.flags ||| O_NONBLOCK else self.flags &&& ~~~O_NONBLOCK

/-- `ioctl(d, FIONBIO, &value)`. -/
def fionbio (value : BitVec 32) : Descriptor :=
  match self.managed with
  | none => self.ioctlF value
  | some ctx => { self with ctx := some (ctx.setUserNoBlock (value ≠ 0)) }.ioctlF value

end Descriptor

/-- `FdCtx::init()` of a socket with these flags. -/
def manage (flags : Flags) : Descriptor :=
  let self : Descriptor := ⟨flags, some (.make (some true))⟩
  if flags &&& O_NONBLOCK = 0 then self.fcntlF (flags ||| O_NONBLOCK) else self

inductive Call where
  | setfl (arg : Flags)
  | getfl
  | fionbio (value : BitVec 32)
deriving DecidableEq, Repr

def Call.perform (self : Descriptor) : Call → Descriptor
  | .setfl arg => self.setfl arg
  | .getfl => self
  | .fionbio value => self.fionbio value

/-- The socket after some calls. -/
def after (flags : Flags) (calls : List Call) : Descriptor :=
  calls.foldl Call.perform (manage flags)

/-- Whether the last call that chooses has asked not to block. -/
def asked : List Call → Bool :=
  List.foldl (fun choice call =>
    match call with
    | .setfl arg => arg &&& O_NONBLOCK ≠ 0
    | .getfl => choice
    | .fionbio value => value ≠ 0) false

/-- The flags of the last `F_SETFL`. -/
def lastSet (flags : Flags) : List Call → Flags :=
  List.foldl (fun last call =>
    match call with
    | .setfl arg => arg
    | _ => last) flags

/-- What a managed socket owes to the scheduler and to its user. -/
structure Honours (flags : Flags) (calls : List Call) (socket : Descriptor) : Prop where
  /-- The kernel does not block. -/
  kernel : socket.flags &&& O_NONBLOCK ≠ 0
  /-- The user sees what he has asked for. -/
  user : socket.getfl &&& O_NONBLOCK ≠ 0 ↔ asked calls = true
  /-- The others of the flags that can be set are as they have been set, and as they are shown. -/
  others : socket.flags &&& (settable &&& ~~~O_NONBLOCK) =
    lastSet flags calls &&& (settable &&& ~~~O_NONBLOCK)
  shown : socket.getfl &&& ~~~O_NONBLOCK = socket.flags &&& ~~~O_NONBLOCK
  fixed : socket.flags &&& ~~~settable = flags &&& ~~~settable

section Masks

variable {flags arg mask bit : Flags}

theorem nonblock_iff : flags &&& O_NONBLOCK ≠ 0 ↔ flags.getLsbD 11 = true := by
  have power : O_NONBLOCK = BitVec.twoPow 32 11 := by decide
  rw [power, BitVec.and_twoPow]
  cases flags.getLsbD 11 <;> decide

/-- What is left of the flags, and what they are set to. -/
theorem merge_and_mask : (flags &&& ~~~mask ||| arg &&& mask) &&& ~~~mask = flags &&& ~~~mask := by
  ext index inside
  simp only [BitVec.getElem_and, BitVec.getElem_or, BitVec.getElem_not]
  cases mask[index] <;> simp

theorem merge_and_others (same : arg &&& ~~~bit = flags &&& ~~~bit) {old : Flags} :
    (old &&& ~~~mask ||| arg &&& mask) &&& (mask &&& ~~~bit) = flags &&& (mask &&& ~~~bit) := by
  ext index inside
  have bits := congrArg (fun flags : Flags => flags[index]) same
  simp only [BitVec.getElem_and, BitVec.getElem_or, BitVec.getElem_not] at bits ⊢
  cases mask[index] <;> simp_all

end Masks

section Calls

variable {flags arg : Flags} {calls : List Call} {self : Descriptor} {ctx : FdCtx}

/-- What holds of a managed socket after any calls. -/
structure Shows (flags : Flags) (calls : List Call) (socket : Descriptor) : Prop where
  managed : ∃ ctx, socket.managed = some ctx ∧ ctx.isSysSetNoBlock = true ∧
    ctx.isUserSetNoBlock = asked calls
  others : socket.flags &&& (settable &&& ~~~O_NONBLOCK) =
    lastSet flags calls &&& (settable &&& ~~~O_NONBLOCK)
  fixed : socket.flags &&& ~~~settable = flags &&& ~~~settable

/-- The user's choice does not change whether a socket is managed. -/
theorem managed_setUserNoBlock (found : self.managed = some ctx) (flags : Flags) (v : Bool) :
    ({ flags := flags, ctx := some (ctx.setUserNoBlock v) } : Descriptor).managed =
      some (ctx.setUserNoBlock v) := by
  have kept := (Option.filter_eq_some_iff.mp found).2
  exact Option.filter_eq_some_iff.mpr ⟨rfl, kept⟩

theorem asked_concat (calls : List Call) (call : Call) : asked (calls ++ [call]) =
    match call with
    | .setfl arg => decide (arg &&& O_NONBLOCK ≠ 0)
    | .getfl => asked calls
    | .fionbio value => decide (value ≠ 0) := by
  rw [asked, List.foldl_append]
  cases call <;> rfl

theorem lastSet_concat (flags : Flags) (calls : List Call) (call : Call) :
    lastSet flags (calls ++ [call]) =
      match call with
      | .setfl arg => arg
      | _ => lastSet flags calls := by
  rw [lastSet, List.foldl_append]
  cases call <;> rfl

/-- `F_SETFL` keeps `O_NONBLOCK` in the kernel. -/
theorem setfl_eq (found : self.managed = some ctx) (system : ctx.isSysSetNoBlock = true) :
    self.setfl arg = { self with ctx := some (ctx.setUserNoBlock (arg &&& O_NONBLOCK ≠ 0)) }.fcntlF
      (arg ||| O_NONBLOCK) := by
  have kept : (ctx.setUserNoBlock (arg &&& O_NONBLOCK ≠ 0)).isSysSetNoBlock = true := system
  rw [Descriptor.setfl, found]
  dsimp only
  rw [if_pos kept]

theorem fionbio_eq (found : self.managed = some ctx) (value : BitVec 32) :
    self.fionbio value = { self with ctx := some (ctx.setUserNoBlock (value ≠ 0)) }.ioctlF value := by
  rw [Descriptor.fionbio, found]

/-- `FIONBIO` changes `O_NONBLOCK` only. -/
theorem ioctlF_and {mask : Flags} (apart : O_NONBLOCK &&& mask = 0) (value : BitVec 32) :
    (self.ioctlF value).flags &&& mask = self.flags &&& mask := by
  rw [Descriptor.ioctlF]
  ext index inside
  have bit := congrArg (fun flags : Flags => flags[index]) apart
  dsimp only
  split
  all_goals
    simp only [BitVec.getElem_and, BitVec.getElem_or, BitVec.getElem_not] at bit ⊢
    cases here : O_NONBLOCK[index]
    · simp
    · rw [here, Bool.true_and] at bit
      simp [bit]

theorem or_and_others : (arg ||| O_NONBLOCK) &&& ~~~O_NONBLOCK = arg &&& ~~~O_NONBLOCK := by
  ext index inside
  simp only [BitVec.getElem_and, BitVec.getElem_or, BitVec.getElem_not]
  cases O_NONBLOCK[index] <;> simp

theorem shows_manage (flags : Flags) : Shows flags [] (manage flags) := by
  have new : (⟨flags, some (.make (some true))⟩ : Descriptor).managed =
      some (.make (some true)) := rfl
  rw [manage]
  split
  · exact ⟨⟨_, new, rfl, rfl⟩, merge_and_others or_and_others, merge_and_mask⟩
  · exact ⟨⟨_, new, rfl, rfl⟩, rfl, rfl⟩

theorem Shows.perform (shows : Shows flags calls self) (call : Call) :
    Shows flags (calls ++ [call]) (call.perform self) := by
  obtain ⟨ctx, found, system, user⟩ := shows.managed
  cases call with
  | setfl arg =>
      rw [Call.perform, setfl_eq found system]
      refine ⟨⟨_, managed_setUserNoBlock found _ _, system, ?_⟩, ?_, ?_⟩
      · rw [asked_concat]
        rfl
      · rw [lastSet_concat]
        exact merge_and_others or_and_others
      · exact merge_and_mask.trans shows.fixed
  | getfl =>
      refine ⟨⟨ctx, found, system, ?_⟩, ?_, shows.fixed⟩
      · rw [asked_concat, user]
      · rw [lastSet_concat]
        exact shows.others
  | fionbio value =>
      rw [Call.perform, fionbio_eq found]
      refine ⟨⟨_, managed_setUserNoBlock found _ _, system, ?_⟩, ?_, ?_⟩
      · rw [asked_concat]
        rfl
      · rw [lastSet_concat]
        exact (ioctlF_and (by decide) value).trans shows.others
      · exact (ioctlF_and (by decide) value).trans shows.fixed

theorem shows_after (flags : Flags) (calls : List Call) : Shows flags calls (after flags calls) := by
  induction calls using List.reverseRecOn with
  | nil => exact shows_manage flags
  | append_singleton calls call ih =>
      rw [after, List.foldl_append]
      exact ih.perform call

/-- `F_GETFL` shows the choice of the user, and the other flags as they are. -/
theorem Shows.honours (shows : Shows flags calls self) (kernel : self.flags &&& O_NONBLOCK ≠ 0) :
    Honours flags calls self := by
  obtain ⟨ctx, found, -, user⟩ := shows.managed
  have shown : self.getfl = if ctx.isUserSetNoBlock then self.flags ||| O_NONBLOCK
      else self.flags &&& ~~~O_NONBLOCK := by
    rw [Descriptor.getfl, found]
  refine ⟨kernel, ?_, shows.others, ?_, shows.fixed⟩
  · rw [nonblock_iff, shown, user]
    have bit : O_NONBLOCK.getLsbD 11 = true := by decide
    cases asked calls <;> simp [bit]
  · rw [shown]
    split
    · exact or_and_others
    · rw [BitVec.and_assoc, BitVec.and_self]

theorem kernel_manage (flags : Flags) : (manage flags).flags &&& O_NONBLOCK ≠ 0 := by
  rw [manage]
  split
  case isTrue =>
    have bit : O_NONBLOCK.getLsbD 11 = true := by decide
    have mask : settable.getLsbD 11 = true := by decide
    rw [nonblock_iff, Descriptor.fcntlF]
    simp [bit, mask]
  case isFalse set => exact set

/-- What a call makes of `O_NONBLOCK` in the kernel. -/
theorem Shows.kernel_perform (shows : Shows flags calls self)
    (kernel : self.flags &&& O_NONBLOCK ≠ 0) (call : Call) :
    (call.perform self).flags &&& O_NONBLOCK ≠ 0 ↔ call ≠ .fionbio 0 := by
  obtain ⟨ctx, found, system, -⟩ := shows.managed
  have bit : O_NONBLOCK.getLsbD 11 = true := by decide
  have mask : settable.getLsbD 11 = true := by decide
  cases call with
  | setfl arg =>
      refine iff_of_true ?_ Call.noConfusion
      rw [Call.perform, setfl_eq found system, nonblock_iff, Descriptor.fcntlF]
      simp [bit, mask]
  | getfl => exact iff_of_true kernel Call.noConfusion
  | fionbio value =>
      rw [Call.perform, fionbio_eq found, nonblock_iff, Descriptor.ioctlF]
      dsimp only
      by_cases zero : value = 0
      · rw [if_neg (not_not.mpr zero), zero]
        simp [bit]
      · rw [if_pos zero]
        refine iff_of_true (by simp [bit]) fun same => zero (Call.fionbio.inj same)

/-- A managed socket honours both sides after every call exactly if no `FIONBIO` asks to block. -/
theorem honours_iff (flags : Flags) (calls : List Call) :
    (∀ done, done <+: calls → Honours flags done (after flags done)) ↔
      ∀ call ∈ calls, call ≠ .fionbio 0 := by
  constructor
  · rintro honours call member rfl
    obtain ⟨earlier, later, rfl⟩ := List.append_of_mem member
    have before := honours earlier (List.prefix_append _ _)
    have behind := honours (earlier ++ [.fionbio 0]) ⟨later, by simp⟩
    have kernel := behind.kernel
    rw [after, List.foldl_append] at kernel
    exact ((shows_after flags earlier).kernel_perform before.kernel (.fionbio 0)).mp kernel rfl
  · intro never done early
    refine (shows_after flags done).honours ?_
    induction done using List.reverseRecOn with
    | nil => exact kernel_manage flags
    | append_singleton done call ih =>
        rw [after, List.foldl_append]
        refine ((shows_after flags done).kernel_perform ?_ call).mpr ?_
        · exact ih ((List.prefix_append _ _).trans early)
        · exact never call (early.subset (List.mem_append_right _ (List.mem_singleton_self _)))

theorem not_honours : ¬ ∀ (flags : Flags) (calls done : List Call), done <+: calls →
    Honours flags done (after flags done) := by
  intro claimed
  -- a socket that is open for reading and writing, as the kernel gives it out
  have honours := claimed 2 [.fionbio 0] [.fionbio 0] (List.prefix_refl _)
  exact honours.kernel (by decide)

end Calls

end Xten.FileFlags
