import Mathlib.Data.List.Basic

/-!
# Starting the crash handler

The wrapper of `execve` starts the crash handler with the arguments meant for `createdump`. Every
access to a vector is checked.
-/

namespace Pyroscope.ApiWrapper

open List

abbrev Text := List Char

abbrev Pointer := Option Text

inductive Fault
  | badRead
  | badWrite
  deriving DecidableEq

def terminated (texts : List Text) : List Pointer :=
  texts.map some ++ [none]

/-- A new vector: the memory for its entries, and those which are written, one behind the other. -/
structure NewVector where
  capacity : Nat
  entries : List Pointer
  deriving DecidableEq

structure Call where
  pathname : Pointer
  argv : List Pointer
  envp : List Pointer
  deriving DecidableEq

def datadogCrashMarker : Text := "datadog_crashtracking".toList

def nameOption : Text := "--name".toList

/-- The loop of `ShouldCallCustomCreatedump`, from one of the arguments on. -/
def isMarked : Bool → List Pointer → Except Fault Bool
  | _, [] => .error .badRead
  | _, none :: _ => .ok false
  | previousWasNameOpt, some arg :: rest =>
    if previousWasNameOpt && datadogCrashMarker.isPrefixOf arg then .ok true
    else isMarked (nameOption.isPrefixOf arg) rest

def shouldCallCustomCreatedump (crashHandler pathname : Pointer) (argv : List Pointer) :
    Except Fault Bool :=
  match crashHandler, pathname with
  | some _, some path =>
    if path.length < 11 || path.drop (path.length - 11) != "/createdump".toList then .ok false
    else isMarked false argv
  | _, _ => .ok false

def count : List Pointer → Except Fault Nat
  | [] => .error .badRead
  | none :: _ => .ok 0
  | some _ :: rest => do return (← count rest) + 1

def NewVector.write (vector : NewVector) (pointer : Pointer) : Except Fault NewVector :=
  if vector.entries.length < vector.capacity then
    .ok { vector with entries := vector.entries ++ [pointer] }
  else .error .badWrite

/-- The loop which copies the arguments, from `argv[idx]` on. -/
def copyArguments (originalMiniDumpName : Pointer) (argv : List Pointer) (newArgv : NewVector) :
    Except Fault NewVector :=
  match argv with
  | [] => .error .badRead
  | none :: _ => .ok newArgv
  | some arg :: rest =>
    if nameOption.isPrefixOf arg then
      match originalMiniDumpName with
      | some name => do
        let newArgv ← newArgv.write (some nameOption)
        let newArgv ← newArgv.write (some name)
        copyArguments originalMiniDumpName (rest.drop 1) newArgv
      | none => copyArguments originalMiniDumpName (rest.drop 1) newArgv
    else do
      let newArgv ← newArgv.write (some arg)
      copyArguments originalMiniDumpName rest newArgv
termination_by argv.length

def isDropped (entry : Text) : Bool :=
  "LD_PRELOAD=".toList.isPrefixOf entry || "CORECLR_ENABLE_PROFILING=".toList.isPrefixOf entry ||
    "DOTNET_DbgEnableMiniDump=".toList.isPrefixOf entry ||
    "COMPlus_DbgEnableMiniDump=".toList.isPrefixOf entry

/-- The loop which copies the environment, for the entries which are left. -/
def copyEnvironment : Nat → List Pointer → NewVector → Except Fault NewVector
  | 0, _, newEnvp => .ok newEnvp
  | left + 1, some entry :: rest, newEnvp =>
    if isDropped entry then copyEnvironment left rest newEnvp
    else do copyEnvironment left rest (← newEnvp.write (some entry))
  | _ + 1, _, _ => .error .badRead

/-- What the wrapper calls `__real_execve` with. -/
def execve (crashHandler originalMiniDumpName pathname : Pointer) (argv envp : List Pointer) :
    Except Fault Call := do
  if !(← shouldCallCustomCreatedump crashHandler pathname argv) then
    return ⟨pathname, argv, envp⟩
  -- The null pointer is counted as well.
  let argc := (← count argv) + 1
  let newArgv ← (NewVector.mk (argc + 2) []).write crashHandler
  let newArgv ← newArgv.write (some "createdump".toList)
  let newArgv ← copyArguments originalMiniDumpName argv newArgv
  let newArgv ← newArgv.write none
  let envpCount ← count envp
  let newEnvp ← copyEnvironment envpCount envp ⟨envpCount + 1, []⟩
  let newEnvp ← newEnvp.write none
  return ⟨crashHandler, newArgv.entries, newEnvp.entries⟩

def newName (original : Pointer) : List Text :=
  original.elim [] ([nameOption, ·])

def renamed (original : Pointer) : List Text → List Text
  | option :: value :: rest =>
    if option = nameOption then newName original ++ renamed original rest
    else option :: renamed original (value :: rest)
  | rest => rest

/-- Every argument which is taken for the option is the option, and has a value. -/
def Paired : List Text → Prop
  | [] => True
  | [arg] => nameOption.isPrefixOf arg = false
  | arg :: value :: rest =>
    if nameOption.isPrefixOf arg then arg = nameOption ∧ Paired rest else Paired (value :: rest)

/-!
### Filling a vector
-/

theorem ok_bind {α β : Type} (value : α) (next : α → Except Fault β) :
    (Except.ok value >>= next) = next value := rfl

variable {entries : List Pointer} {capacity : Nat}

theorem write_bind {α : Type} (room : entries.length < capacity) (pointer : Pointer)
    (next : NewVector → Except Fault α) :
    ((NewVector.mk capacity entries).write pointer >>= next) =
      next ⟨capacity, entries ++ [pointer]⟩ := by
  rw [NewVector.write, if_pos room, ok_bind]

theorem count_terminated (texts : List Text) : count (terminated texts) = .ok texts.length := by
  induction texts with
  | nil => rfl
  | cons text rest ih =>
    change (do return (← count (terminated rest)) + 1) = _
    rw [ih]
    rfl

theorem copyEnvironment_terminated (envp : List Text)
    (room : entries.length + envp.length < capacity) :
    copyEnvironment envp.length (terminated envp) ⟨capacity, entries⟩ =
      .ok ⟨capacity, entries ++ (envp.filter (!isDropped ·)).map some⟩ := by
  induction envp generalizing entries with
  | nil => simp [copyEnvironment]
  | cons entry rest ih =>
    have shape : terminated (entry :: rest) = some entry :: terminated rest := rfl
    rw [length_cons] at room ⊢
    rw [shape, copyEnvironment]
    by_cases dropped : isDropped entry
    · rw [if_pos dropped, ih (by omega), filter_cons_of_neg (by simp [dropped])]
    · rw [if_neg dropped, write_bind (by omega), ih (by simp; omega),
        filter_cons_of_pos (by simp [dropped])]
      simp

/-!
### The copied arguments
-/

section Steps

variable (original : Pointer) {arg : Text} (rest : List Pointer) {capacity : Nat}
variable {entries : List Pointer}

theorem copyArguments_other (isOther : ¬ nameOption.isPrefixOf arg = true)
    (room : entries.length < capacity) :
    copyArguments original (some arg :: rest) ⟨capacity, entries⟩ =
      copyArguments original rest ⟨capacity, entries ++ [some arg]⟩ := by
  rw [copyArguments.eq_def]
  dsimp only
  rw [if_neg isOther, write_bind room]

theorem copyArguments_option (isOption : nameOption.isPrefixOf arg = true)
    (room : entries.length + 1 < capacity) :
    copyArguments original (some arg :: rest) ⟨capacity, entries⟩ =
      copyArguments original (rest.drop 1) ⟨capacity, entries ++ (newName original).map some⟩ := by
  cases original with
  | none =>
    rw [copyArguments, if_pos isOption]
    simp [newName]
  | some name =>
    rw [copyArguments, if_pos isOption, write_bind (by omega), write_bind (by simpa using room)]
    simp [newName]

end Steps

theorem length_newName_le (original : Pointer) : (newName original).length ≤ 2 := by
  cases original <;> simp [newName]

/-- What the loop makes of the arguments, whatever they are. -/
def copied (original : Pointer) : List Text → Except Fault (List Text)
  | [] => .ok []
  | [arg] => if nameOption.isPrefixOf arg then .error .badRead else .ok [arg]
  | arg :: value :: rest =>
    if nameOption.isPrefixOf arg then (copied original rest).map (newName original ++ ·)
    else (copied original (value :: rest)).map (arg :: ·)

section Copied

variable {original : Pointer} {argv texts : List Text}

theorem map_eq_ok {α β : Type} {result : Except Fault α} {change : α → β} {value : β}
    (isOk : result.map change = .ok value) :
    ∃ before, result = .ok before ∧ change before = value := by
  cases result with
  | error fault => cases isOk
  | ok before => exact ⟨before, rfl, Except.ok.inj isOk⟩

theorem length_copied_le (isCopied : copied original argv = .ok texts) :
    texts.length ≤ argv.length := by
  have few := length_newName_le original
  fun_induction copied original argv generalizing texts with
  | case1 =>
    cases isCopied
    exact Nat.le_refl _
  | case2 arg isOption => cases isCopied
  | case3 arg isOther =>
    cases isCopied
    exact Nat.le_refl _
  | case4 arg value rest isOption ih =>
    rcases map_eq_ok isCopied with ⟨others, isOthers, rfl⟩
    have fewer := ih isOthers
    simp only [length_append, length_cons]
    omega
  | case5 arg value rest isOther ih =>
    rcases map_eq_ok isCopied with ⟨others, isOthers, rfl⟩
    exact Nat.succ_le_succ (ih isOthers)

/-- There is room for what is copied. -/
theorem copyArguments_terminated (original : Pointer) (argv : List Text)
    (room : entries.length + argv.length < capacity) :
    copyArguments original (terminated argv) ⟨capacity, entries⟩ =
      (copied original argv).map fun texts => ⟨capacity, entries ++ texts.map some⟩ := by
  have few := length_newName_le original
  fun_induction copied original argv generalizing entries with
  | case1 => simp [terminated, copyArguments, Except.map]
  | case2 arg isOption =>
    refine (copyArguments_option original [none] isOption room).trans ?_
    simp [copyArguments, Except.map]
  | case3 arg isOther =>
    refine (copyArguments_other original [none] isOther (by omega)).trans ?_
    simp [copyArguments, Except.map]
  | case4 arg value rest isOption ih =>
    simp only [length_cons] at room
    refine (copyArguments_option original (terminated (value :: rest)) isOption
      (by omega)).trans ((ih (by simp; omega)).trans ?_)
    cases copied original rest <;> simp [Except.map]
  | case5 arg value rest isOther ih =>
    rw [length_cons] at room
    refine (copyArguments_other original (terminated (value :: rest)) isOther
      (by omega)).trans ((ih (by simp at room ⊢; omega)).trans ?_)
    cases copied original (value :: rest) <;> simp [Except.map]

/-- An argument which only starts with the option is never copied. -/
theorem eq_nameOption_of_copied {arg : Text} (isCopied : copied original argv = .ok (arg :: texts))
    (isOption : nameOption.isPrefixOf arg = true) : arg = nameOption := by
  fun_induction copied original argv with
  | case1 => cases isCopied
  | case2 _ _ => cases isCopied
  | case3 _ isOther =>
    cases isCopied
    exact absurd isOption isOther
  | case4 _ _ rest _ ih =>
    rcases map_eq_ok isCopied with ⟨others, isOthers, same⟩
    cases original with
    | none => exact ih (same ▸ isOthers)
    | some name => exact (cons.inj same).1.symm
  | case5 _ _ _ isOther _ =>
    rcases map_eq_ok isCopied with ⟨others, -, same⟩
    cases same
    exact absurd isOption isOther

theorem copied_eq_renamed_iff (original : Pointer) (argv : List Text) :
    copied original argv = .ok (renamed original argv) ↔ Paired argv := by
  fun_induction Paired argv with
  | case1 => simp [copied, renamed]
  | case2 arg =>
    cases isOption : nameOption.isPrefixOf arg <;> simp [copied, renamed, isOption]
  | case3 arg value rest isOption ih =>
    have step : copied original (arg :: value :: rest) =
        (copied original rest).map (newName original ++ ·) := by
      rw [copied, if_pos isOption]
    constructor
    · intro whole
      have isName : arg = nameOption := by
        by_contra other
        rw [renamed, if_neg other] at whole
        exact other (eq_nameOption_of_copied whole isOption)
      rw [step, renamed, if_pos isName] at whole
      rcases map_eq_ok whole with ⟨others, isOthers, same⟩
      rw [append_cancel_left same] at isOthers
      exact ⟨isName, ih.mp isOthers⟩
    · rintro ⟨isName, paired⟩
      rw [step, ih.mpr paired, renamed, if_pos isName]
      rfl
  | case4 arg value rest isOther ih =>
    have notOption : arg ≠ nameOption := by
      rintro rfl
      exact isOther (by decide)
    rw [copied, if_neg isOther, renamed, if_neg notOption, ← ih]
    cases copied original (value :: rest) <;> simp [Except.map]

end Copied

/-- For a crash, the crash handler is started with the arguments as they are meant exactly if every
argument which is taken for the option is the option, and has a value. -/
theorem handler_started_with_arguments (crashHandler : Text) (original pathname : Pointer)
    (argv envp : List Text)
    (custom : shouldCallCustomCreatedump (some crashHandler) pathname (terminated argv) =
      .ok true) :
    execve (some crashHandler) original pathname (terminated argv) (terminated envp) =
        .ok ⟨some crashHandler,
          terminated (crashHandler :: "createdump".toList :: renamed original argv),
          terminated (envp.filter (!isDropped ·))⟩ ↔
      Paired argv := by
  have kept := length_filter_le (!isDropped ·) envp
  rw [← copied_eq_renamed_iff original argv, execve, custom, ok_bind, Bool.not_true,
    if_neg Bool.false_ne_true, count_terminated, ok_bind, write_bind (by simp),
    write_bind (by simp), copyArguments_terminated original argv (by simp; omega)]
  cases isCopied : copied original argv with
  | error fault => exact iff_of_false nofun nofun
  | ok texts =>
    have fewer := length_copied_le isCopied
    rw [Except.map, ok_bind, write_bind (by simp; omega), count_terminated, ok_bind,
      copyEnvironment_terminated envp (by simp), ok_bind, write_bind (by simp; omega)]
    simp [terminated, pure, Except.pure, map_inj_right fun _ _ => Option.some.inj]

def createdumpPath : Text := "/usr/share/dotnet/createdump".toList

def handlerPath : Text := "/opt/dd-dotnet".toList

theorem dump_renamed :
    execve (some handlerPath) (some "core".toList) (some createdumpPath)
        (terminated [createdumpPath, nameOption, datadogCrashMarker, "42".toList])
        (terminated ["LD_PRELOAD=wrapper.so".toList, "HOME=/root".toList]) =
      .ok ⟨some handlerPath, terminated [handlerPath, "createdump".toList, createdumpPath,
        nameOption, "core".toList, "42".toList], terminated ["HOME=/root".toList]⟩ :=
  (handler_started_with_arguments handlerPath (some "core".toList) (some createdumpPath)
    [createdumpPath, nameOption, datadogCrashMarker, "42".toList] _ (by decide)).mpr
    (by simp only [Paired]; decide)

theorem option_without_value_skips_end :
    shouldCallCustomCreatedump (some handlerPath) (some createdumpPath)
        (terminated [createdumpPath, nameOption, datadogCrashMarker, nameOption]) = .ok true ∧
      execve (some handlerPath) none (some createdumpPath)
        (terminated [createdumpPath, nameOption, datadogCrashMarker, nameOption])
        (terminated []) = .error .badRead := by
  refine ⟨by decide, ?_⟩
  decide +kernel

end Pyroscope.ApiWrapper
