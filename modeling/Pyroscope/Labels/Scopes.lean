import Pyroscope.Lib.Dictionary
import Pyroscope.Lib.Transition

/-!
# Label sets and the dynamic tags of a thread

The table of keys belongs to the process. `LabelsWrapper.Do` puts labels in force, runs an action
and puts the earlier ones in force, also if the action throws.
-/

namespace Pyroscope.Labels

open List

def kMaxNumTags : Nat := 16

/-- `keys` of the process together with `values_` of one thread -/
structure Tags where
  keys : List String
  distinct : keys.Nodup
  values : Nat → Option String

namespace Tags

variable {tags : Tags} {key other value : String}

def empty : Tags := ⟨[], nodup_nil, fun _ => none⟩

def get (tags : Tags) (key : String) : Option String :=
  if key ∈ tags.keys then tags.values (tags.keys.idxOf key) else none

def setValue (tags : Tags) (key value : String) : Tags :=
  { tags with values := Function.update tags.values (tags.keys.idxOf key) (some value) }

/-- `RegisterKey`, where a key without room is left out. -/
def registerKey (tags : Tags) (key : String) : Tags :=
  if new : key ∉ tags.keys then
    if tags.keys.length ≥ kMaxNumTags then tags
    else
      { tags with
        keys := tags.keys ++ [key]
        distinct := nodup_append.mpr ⟨tags.distinct, nodup_singleton key, by
          intro old isKey other isNew
          rintro rfl
          rw [mem_singleton.mp isNew] at isKey
          exact new isKey⟩ }
  else tags

def set (tags : Tags) (key value : String) : Tags :=
  let tags := tags.registerKey key
  if key ∈ tags.keys then tags.setValue key value else tags

def clearAll (tags : Tags) : Tags :=
  { tags with values := fun _ => none }

def getAll (keys : List String) (values : Nat → Option String) : List (String × String) :=
  keys.zipIdx.filterMap fun entry => (values entry.2).map fun value => (entry.1, value)

@[simp]
theorem get_clearAll : tags.clearAll.get key = none := by
  exact ite_self none

@[simp]
theorem keys_setValue : (tags.setValue key value).keys = tags.keys := rfl

theorem get_setValue (registered : key ∈ tags.keys) :
    (tags.setValue key value).get other = if other = key then some value else tags.get other := by
  by_cases same : other = key
  · simp [get, setValue, same, registered]
  · by_cases isKey : other ∈ tags.keys
    · have apart : tags.keys.idxOf other ≠ tags.keys.idxOf key := by
        intro together
        exact same ((idxOf_inj isKey).mp together)
      simp [get, setValue, same, isKey, apart]
    · simp [get, setValue, same, isKey]

/-- There is no room for a new key. -/
def Full (tags : Tags) : Prop :=
  kMaxNumTags ≤ tags.keys.length

theorem keys_registerKey (tags : Tags) (key : String) :
    (tags.registerKey key).keys = tags.keys ∧ (key ∈ tags.keys ∨ tags.Full) ∨
      (tags.registerKey key).keys = tags.keys ++ [key] := by
  simp only [registerKey]
  split
  case isTrue new =>
    split
    case isTrue full => exact .inl ⟨rfl, .inr full⟩
    case isFalse => exact .inr rfl
  case isFalse old => exact .inl ⟨rfl, .inl (not_not.mp old)⟩

@[simp]
theorem values_registerKey : (tags.registerKey key).values = tags.values := by
  simp only [registerKey]
  split
  · split <;> rfl
  · rfl

theorem get_registerKey_of_ne (different : other ≠ key) :
    (tags.registerKey key).get other = tags.get other := by
  simp only [get, values_registerKey]
  rcases keys_registerKey tags key with ⟨same, _⟩ | extended
  · rw [same]
  · by_cases isKey : other ∈ tags.keys
    · simp [extended, isKey, idxOf_append]
    · simp [extended, isKey, different]

@[simp]
theorem keys_set : (tags.set key value).keys = (tags.registerKey key).keys := by
  simp only [set]
  split <;> rfl

theorem get_set_of_ne (different : other ≠ key) :
    (tags.set key value).get other = tags.get other := by
  simp only [set]
  split
  case isTrue registered =>
    rw [get_setValue registered, if_neg different, get_registerKey_of_ne different]
  case isFalse => exact get_registerKey_of_ne different

theorem get_set_self :
    (tags.set key value).get key =
      if key ∈ (tags.set key value).keys then some value else none := by
  rw [keys_set]
  simp only [set]
  split
  case isTrue registered => rw [get_setValue registered, if_pos rfl]
  case isFalse unregistered => simp [get, unregistered]

/-- What setting a tag, or several, does to the table of keys: it grows, and not beyond its room. -/
structure Extends (tags later : Tags) : Prop where
  kept : ∀ key ∈ tags.keys, key ∈ later.keys
  full : tags.Full → later.keys = tags.keys

theorem Extends.refl (tags : Tags) : tags.Extends tags :=
  ⟨fun _ isKey => isKey, fun _ => rfl⟩

theorem Extends.full_of_full {later : Tags} (grown : tags.Extends later) (full : tags.Full) :
    later.Full := by
  rw [Full, grown.full full]
  exact full

theorem Extends.trans {middle later : Tags} (first : tags.Extends middle)
    (second : middle.Extends later) : tags.Extends later := by
  constructor
  · intro key isKey
    exact second.kept key (first.kept key isKey)
  · intro full
    rw [second.full (first.full_of_full full), first.full full]

theorem extends_set : tags.Extends (tags.set key value) := by
  constructor
  · intro other isKey
    rw [keys_set]
    rcases keys_registerKey tags key with ⟨same, _⟩ | extended
    · rw [same]
      exact isKey
    · rw [extended]
      exact mem_append_left _ isKey
  · intro full
    simp only [Full] at full
    simp only [keys_set, registerKey]
    split <;> rfl

theorem mem_keys_or_full_set (tags : Tags) (key value : String) :
    key ∈ (tags.set key value).keys ∨ (tags.set key value).Full := by
  simp only [Full, keys_set]
  rcases keys_registerKey tags key with ⟨same, isKey | full⟩ | extended
  · exact .inl (same ▸ isKey)
  · exact .inr (same ▸ full)
  · exact .inl (by simp [extended])

end Tags

structure Profiler where
  dllNotFound : Bool
  isNativeVersionCompatible : Bool
  /-- Otherwise a call to a native function throws `DllNotFoundException`. -/
  hasLibrary : Bool
  /-- The native functions find their instance, an initialized CLR and the current thread. -/
  knowsThread : Bool
  tags : Tags

namespace Profiler

def isNativeInteropAvailable (profiler : Profiler) : Bool :=
  !profiler.dllNotFound && profiler.isNativeVersionCompatible

/-- The guards and the exception handler which all calls to native functions share. -/
def callNative (effect : Tags → Tags) (profiler : Profiler) : Profiler :=
  if profiler.isNativeInteropAvailable then
    if profiler.hasLibrary then
      if profiler.knowsThread then { profiler with tags := effect profiler.tags } else profiler
    else { profiler with dllNotFound := true }
  else profiler

def setDynamicTag (key value : String) : Profiler → Profiler :=
  callNative fun tags => tags.set key value

def clearDynamicTags : Profiler → Profiler :=
  callNative Tags.clearAll

/-- The calls reach the tags of the thread. -/
def Connected (profiler : Profiler) : Prop :=
  profiler.isNativeInteropAvailable = true ∧ profiler.hasLibrary = true ∧
    profiler.knowsThread = true

instance (profiler : Profiler) : Decidable profiler.Connected :=
  inferInstanceAs (Decidable (_ ∧ _ ∧ _))

variable {profiler : Profiler} {effect : Tags → Tags}

theorem callNative_of_connected (connected : profiler.Connected) :
    profiler.callNative effect = { profiler with tags := effect profiler.tags } := by
  rcases connected with ⟨available, library, known⟩
  simp [callNative, available, library, known]

theorem tags_callNative_of_not_connected (apart : ¬profiler.Connected) :
    (profiler.callNative effect).tags = profiler.tags := by
  simp only [callNative]
  split
  case isTrue available =>
    split
    case isTrue library =>
      split
      case isTrue known => exact absurd ⟨available, library, known⟩ apart
      case isFalse => rfl
    case isFalse => rfl
  case isFalse => rfl

/-- The only change which `callNative` makes to the guards is to a profiler without a library. -/
theorem connected_callNative : (profiler.callNative effect).Connected ↔ profiler.Connected := by
  simp only [callNative]
  split
  case isTrue available =>
    split
    case isTrue => split <;> rfl
    case isFalse noLibrary => simp [Connected, noLibrary]
  case isFalse => rfl

end Profiler

/-! ## Label sets and the actions run under them -/

open Profiler

/-- `Empty`, or what a builder made of another set by assigning some labels. -/
inductive LabelSet where
  | empty
  | built (previous : LabelSet) (added : List (String × String))
  deriving DecidableEq

namespace LabelSet

def previous : LabelSet → Option LabelSet
  | empty => none
  | built previous _ => some previous

def labels : LabelSet → Dictionary String String
  | empty => .empty
  | built previous added =>
    added.foldl (fun labels label => labels.set label.1 label.2) previous.labels

def activate (set : LabelSet) (profiler : Profiler) : Profiler :=
  set.labels.items.foldl (fun profiler label => profiler.setDynamicTag label.1 label.2)
    profiler.clearDynamicTags

end LabelSet

def resetLabels (labels : LabelSet) (profiler : Profiler) : Profiler :=
  match labels.previous with
  | none => profiler.clearDynamicTags
  | some previous => previous.activate profiler

/-- What runs on a thread; the last argument is what follows. -/
inductive Action where
  | return
  | throw
  | setDynamicTag (key value : String) (rest : Action)
  | clearDynamicTags (rest : Action)
  /-- `Do` with an action which may throw an exception that is caught around the call. -/
  | callDo (labels : LabelSet) (body : Action) (caught : Bool) (rest : Action)
  deriving DecidableEq

structure DoCall where
  labels : LabelSet
  before : Profiler
  after : Profiler

structure Outcome where
  profiler : Profiler
  threw : Bool
  calls : List DoCall

def run : Action → Profiler → Outcome
  | .return, profiler => ⟨profiler, false, []⟩
  | .throw, profiler => ⟨profiler, true, []⟩
  | .setDynamicTag key value rest, profiler => run rest (profiler.setDynamicTag key value)
  | .clearDynamicTags rest, profiler => run rest profiler.clearDynamicTags
  | .callDo labels body caught rest, profiler =>
    let inner := run body (labels.activate profiler)
    let after := resetLabels labels inner.profiler
    let calls := inner.calls ++ [⟨labels, profiler, after⟩]
    if inner.threw ∧ ¬caught then ⟨after, true, calls⟩
    else
      let outer := run rest after
      ⟨outer.profiler, outer.threw, calls ++ outer.calls⟩

def LabelSet.builtUpon (set : LabelSet) (key : String) : Option String :=
  set.previous.bind fun previous => previous.labels.get key

/-- After the call the tags are the labels which its set was built upon, as far as the table has
their keys. -/
def DoCall.Reinstates (call : DoCall) : Prop :=
  ∀ key, call.after.tags.get key =
    if call.before.Connected then
      if key ∈ call.after.tags.keys then call.labels.builtUpon key else none
    else call.before.tags.get key

/-- The tags are the same behind the call. -/
def DoCall.Restores (call : DoCall) : Prop :=
  ∀ key, call.after.tags.get key = call.before.tags.get key

/-- Every set is built upon the one around it, and the tags are changed in no other way. -/
def Action.BuildsUpon (enclosing : LabelSet) : Action → Prop
  | .return => True
  | .throw => True
  | .setDynamicTag _ _ _ => False
  | .clearDynamicTags _ => False
  | .callDo labels body _ rest =>
    labels.previous = some enclosing ∧ body.BuildsUpon labels ∧ rest.BuildsUpon enclosing

/-- The second profiler is what some calls to native functions have made of the first. -/
inductive Touched (profiler : Profiler) : Profiler → Prop where
  | refl : Touched profiler profiler
  | set {later : Profiler} (key value : String) (touched : Touched profiler later) :
      Touched profiler (later.setDynamicTag key value)
  | clear {later : Profiler} (touched : Touched profiler later) :
      Touched profiler later.clearDynamicTags

namespace Touched

variable {profiler middle later : Profiler}

theorem trans (first : Touched profiler middle) (second : Touched middle later) :
    Touched profiler later := by
  induction second with
  | refl => exact first
  | set key value _ ih => exact .set key value ih
  | clear _ ih => exact .clear ih

theorem foldl (items : List (String × String)) :
    Touched profiler
      (items.foldl (fun profiler label => profiler.setDynamicTag label.1 label.2) profiler) := by
  induction items generalizing profiler with
  | nil => exact .refl
  | cons label rest ih => exact (Touched.refl.set label.1 label.2).trans ih

theorem activate (profiler : Profiler) (set : LabelSet) :
    Touched profiler (set.activate profiler) :=
  Touched.refl.clear.trans (foldl _)

theorem resetLabels (profiler : Profiler) (labels : LabelSet) :
    Touched profiler (resetLabels labels profiler) := by
  simp only [Labels.resetLabels]
  cases labels.previous with
  | none => exact .clear .refl
  | some previous => exact activate profiler previous

theorem run (profiler : Profiler) (action : Action) :
    Touched profiler (run action profiler).profiler := by
  induction action generalizing profiler with
  | «return» => exact .refl
  | throw => exact .refl
  | setDynamicTag key value rest ih => exact (Touched.refl.set key value).trans (ih _)
  | clearDynamicTags rest ih => exact Touched.refl.clear.trans (ih _)
  | callDo labels body caught rest ihBody ihRest =>
    simp only [Labels.run]
    have called := ((activate profiler labels).trans (ihBody _)).trans (resetLabels _ labels)
    split
    · exact called
    · exact called.trans (ihRest _)

theorem connected_iff (touched : Touched profiler later) :
    later.Connected ↔ profiler.Connected := by
  induction touched with
  | refl => rfl
  | set _ _ _ ih => exact connected_callNative.trans ih
  | clear _ ih => exact connected_callNative.trans ih

theorem tags_eq (touched : Touched profiler later) (apart : ¬profiler.Connected) :
    later.tags = profiler.tags := by
  induction touched with
  | refl => rfl
  | set _ _ touched ih | clear touched ih =>
    exact (tags_callNative_of_not_connected (mt touched.connected_iff.mp apart)).trans ih

theorem extends_tags (touched : Touched profiler later) (connected : profiler.Connected) :
    profiler.tags.Extends later.tags := by
  induction touched with
  | refl => exact .refl _
  | set key value touched ih =>
    rw [setDynamicTag, callNative_of_connected (touched.connected_iff.mpr connected)]
    exact ih.trans Tags.extends_set
  | clear touched ih =>
    rw [clearDynamicTags, callNative_of_connected (touched.connected_iff.mpr connected)]
    exact ih.trans ⟨fun _ isKey => isKey, fun _ => rfl⟩

end Touched

section Activation

variable {tags : Tags} {profiler : Profiler} {set : LabelSet}

def setAll (items : List (String × String)) (tags : Tags) : Tags :=
  items.foldl (fun tags label => tags.set label.1 label.2) tags

theorem extends_setAll (tags : Tags) (items : List (String × String)) :
    tags.Extends (setAll items tags) := by
  induction items generalizing tags with
  | nil => exact .refl tags
  | cons label rest ih => exact Tags.extends_set.trans (ih _)

theorem mem_keys_setAll_set {key value : String} (items : List (String × String)) :
    key ∈ (setAll items (tags.set key value)).keys ↔ key ∈ (tags.set key value).keys := by
  have grown : (tags.set key value).Extends (setAll items (tags.set key value)) :=
    extends_setAll _ items
  constructor
  · intro isKey
    rcases Tags.mem_keys_or_full_set tags key value with already | full
    · exact already
    · rw [grown.full full] at isKey
      exact isKey
  · exact grown.kept key

theorem get_setAll (items : List (String × String)) (distinct : (items.map Prod.fst).Nodup)
    (key : String) :
    (setAll items tags).get key =
      if key ∈ (setAll items tags).keys then (items.lookup key).or (tags.get key) else none := by
  induction items generalizing tags with
  | nil =>
    by_cases isKey : key ∈ tags.keys
    · simp [setAll, isKey]
    · simp [setAll, Tags.get, isKey]
  | cons label rest ih =>
    rcases label with ⟨name, value⟩
    have step : setAll ((name, value) :: rest) tags = setAll rest (tags.set name value) := rfl
    rw [step, ih distinct.of_cons]
    by_cases isKey : key ∈ (setAll rest (tags.set name value)).keys
    case neg => simp only [isKey, if_false]
    by_cases same : key = name
    · subst same
      have registered := (mem_keys_setAll_set rest).mp isKey
      rw [Dictionary.lookup_eq_none_of_distinct distinct, lookup_cons_self,
        Tags.get_set_self, if_pos registered]
      rfl
    · have skipped : (key == name) = false := beq_false_of_ne same
      simp only [lookup_cons, skipped, Tags.get_set_of_ne same]

theorem foldl_setDynamicTag (connected : profiler.Connected) (items : List (String × String)) :
    items.foldl (fun profiler label => profiler.setDynamicTag label.1 label.2) profiler =
      { profiler with tags := setAll items profiler.tags } := by
  induction items generalizing profiler with
  | nil => rfl
  | cons label rest ih =>
    have still : (profiler.setDynamicTag label.1 label.2).Connected :=
      connected_callNative.mpr connected
    rw [foldl_cons, ih still, setDynamicTag, callNative_of_connected connected]
    rfl

theorem mem_keys_or_full_setAll {key : String} (items : List (String × String))
    (isItem : key ∈ items.map Prod.fst) :
    key ∈ (setAll items tags).keys ∨ (setAll items tags).Full := by
  induction items generalizing tags with
  | nil => simp at isItem
  | cons label rest ih =>
    rcases mem_cons.mp isItem with rfl | inRest
    · rcases Tags.mem_keys_or_full_set tags label.1 label.2 with isKey | full
      · exact .inl ((mem_keys_setAll_set rest).mpr isKey)
      · exact .inr ((extends_setAll _ rest).full_of_full full)
    · exact ih inRest

theorem activate_of_connected (connected : profiler.Connected) :
    set.activate profiler =
      { profiler with tags := setAll set.labels.items profiler.tags.clearAll } := by
  have still : profiler.clearDynamicTags.Connected :=
    connected_callNative.mpr connected
  rw [LabelSet.activate, foldl_setDynamicTag still, clearDynamicTags,
    callNative_of_connected connected]

theorem get_activate (connected : profiler.Connected) (key : String) :
    (set.activate profiler).tags.get key =
      if key ∈ (set.activate profiler).tags.keys then set.labels.get key else none := by
  rw [activate_of_connected connected]
  simp only [get_setAll _ set.labels.distinct, Tags.get_clearAll, Option.or_none, Dictionary.get]

theorem get_resetLabels (connected : profiler.Connected) (key : String) :
    (resetLabels set profiler).tags.get key =
      if key ∈ (resetLabels set profiler).tags.keys then set.builtUpon key else none := by
  cases set with
  | empty =>
    have cleared : resetLabels .empty profiler = { profiler with tags := profiler.tags.clearAll } :=
      callNative_of_connected connected
    rw [cleared, Tags.get_clearAll]
    exact (ite_self none).symm
  | built previous added => exact get_activate connected key

/-- The tags are the labels of the set, of which only those without room are missing. -/
structure InForce (set : LabelSet) (tags : Tags) : Prop where
  labelled : ∀ key, tags.get key = if key ∈ tags.keys then set.labels.get key else none
  room : ∀ key, set.labels.get key ≠ none → key ∈ tags.keys ∨ tags.Full

theorem inForce_empty (noTags : ∀ key, tags.get key = none) : InForce .empty tags := by
  constructor
  · intro key
    rw [noTags key]
    exact (ite_self none).symm
  · intro key labelled
    exact absurd rfl labelled

theorem inForce_activate (connected : profiler.Connected) (set : LabelSet) :
    InForce set (set.activate profiler).tags := by
  constructor
  · exact get_activate connected
  · intro key labelled
    rw [activate_of_connected connected]
    apply mem_keys_or_full_setAll
    by_contra missing
    apply labelled
    rw [Dictionary.get, lookup_eq_none_iff]
    intro item isItem
    rw [bne_iff_ne]
    rintro rfl
    exact missing (mem_map_of_mem isItem)

theorem InForce.get_eq {later : Tags} (before : InForce set tags) (after : InForce set later)
    (grown : tags.Extends later) (key : String) : later.get key = tags.get key := by
  rw [before.labelled, after.labelled]
  by_cases isKey : key ∈ tags.keys
  · rw [if_pos isKey, if_pos (grown.kept key isKey)]
  · rw [if_neg isKey]
    split
    case isFalse => rfl
    case isTrue added =>
      by_contra labelled
      rcases before.room key labelled with already | full
      · exact isKey already
      · rw [grown.full full] at added
        exact isKey added

end Activation

section Calls

variable {action : Action} {profiler : Profiler} {call : DoCall} {enclosing : LabelSet}

theorem reinstates_callDo (labels : LabelSet) (body : Action) (profiler : Profiler) :
    DoCall.Reinstates ⟨labels, profiler,
      resetLabels labels (run body (labels.activate profiler)).profiler⟩ := by
  intro key
  have entered := (Touched.activate profiler labels).trans (.run _ body)
  by_cases connected : profiler.Connected
  · simp only [connected, if_true]
    exact get_resetLabels (entered.connected_iff.mpr connected) key
  · simp only [connected, if_false]
    rw [(entered.trans (.resetLabels _ labels)).tags_eq connected]

theorem reinstates_of_mem (called : call ∈ (run action profiler).calls) : call.Reinstates := by
  induction action generalizing profiler with
  | «return» => simp [run] at called
  | throw => simp [run] at called
  | setDynamicTag key value rest ih => exact ih called
  | clearDynamicTags rest ih => exact ih called
  | callDo labels body caught rest ihBody ihRest =>
    have itself := reinstates_callDo labels body profiler
    simp only [run] at called
    split at called
    · rcases mem_append.mp called with inside | last
      · exact ihBody inside
      · rw [mem_singleton.mp last]
        exact itself
    · rcases mem_append.mp called with first | afterwards
      · rcases mem_append.mp first with inside | last
        · exact ihBody inside
        · rw [mem_singleton.mp last]
          exact itself
      · exact ihRest afterwards

theorem restores_of_mem (connected : profiler.Connected) (builds : action.BuildsUpon enclosing)
    (inForce : InForce enclosing profiler.tags) (called : call ∈ (run action profiler).calls) :
    call.Restores := by
  induction action generalizing profiler enclosing with
  | «return» => simp [run] at called
  | throw => simp [run] at called
  | setDynamicTag key value rest _ => exact builds.elim
  | clearDynamicTags rest _ => exact builds.elim
  | callDo labels body caught rest ihBody ihRest =>
    rcases builds with ⟨previous, buildsBody, buildsRest⟩
    have activated := Touched.activate profiler labels
    have entered := activated.trans (.run _ body)
    have left := entered.trans (.resetLabels _ labels)
    have again : InForce enclosing
        (resetLabels labels (run body (labels.activate profiler)).profiler).tags := by
      simp only [resetLabels, previous]
      exact inForce_activate (entered.connected_iff.mpr connected) enclosing
    have inside (called : call ∈ (run body (labels.activate profiler)).calls) : call.Restores :=
      ihBody (activated.connected_iff.mpr connected) buildsBody
        (inForce_activate connected labels) called
    have itself : DoCall.Restores ⟨labels, profiler,
        resetLabels labels (run body (labels.activate profiler)).profiler⟩ :=
      inForce.get_eq again (left.extends_tags connected)
    simp only [run] at called
    split at called
    · rcases mem_append.mp called with first | last
      · exact inside first
      · rw [mem_singleton.mp last]
        exact itself
    · rcases mem_append.mp called with upToCall | afterwards
      · rcases mem_append.mp upToCall with first | last
        · exact inside first
        · rw [mem_singleton.mp last]
          exact itself
      · exact ihRest (left.connected_iff.mpr connected) buildsRest again afterwards

theorem do_reinstates_built_upon (action : Action) (profiler : Profiler) :
    (∀ call ∈ (run action profiler).calls, call.Reinstates) ∧
      ∀ enclosing, profiler.Connected → InForce enclosing profiler.tags →
        action.BuildsUpon enclosing → ∀ call ∈ (run action profiler).calls, call.Restores := by
  refine ⟨fun call called => reinstates_of_mem called, ?_⟩
  intro enclosing connected inForce builds call called
  exact restores_of_mem connected builds inForce called

end Calls

section Runs

def connected : Profiler := ⟨false, true, true, true, .empty⟩

def vehicle : LabelSet := .built .empty [("vehicle", "bike")]

def nested (inner : LabelSet) : Action :=
  .callDo vehicle (.callDo inner .throw true .return) false .return

theorem nested_do_restores :
    let inner := LabelSet.built vehicle [("region", "eu")]
    connected.Connected ∧ InForce .empty connected.tags ∧ (nested inner).BuildsUpon .empty ∧
      ∀ call ∈ (run (nested inner) connected).calls, call.Restores := by
  intro inner
  have noTags : InForce .empty connected.tags := inForce_empty fun _ => rfl
  have builds : (nested inner).BuildsUpon .empty := ⟨rfl, ⟨rfl, trivial, trivial⟩, trivial⟩
  exact ⟨by decide, noTags, builds,
    (do_reinstates_built_upon (nested inner) connected).2 .empty (by decide) noTags builds⟩

/-- The inner set is not built upon the outer one, whose label does not come back. -/
theorem outer_label_lost :
    ∃ call ∈ (run (nested (.built .empty [("region", "eu")])) connected).calls,
      call.before.tags.get "vehicle" = some "bike" ∧ call.after.tags.get "vehicle" = none ∧
        ¬call.Restores := by
  refine ⟨_, mem_cons_self .., rfl, rfl, ?_⟩
  intro restores
  have same := restores "vehicle"
  cases same

end Runs


end Pyroscope.Labels

namespace Pyroscope.Labels.Builders

/-! ## Builders of label sets -/

open Transition Function Option

structure SetObject where
  labels : Nat
  meaning : LabelSet

structure Builder where
  labels : Nat
  prev : LabelSet
  added : List (String × String)
  built : Bool

def Builder.meaning (builder : Builder) : LabelSet := .built builder.prev builder.added

structure Heap where
  dictionaries : Nat → Dictionary String String
  allocated : Nat
  sets : List SetObject
  builders : Nat → Option Builder
  builderCount : Nat

inductive Call where
  | buildUpon (set : Nat)
  | add (builder : Nat) (key value : String)
  | build (builder : Nat)
  deriving DecidableEq

namespace Heap

def initial : Heap where
  dictionaries _ := .empty
  allocated := 1
  sets := [⟨0, .empty⟩]
  builders _ := none
  builderCount := 0

def next (heap : Heap) : Call → Option Heap
  | .buildUpon set =>
    heap.sets[set]?.map fun set =>
      { heap with
        dictionaries :=
          update heap.dictionaries heap.allocated (heap.dictionaries set.labels)
        allocated := heap.allocated + 1
        builders := update heap.builders heap.builderCount
          (some ⟨heap.allocated, set.meaning, [], false⟩)
        builderCount := heap.builderCount + 1 }
  | .add index key value =>
    (heap.builders index).map fun builder =>
      { heap with
        dictionaries := update heap.dictionaries builder.labels
          ((heap.dictionaries builder.labels).set key value)
        builders := update heap.builders index
          (some { builder with added := builder.added ++ [(key, value)] }) }
  | .build index =>
    (heap.builders index).map fun builder =>
      { heap with
        sets := heap.sets ++ [⟨builder.labels, builder.meaning⟩]
        builders := update heap.builders index (some { builder with built := true }) }

def activate (heap : Heap) (set : SetObject) (profiler : Profiler) : Profiler :=
  (heap.dictionaries set.labels).items.foldl
    (fun profiler label => profiler.setDynamicTag label.1 label.2) profiler.clearDynamicTags

end Heap

def system : System Heap Call := .ofFunction .initial Heap.next

/-- No label is added to a builder which has built a set. -/
def Unused (heap : Heap) : Call → Prop
  | .add index _ _ => ∀ builder ∈ heap.builders index, builder.built = false
  | _ => True

instance (heap : Heap) : ∀ call, Decidable (Unused heap call)
  | .add index _ _ => inferInstanceAs (Decidable (∀ builder ∈ heap.builders index, _))
  | .buildUpon _ | .build _ => inferInstanceAs (Decidable True)

/-- The dictionary at an address belongs to one builder at most, and to sets only if it has built
them. -/
structure Intact (heap : Heap) : Prop where
  sets : ∀ set ∈ heap.sets,
    set.labels < heap.allocated ∧ heap.dictionaries set.labels = set.meaning.labels
  builders : ∀ index builder, heap.builders index = some builder →
    builder.labels < heap.allocated ∧ heap.dictionaries builder.labels = builder.meaning.labels
  own : ∀ index other builder second, heap.builders index = some builder →
    heap.builders other = some second → builder.labels = second.labels → index = other
  unshared : ∀ index builder, heap.builders index = some builder → builder.built = false →
    ∀ set ∈ heap.sets, set.labels ≠ builder.labels

namespace Intact

variable {heap next : Heap} {builder : Builder} {key value : String}

theorem meaning_add :
    { builder with added := builder.added ++ [(key, value)] }.meaning.labels =
      builder.meaning.labels.set key value := by
  simp [Builder.meaning, LabelSet.labels]

theorem initial : Intact Heap.initial where
  sets set isSet := by
    cases List.mem_singleton.mp isSet
    exact ⟨Nat.one_pos, rfl⟩
  builders := nofun
  own := nofun
  unshared := nofun

theorem step (intact : Intact heap) {call : Call} (unused : Unused heap call)
    (taken : heap.next call = some next) : Intact next := by
  rcases intact with ⟨sets, builders, own, unshared⟩
  cases call with
  | buildUpon index =>
    rcases map_eq_some_iff.mp taken with ⟨set, found, rfl⟩
    have same := sets set (List.mem_of_getElem? found)
    -- The copy lies behind everything which has been allocated before.
    have copied : LabelSet.labels (Builder.meaning ⟨heap.allocated, set.meaning, [], false⟩) =
        heap.dictionaries set.labels := same.2.symm
    constructor <;> grind [update_apply]
  | add index key value =>
    rcases map_eq_some_iff.mp taken with ⟨builder, found, rfl⟩
    have notBuilt := unused builder found
    -- Neither a set nor another builder has the dictionary which is changed.
    have apart := unshared index builder found notBuilt
    have added := @meaning_add builder key value
    constructor <;> grind [update_apply]
  | build index =>
    rcases map_eq_some_iff.mp taken with ⟨builder, found, rfl⟩
    have same := builders index builder found
    have kept : Builder.meaning { builder with built := true } = builder.meaning := rfl
    constructor <;> grind [update_apply]

end Intact

/-- If no label is added to a builder behind its first `Build`, every set keeps activating the
labels of the set its builder has started from, overridden by those added before the `Build`. -/
theorem built_sets_activate_their_labels (calls : List Call) (heap : Heap)
    (run : (system.restrict Unused).Run system.init calls heap) (set : SetObject)
    (isSet : set ∈ heap.sets) (profiler : Profiler) :
    heap.activate set profiler = set.meaning.activate profiler := by
  have intact : Intact heap := by
    refine run.invariant Intact .initial ?_
    rintro heap call next intact ⟨unused, taken⟩
    exact intact.step unused taken
  rw [Heap.activate, (intact.sets set isSet).2, LabelSet.activate]

/-- Two sets of one builder, and a set which is built upon the first. -/
theorem built_sets_stay_apart : ∃ heap,
    (system.restrict Unused).Run system.init
      [.buildUpon 0, .add 0 "a" "1", .build 0, .build 0, .buildUpon 1, .add 1 "a" "2"] heap ∧
    ∀ set ∈ heap.sets, ∀ profiler, heap.activate set profiler = set.meaning.activate profiler := by
  have run : (system.restrict Unused).Run system.init
      [.buildUpon 0, .add 0 "a" "1", .build 0, .build 0, .buildUpon 1, .add 1 "a" "2"] _ :=
    System.run_restrict_of_exec rfl (by decide +kernel)
  exact ⟨_, run, built_sets_activate_their_labels _ _ run⟩

/-- A label which is added behind the `Build` is activated with the set. -/
theorem late_label_is_activated : ∃ heap set,
    system.Run system.init [.buildUpon 0, .build 0, .add 0 "a" "1"] heap ∧ set ∈ heap.sets ∧
      set.meaning = .built .empty [] ∧
      ((set.meaning.activate ⟨false, true, true, true, .empty⟩).tags.get "a" = none) ∧
      ((heap.activate set ⟨false, true, true, true, .empty⟩).tags.get "a" = some "1") := by
  exact ⟨_, ⟨1, .built .empty []⟩, System.run_of_exec rfl, .tail _ (.head _), rfl, by decide,
    by decide⟩

end Pyroscope.Labels.Builders
