import Pyroscope.Lib.NativeWord

/-!
# Computations which read a memory

A reading has the indices of the bytes which were read, and a result unless the loops ran out of
fuel.
-/

namespace Pyroscope

structure Reading (α : Type) where
  value : Option α
  indices : List Nat

namespace Reading

variable {α β σ : Type}

def exhausted : Reading α := ⟨none, []⟩

instance : Monad Reading where
  pure result := ⟨some result, []⟩
  bind reading rest :=
    match reading.value with
    | none => ⟨none, reading.indices⟩
    | some result => ⟨(rest result).value, reading.indices ++ (rest result).indices⟩

def bytes (memory : Nat → UInt8) (start length : Nat) : Reading (List UInt8) :=
  ⟨some ((List.range' start length).map memory), List.range' start length⟩

def word (order : NativeWord.ByteOrder) (memory : Nat → UInt8) (start length : Nat) : Reading Nat :=
  NativeWord.ofBytes order <$> bytes memory start length

/-- The loop `for (; i < count; i++)` over a counter with `limit` values. Its body goes on
with a new state or leaves the loop. -/
def forLoop (limit count : Nat) (body : Nat → σ → Reading (ForInStep σ)) :
    Nat → Nat → σ → Reading σ
  | 0, _, _ => exhausted
  | fuel + 1, i, state =>
    if i < count then
      body i state >>= fun
        | .yield after => forLoop limit count body fuel ((i + 1) % limit) after
        | .done after => pure after
    else
      pure state

def untilZero (word : Nat → Reading Nat) : Nat → Nat → Reading (List Nat)
  | 0, _ => exhausted
  | fuel + 1, position =>
    word position >>= fun first =>
      if first = 0 then pure [] else (first :: ·) <$> untilZero word fuel (position + 1)

def andThen (reading : Reading (Option α)) (rest : α → Reading (Option β)) : Reading (Option β) :=
  reading >>= fun found => found.elim (pure none) rest

/-- The same reading of a memory which lies behind `base` bytes of a larger one. -/
def shift (base : Nat) (reading : Reading α) : Reading α :=
  ⟨reading.value, reading.indices.map (base + ·)⟩

/-- Nothing is read behind the bound. -/
def Within (bound : Nat) (reading : Reading α) : Prop :=
  ∀ index ∈ reading.indices, index < bound

/-- The reading stays inside and succeeds. -/
def Ensures (bound : Nat) (reading : Reading α) (post : α → Prop) : Prop :=
  reading.Within bound ∧ ∃ result, reading.value = some result ∧ post result

/-- A reading finishes, and is within the bound exactly under the condition. -/
def Exactly (bound : Nat) (reading : Reading α) (condition : Prop) : Prop :=
  (∃ result, reading.value = some result) ∧ (reading.Within bound ↔ condition)

/-- What a loop's body has to leave behind, whether the loop goes on or not. -/
def Leaves (invariant post : σ → Prop) : ForInStep σ → Prop
  | .yield after => invariant after
  | .done after => post after

section Values

variable {reading : Reading α} {rest : α → Reading β} {result : α} {bound : Nat}

@[simp]
theorem value_pure : (pure result : Reading α).value = some result := rfl

theorem value_bind (got : reading.value = some result) :
    (reading >>= rest).value = (rest result).value := by
  simp only [bind, got]

theorem value_bind_eq (reading : Reading α) (rest : α → Reading β) :
    (reading >>= rest).value = reading.value.bind fun result => (rest result).value := by
  rcases reading with ⟨_ | result, indices⟩ <;> rfl

theorem value_map (map : α → β) (reading : Reading α) :
    (map <$> reading).value = reading.value.map map := by
  rcases reading with ⟨_ | result, indices⟩ <;> rfl

theorem value_word (order : NativeWord.ByteOrder) (memory : Nat → UInt8) (start length : Nat) :
    (word order memory start length).value =
      some (NativeWord.ofBytes order ((List.range' start length).map memory)) := rfl

end Values

section Bounds

variable {reading : Reading α} {rest : α → Reading β} {result : α} {bound : Nat}
  {start length : Nat} {memory : Nat → UInt8}

@[simp]
theorem within_pure : (pure result : Reading α).Within bound := by
  intro index isRead
  cases isRead

theorem within_bind :
    (reading >>= rest).Within bound ↔
      reading.Within bound ∧
        ∀ result, reading.value = some result → (rest result).Within bound := by
  rcases reading with ⟨_ | result, indices⟩
  · simp [bind, Within]
  · simp [bind, Within, or_imp, forall_and]

theorem within_bytes :
    (bytes memory start length).Within bound ↔ length = 0 ∨ start + length ≤ bound := by
  simp only [Within, bytes, List.mem_range'_1]
  constructor
  · intro inside
    by_cases empty : length = 0
    · exact .inl empty
    · have last := inside (start + length - 1) (by omega)
      omega
  · rintro (rfl | fits) index isRead <;> omega

theorem within_map {f : α → β} : (f <$> reading).Within bound ↔ reading.Within bound := by
  have same : f <$> reading = reading >>= fun result => pure (f result) := rfl
  rw [same, within_bind]
  simp

theorem within_word {order : NativeWord.ByteOrder} :
    (word order memory start length).Within bound ↔ length = 0 ∨ start + length ≤ bound :=
  within_map.trans within_bytes

end Bounds

section Rules

variable {reading : Reading α} {rest : α → Reading β} {bound : Nat}

namespace Ensures

variable {post other : α → Prop} {after : β → Prop}

theorem within (ensured : Ensures bound reading post) : reading.Within bound := ensured.1

theorem finishes (ensured : Ensures bound reading post) :
    ∃ result, reading.value = some result := by
  rcases ensured.2 with ⟨result, got, -⟩
  exact ⟨result, got⟩

protected theorem pure {result : α} (holds : post result) :
    Ensures bound (pure result : Reading α) post :=
  ⟨within_pure, result, rfl, holds⟩

section

variable (ensured : Ensures bound reading post)
include ensured

protected theorem bind (onward : ∀ result, post result → Ensures bound (rest result) after) :
    Ensures bound (reading >>= rest) after := by
  rcases ensured with ⟨inside, result, got, holds⟩
  rcases onward result holds with ⟨restInside, last, gotLast, lastHolds⟩
  refine ⟨within_bind.mpr ⟨inside, ?_⟩, last, ?_, lastHolds⟩
  · intro again gotAgain
    rw [got] at gotAgain
    cases gotAgain
    exact restInside
  · rw [value_bind got, gotLast]

theorem weaken (implied : ∀ result, post result → other result) : Ensures bound reading other := by
  rcases ensured with ⟨inside, result, got, holds⟩
  exact ⟨inside, result, got, implied result holds⟩

protected theorem map {f : α → β} (implied : ∀ result, post result → after (f result)) :
    Ensures bound (f <$> reading) after := by
  apply ensured.bind
  intro result holds
  exact .pure (implied result holds)

protected theorem shift {base : Nat} : Ensures (base + bound) (reading.shift base) post := by
  rcases ensured with ⟨inside, result, got, holds⟩
  refine ⟨?_, result, got, holds⟩
  intro index isRead
  rcases List.mem_map.mp isRead with ⟨position, read, rfl⟩
  exact Nat.add_lt_add_left (inside position read) base

theorem widen {larger : Nat} (le : bound ≤ larger) : Ensures larger reading post :=
  ⟨fun index isRead => Nat.lt_of_lt_of_le (ensured.1 index isRead) le, ensured.2⟩

end

theorem andThen {reading : Reading (Option α)} {rest : α → Reading (Option β)}
    {after : Option β → Prop} (post : α → Prop)
    (ensured : Ensures bound reading fun found => ∀ result, found = some result → post result)
    (nothing : after none)
    (onward : ∀ result, post result → Ensures bound (rest result) after) :
    Ensures bound (reading.andThen rest) after := by
  apply Ensures.bind ensured
  intro found holds
  cases found with
  | none => exact .pure nothing
  | some result => exact onward result (holds result rfl)

theorem followedBy {reading : Reading (Option α)} {rest : α → Reading (Option β)}
    (ensured : Ensures bound reading fun _ => True)
    (onward : ∀ result, Ensures bound (rest result) fun _ => True) :
    Ensures bound (reading.andThen rest) fun _ => True := by
  apply Ensures.bind ensured
  intro found _
  cases found with
  | none => exact .pure trivial
  | some result => exact onward result

theorem bytes (memory : Nat → UInt8) (fits : start + length ≤ bound) :
    Ensures bound (Reading.bytes memory start length) (· = (List.range' start length).map memory) :=
  ⟨within_bytes.mpr (.inr fits), _, rfl, rfl⟩

theorem word (order : NativeWord.ByteOrder) (memory : Nat → UInt8) (fits : start + length ≤ bound) :
    Ensures bound (Reading.word order memory start length)
      (· = NativeWord.ofBytes order ((List.range' start length).map memory)) :=
  ⟨within_word.mpr (.inr fits), _, rfl, rfl⟩

end Ensures

namespace Exactly

variable {condition : Prop} {post : α → Prop}

theorem of_ensures (ensured : Ensures bound reading fun _ => True) (holds : condition) :
    Exactly bound reading condition :=
  ⟨ensured.finishes, iff_of_true ensured.within holds⟩

theorem ensures (exactly : Exactly bound reading condition) (holds : condition) :
    Ensures bound reading fun _ => True := by
  rcases exactly with ⟨⟨result, got⟩, inside⟩
  exact ⟨inside.mpr holds, result, got, trivial⟩

theorem bind (exactly : Exactly bound reading condition)
    (onward : ∀ result, Ensures bound (rest result) fun _ => True) :
    Exactly bound (reading >>= rest) condition := by
  rcases exactly with ⟨⟨result, got⟩, inside⟩
  refine ⟨?_, ?_⟩
  · rw [value_bind got]
    exact (onward result).finishes
  · rw [within_bind, inside]
    exact and_iff_left fun last _ => (onward last).within

theorem after (ensured : Ensures bound reading post)
    (onward : ∀ result, post result → Exactly bound (rest result) condition) :
    Exactly bound (reading >>= rest) condition := by
  rcases ensured with ⟨inside, result, got, holds⟩
  rcases onward result holds with ⟨finishes, restInside⟩
  refine ⟨value_bind got ▸ finishes, ?_⟩
  rw [within_bind, ← restInside]
  simp [inside, got]

theorem congr {other : Prop} (exactly : Exactly bound reading condition)
    (same : condition ↔ other) : Exactly bound reading other :=
  ⟨exactly.1, exactly.2.trans same⟩

protected theorem map {f : α → β} (exactly : Exactly bound reading condition) :
    Exactly bound (f <$> reading) condition :=
  exactly.bind fun _ => .pure trivial

end Exactly

end Rules

section Loops

variable {limit count bound : Nat} {body : Nat → σ → Reading (ForInStep σ)}

theorem Ensures.forLoop (invariant : Nat → σ → Prop) {post : σ → Prop} (room : count < limit)
    (ends : ∀ state, invariant count state → post state)
    (kept : ∀ i state, i < count → invariant i state →
      Ensures bound (body i state) (Leaves (invariant (i + 1)) post)) :
    ∀ fuel i state, i ≤ count → count - i < fuel → invariant i state →
      Ensures bound (Reading.forLoop limit count body fuel i state) post := by
  intro fuel
  induction fuel with
  | zero => intro i state _ enough; omega
  | succ fuel ih =>
    intro i state reached enough holds
    simp only [Reading.forLoop]
    split
    case isTrue more =>
      apply (kept i state more holds).bind
      intro outcome left
      cases outcome with
      | yield after =>
        rw [Nat.mod_eq_of_lt (by omega)]
        exact ih (i + 1) after (by omega) (by omega) left
      | done after => exact .pure left
    case isFalse finished =>
      have last : i = count := by omega
      exact .pure (ends state (last ▸ holds))

/-- A loop which always goes on finishes, and is within a bound if each of its rounds is. -/
theorem forLoop_rounds {inside : Nat → Prop} (room : count < limit)
    (goesOn : ∀ i state, i < count → ∃ after, (body i state).value = some (.yield after))
    (round : ∀ i state, i < count → ((body i state).Within bound ↔ inside i)) :
    ∀ fuel i state, i ≤ count → count - i < fuel →
      Exactly bound (forLoop limit count body fuel i state)
        (∀ j, i ≤ j → j < count → inside j) := by
  intro fuel
  induction fuel with
  | zero => intro i state _ enough; omega
  | succ fuel ih =>
    intro i state reached enough
    simp only [forLoop]
    split
    case isTrue more =>
      rcases goesOn i state more with ⟨after, got⟩
      rcases ih (i + 1) after (by omega) (by omega) with ⟨finishes, later⟩
      rw [Exactly, value_bind got, within_bind, round i state more]
      simp only [got, Option.some.injEq, forall_eq',
        Nat.mod_eq_of_lt (show i + 1 < limit by omega), later]
      refine ⟨finishes, ?_, ?_⟩
      · rintro ⟨here, onward⟩ j since before
        rcases Nat.eq_or_lt_of_le since with rfl | past
        · exact here
        · exact onward j past before
      · intro all
        exact ⟨all i (Nat.le_refl i) more, fun j since before => all j (by omega) before⟩
    case isFalse finished =>
      refine ⟨⟨state, rfl⟩, ?_⟩
      simp only [within_pure, true_iff]
      intro j since before
      omega

theorem Ensures.untilZero {word : Nat → Reading Nat} (read : Nat → Nat) (last : Nat)
    (reads : ∀ j ≤ last, Ensures bound (word j) (· = read j)) (zero : read last = 0) :
    ∀ fuel position, position ≤ last → last - position < fuel →
      Ensures bound (Reading.untilZero word fuel position) fun _ => True := by
  intro fuel
  induction fuel with
  | zero => intro position _ enough; omega
  | succ fuel ih =>
    intro position reached enough
    simp only [Reading.untilZero]
    apply (reads position reached).bind
    rintro first rfl
    split
    case isTrue => exact .pure trivial
    case isFalse goesOn =>
      have before : position ≠ last := fun same => goesOn (same ▸ zero)
      apply (ih (position + 1) (by omega) (by omega)).map
      exact fun _ _ => trivial

end Loops

end Reading

end Pyroscope
