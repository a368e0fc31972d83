import Mathlib.Data.List.Rotate

/-!
# Going round a list

A position in a list which is read in a circle stands for the list rotated to that position.
-/

universe u

namespace Pyroscope.Carousel

open List

variable {Item : Type u} {items left right before after order later last : List Item}
  {item removed : Item} {position : Nat} {wanted : Item → Bool} {answer again : Option Item}

theorem rotate_append_singleton (inside : position ≤ items.length) :
    (items ++ [item]).rotate position = items.drop position ++ item :: items.take position := by
  rw [rotate_eq_drop_append_take (by simp; omega), drop_append_of_le_length inside,
    take_append_of_le_length inside]
  simp

theorem rotate_of_le_left (inside : position ≤ left.length) :
    (left ++ right).rotate position = left.drop position ++ (right ++ left.take position) := by
  rw [rotate_eq_drop_append_take (by simp; omega), drop_append_of_le_length inside,
    take_append_of_le_length inside, append_assoc]

theorem rotate_of_left_le (inside : position ≤ right.length) :
    (left ++ right).rotate (left.length + position) =
      right.drop position ++ (left ++ right.take position) := by
  rw [rotate_eq_drop_append_take (by simp; omega), drop_length_add_append, take_length_add_append]

theorem rotate_erase_behind (inside : position ≤ left.length) :
    ∃ before after, (left ++ item :: right).rotate position = before ++ item :: after ∧
      (left ++ right).rotate position = before ++ after := by
  refine ⟨left.drop position, right ++ left.take position, ?_, ?_⟩
  · rw [rotate_of_le_left inside, cons_append]
  · exact rotate_of_le_left inside

theorem rotate_erase_before (inside : position ≤ right.length) :
    ∃ before after,
      (left ++ item :: right).rotate (left.length + (position + 1)) = before ++ item :: after ∧
        (left ++ right).rotate (left.length + position) = before ++ after := by
  refine ⟨right.drop position ++ left, right.take position, ?_, ?_⟩
  · rw [rotate_of_left_le (Nat.succ_le_succ inside)]
    simp
  · rw [rotate_of_left_le inside, append_assoc]

/--
Looking for the next wanted item of an order. The last item of the order is never found, even
if it is wanted.
-/
inductive Next (wanted : Item → Bool) : List Item → Option Item → List Item → Prop where
  | found {passed rest : List Item} {item : Item}
      (unwanted : ∀ other ∈ passed, wanted other = false) (accepted : wanted item = true)
      (more : rest ≠ []) :
      Next wanted (passed ++ item :: rest) (some item) (rest ++ (passed ++ [item]))
  | missed {passed : List Item} {last : Item}
      (unwanted : ∀ other ∈ passed, wanted other = false) :
      Next wanted (passed ++ [last]) none (passed ++ [last])

private theorem find_eq_none (unwanted : ∀ other ∈ items, wanted other = false) :
    items.find? wanted = none := by
  rw [find?_eq_none]
  intro other member
  simp [unwanted other member]

theorem Next.answer_eq (next : Next wanted order answer later) :
    answer = order.dropLast.find? wanted := by
  cases next with
  | found unwanted accepted more =>
    simp [dropLast_cons_of_ne_nil more, find_eq_none unwanted, accepted]
  | missed unwanted =>
    rw [dropLast_concat, find_eq_none unwanted]

theorem Next.mem (next : Next wanted order (some item) later) : item ∈ order := by
  cases next with
  | found unwanted accepted more => simp

theorem Next.accepted (next : Next wanted order (some item) later) : wanted item = true := by
  cases next with
  | found unwanted accepted more => exact accepted

private theorem find_dropLast (spare : items.dropLast.any wanted = items.any wanted) :
    items.dropLast.find? wanted = items.find? wanted := by
  rcases eq_nil_or_concat items with rfl | ⟨front, last, rfl⟩
  · rfl
  · rw [concat_eq_append, dropLast_concat] at spare ⊢
    rw [find?_append]
    cases found : front.find? wanted with
    | some item => rfl
    | none =>
      have nowhere : front.any wanted = false := by
        simpa [find?_eq_none] using found
      have unwanted : wanted last = false := by
        simpa [nowhere] using spare.symm
      simp [unwanted]

/--
Erasing another item does not change the next item, unless the erased item is the last one of
the order: the item before it, which is then the last one, must not be needed.
-/
theorem Next.answer_erase (next : Next wanted (before ++ removed :: after) answer later)
    (nextAfter : Next wanted (before ++ after) again last) (another : answer ≠ some removed)
    (spare : after = [] → before.dropLast.any wanted = before.any wanted) : again = answer := by
  have found := next.answer_eq
  rw [nextAfter.answer_eq]
  rcases eq_nil_or_concat after with rfl | ⟨front, back, rfl⟩
  · rw [dropLast_concat] at found
    rw [append_nil, found, find_dropLast (spare rfl)]
  · rw [concat_eq_append, ← cons_append, ← append_assoc,
      dropLast_concat] at found
    rw [concat_eq_append, ← append_assoc, dropLast_concat, found]
    rw [found] at another
    simp only [find?_append] at another ⊢
    cases inBefore : before.find? wanted with
    | some item => rfl
    | none =>
      simp only [inBefore, Option.none_or, find?_cons] at another ⊢
      cases accepted : wanted removed with
      | true => simp [accepted] at another
      | false => rfl

/-- The walk meets `first` before all it avoids, within the bound. -/
def Ahead (order : List Item) (first : Item) (avoid : List Item) (bound : Nat) : Prop :=
  ∃ before after, order = before ++ first :: after ∧ (∀ item ∈ avoid, item ∉ before) ∧
    before.length ≤ bound

variable {first : Item} {avoid : List Item} {bound : Nat}

theorem Ahead.mem (ahead : Ahead order first avoid bound) : first ∈ order := by
  rcases ahead with ⟨before, after, rfl, -, -⟩
  simp

theorem Ahead.avoid_fewer (ahead : Ahead order first (avoid ++ [item]) bound) :
    Ahead order first avoid bound := by
  rcases ahead with ⟨before, after, split, avoided, short⟩
  exact ⟨before, after, split, fun other member => avoided other (by simp [member]), short⟩

theorem Next.ahead (next : Next wanted order (some item) later) (distinct : order.Nodup) :
    Ahead later item [item] (order.length - 1) := by
  cases next with
  | @found passed rest item unwanted accepted more =>
    refine ⟨rest ++ passed, [], by simp, ?_, ?_⟩
    · have absent := (nodup_middle.mp distinct).notMem
      simp only [mem_append, mem_singleton] at absent ⊢
      rintro other rfl
      tauto
    · simp only [length_append, length_cons]
      omega

theorem Ahead.next (ahead : Ahead order first avoid bound) (distinct : order.Nodup)
    (accepted : wanted first = true) (next : Next wanted order (some item) later) :
    item = first ∨ item ∉ avoid ∧ 0 < bound ∧ Ahead later first (avoid ++ [item]) (bound - 1) := by
  rcases ahead with ⟨before, after, split, avoided, short⟩
  cases next with
  | @found passed rest item unwanted _ more =>
    rcases append_eq_append_iff.mp split with ⟨middle, rfl, tail⟩ | ⟨middle, rfl, tail⟩
    · cases middle with
      | nil =>
        rw [nil_append, cons.injEq] at tail
        exact .inl tail.1
      | cons head middle =>
        right
        rw [cons_append, cons.injEq] at tail
        rcases tail with ⟨rfl, rfl⟩
        have absent := (nodup_middle.mp distinct).notMem
        simp only [length_append, length_cons] at short
        refine ⟨fun member => avoided item member (by simp), by omega,
          middle, after ++ (passed ++ [item]), by simp, ?_, by omega⟩
        intro other member
        rcases mem_append.mp member with old | new
        · exact fun inside => avoided other old (by simp [inside])
        · rw [mem_singleton.mp new]
          exact fun inside => absent (by simp [inside])
    · cases middle with
      | nil =>
        rw [nil_append, cons.injEq] at tail
        exact .inl tail.1.symm
      | cons head middle =>
        rw [cons_append, cons.injEq] at tail
        rcases tail with ⟨rfl, -⟩
        rw [unwanted first (by simp)] at accepted
        exact absurd accepted Bool.false_ne_true

theorem Ahead.insert (ahead : Ahead (left ++ right) first avoid bound) (fresh : item ∉ avoid) :
    Ahead (left ++ item :: right) first avoid (bound + 1) := by
  rcases ahead with ⟨before, after, split, avoided, short⟩
  rcases append_eq_append_iff.mp split with ⟨middle, rfl, tail⟩ | ⟨middle, rfl, tail⟩
  · refine ⟨left ++ item :: middle, after, by simp [tail], ?_, ?_⟩
    · intro other member inside
      rcases mem_append.mp inside with inLeft | inRest
      · exact avoided other member (by simp [inLeft])
      · rcases mem_cons.mp inRest with rfl | inMiddle
        · exact fresh member
        · exact avoided other member (by simp [inMiddle])
    · simp only [length_append, length_cons] at short ⊢
      omega
  · cases middle with
    | nil =>
      rw [nil_append] at tail
      refine ⟨before ++ [item], after, by simp [tail], ?_, by simpa using short⟩
      intro other member inside
      rcases mem_append.mp inside with old | new
      · exact avoided other member old
      · exact fresh (mem_singleton.mp new ▸ member)
    | cons head middle =>
      rw [cons_append, cons.injEq] at tail
      rcases tail with ⟨rfl, rfl⟩
      exact ⟨before, middle ++ item :: right, by simp, avoided, short.trans (Nat.le_succ _)⟩

theorem Ahead.erase (ahead : Ahead (left ++ item :: right) first avoid bound)
    (another : item ≠ first) : Ahead (left ++ right) first avoid bound := by
  rcases ahead with ⟨before, after, split, avoided, short⟩
  rcases append_eq_append_iff.mp split with ⟨middle, rfl, tail⟩ | ⟨middle, rfl, tail⟩
  · cases middle with
    | nil =>
      rw [nil_append, cons.injEq] at tail
      exact absurd tail.1 another
    | cons head middle =>
      rw [cons_append, cons.injEq] at tail
      rcases tail with ⟨rfl, rfl⟩
      refine ⟨left ++ middle, after, by simp, ?_, ?_⟩
      · intro other member inside
        apply avoided other member
        rcases mem_append.mp inside with inLeft | inMiddle
        · simp [inLeft]
        · simp [inMiddle]
      · simp only [length_append, length_cons] at short ⊢
        omega
  · cases middle with
    | nil =>
      rw [nil_append, cons.injEq] at tail
      exact absurd tail.1.symm another
    | cons head middle =>
      rw [cons_append, cons.injEq] at tail
      rcases tail with ⟨rfl, rfl⟩
      exact ⟨before, middle ++ right, by simp, avoided, short⟩

end Pyroscope.Carousel
