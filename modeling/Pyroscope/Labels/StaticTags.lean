import Mathlib.Data.List.Basic

/-!
# Static tags

A tag is split at its first colon, and at its first equals sign only if it has no colon at all.
-/

namespace Pyroscope.Labels.TagsHelper

open List

abbrev Text := List Char

def cut (separator : Char) (text : Text) : Option (Text × Text) :=
  (text.idxOf? separator).map fun index => (text.take index, text.drop (index + 1))

def parseTag (text : Text) : Text × Text :=
  match cut ':' text with
  | some tag => tag
  | none =>
    match cut '=' text with
    | some tag => tag
    | none => (text, [])

section Cut

variable {separator : Char} {text first rest : Text}

theorem cut_of_notMem (absent : separator ∉ text) : cut separator text = none := by
  rw [cut, idxOf?_eq_none_iff.mpr absent, Option.map_none]

theorem cut_append (absent : separator ∉ first) :
    cut separator (first ++ separator :: rest) = some (first, rest) := by
  have found : (first ++ separator :: rest).idxOf? separator = some first.length := by
    induction first with
    | nil => simp [idxOf?_cons]
    | cons head tail ih =>
      rw [mem_cons, not_or] at absent
      simp [idxOf?_cons, ih absent.2, Ne.symm absent.1]
  simp [cut, found]

theorem length_rest_lt (isCut : cut separator text = some (first, rest)) :
    rest.length < text.length := by
  by_cases isSome : separator ∈ text
  · rcases append_of_mem isSome with ⟨_, _, rfl⟩
    rcases Option.map_eq_some_iff.mp isCut with ⟨index, _, parts⟩
    cases parts
    simp only [length_drop, length_append, length_cons]
    omega
  · cases (cut_of_notMem isSome).symm.trans isCut

end Cut

def parse (text : Text) : List (Text × Text) :=
  match isCut : cut ',' text with
  | none => if text = [] then [] else [parseTag text]
  | some (tag, rest) =>
    have _shorter := length_rest_lt isCut
    (if tag = [] then [] else [parseTag tag]) ++ parse rest
termination_by text.length

structure Entry where
  key : Text
  value : Text
  hasColon : Bool
  deriving DecidableEq

namespace Entry

def text (entry : Entry) : Text :=
  entry.key ++ (if entry.hasColon then ':' else '=') :: entry.value

/-- The entry can be told from the separators. -/
structure WellFormed (entry : Entry) : Prop where
  nonempty : entry.key ≠ []
  noComma : ',' ∉ entry.key ∧ ',' ∉ entry.value
  noColon : ':' ∉ entry.key
  noEquals : '=' ∉ entry.key

variable {entry : Entry}

theorem WellFormed.text_ne_nil (wellFormed : entry.WellFormed) : entry.text ≠ [] := by
  simp [text, wellFormed.nonempty]

theorem WellFormed.notMem_text (wellFormed : entry.WellFormed) : ',' ∉ entry.text := by
  cases written : entry.hasColon <;> simp [text, written, wellFormed.noComma]

/-- A tag is read back unless a colon of its value is taken for the separator. -/
theorem WellFormed.parseTag_text_iff (wellFormed : entry.WellFormed) :
    parseTag entry.text = (entry.key, entry.value) ↔
      (entry.hasColon = false → ':' ∉ entry.value) := by
  cases written : entry.hasColon with
  | true => simp [parseTag, text, written, cut_append wellFormed.noColon]
  | false =>
    by_cases inValue : ':' ∈ entry.value
    · -- The key which is found contains the equals sign.
      rcases eq_append_cons_of_mem inValue with ⟨front, back, isValue, absent⟩
      have isText : entry.text = (entry.key ++ '=' :: front) ++ ':' :: back := by
        simp [text, written, isValue]
      have noColon : ':' ∉ entry.key ++ '=' :: front := by
        simp [wellFormed.noColon, absent]
      rw [parseTag, isText, cut_append noColon]
      simp [inValue]
    · have noColon : ':' ∉ entry.key ++ '=' :: entry.value := by
        simp [wellFormed.noColon, inValue]
      simp [parseTag, text, written, cut_of_notMem noColon, cut_append wellFormed.noEquals, inValue]

end Entry

theorem parse_last {tag : Text} (noComma : ',' ∉ tag) (nonempty : tag ≠ []) :
    parse tag = [parseTag tag] := by
  rw [parse]
  split
  case h_1 => rw [if_neg nonempty]
  case h_2 isCut => cases (cut_of_notMem noComma).symm.trans isCut

theorem parse_append {tag rest : Text} (noComma : ',' ∉ tag) (nonempty : tag ≠ []) :
    parse (tag ++ ',' :: rest) = parseTag tag :: parse rest := by
  rw [parse]
  split
  case h_1 isCut => cases (cut_append noComma).symm.trans isCut
  case h_2 isCut =>
    cases (cut_append noComma).symm.trans isCut
    rw [if_neg nonempty, singleton_append]

def join (entries : List Entry) : Text := [','].intercalate (entries.map Entry.text)

theorem parse_join {entries : List Entry} (wellFormed : ∀ entry ∈ entries, entry.WellFormed) :
    parse (join entries) = entries.map fun entry => parseTag entry.text := by
  induction entries with
  | nil => simp [join, parse, cut]
  | cons entry rest ih =>
    rw [forall_mem_cons] at wellFormed
    have noComma := wellFormed.1.notMem_text
    have nonempty := wellFormed.1.text_ne_nil
    cases rest with
    | nil => simpa [join] using parse_last noComma nonempty
    | cons next others =>
      have joined : join (entry :: next :: others) =
          entry.text ++ ',' :: join (next :: others) := by
        simp [join, intercalate_cons_cons]
      rw [joined, parse_append noComma nonempty, ih wellFormed.2]
      rfl

/-- The tags are read back in order exactly if no value which is written behind an equals sign
contains a colon. -/
theorem tags_read_back_iff (entries : List Entry)
    (wellFormed : ∀ entry ∈ entries, entry.WellFormed) :
    parse (join entries) = entries.map (fun entry => (entry.key, entry.value)) ↔
      ∀ entry ∈ entries, entry.hasColon = false → ':' ∉ entry.value := by
  rw [parse_join wellFormed, map_inj_left]
  exact forall₂_congr fun entry isEntry => (wellFormed entry isEntry).parseTag_text_iff

theorem both_separators_read_back :
    parse (join [⟨['k'], ['a', ':', 'b'], true⟩, ⟨['l'], ['c', '=', 'd'], false⟩]) =
      [(['k'], ['a', ':', 'b']), (['l'], ['c', '=', 'd'])] := by
  refine (tags_read_back_iff _ ?_).mpr (by decide)
  rintro entry isEntry
  rcases mem_pair.mp isEntry with rfl | rfl
  · exact ⟨by decide, by decide, by decide, by decide⟩
  · exact ⟨by decide, by decide, by decide, by decide⟩

/-- The colon of the value is taken for the separator. -/
theorem colon_in_value_misread :
    (⟨['k'], ['a', ':', 'b'], false⟩ : Entry).WellFormed ∧
      parse (join [⟨['k'], ['a', ':', 'b'], false⟩]) = [(['k', '=', 'a'], ['b'])] := by
  have wellFormed : (⟨['k'], ['a', ':', 'b'], false⟩ : Entry).WellFormed :=
    ⟨by decide, by decide, by decide, by decide⟩
  refine ⟨wellFormed, ?_⟩
  rw [parse_join (forall_mem_singleton.mpr wellFormed)]
  decide

end Pyroscope.Labels.TagsHelper
