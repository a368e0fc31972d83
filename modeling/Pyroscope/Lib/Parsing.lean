import Mathlib.Data.List.Basic

/-!
# Parsers which read what was written

A text is read as a value if the parser takes exactly this text, whatever comes behind it.
-/

namespace Pyroscope

open Option

universe u

def Parser (Token : Type u) (α : Type u) : Type u := List Token → Option (α × List Token)

namespace Parser

variable {Token α β : Type u} {parser : Parser Token α} {text more : List Token} {value : α}
  {second : β}

def result (value : α) : Parser Token α := fun input => some (value, input)

def refuse : Parser Token α := fun _ => none

def andThen (parser : Parser Token α) (next : α → Parser Token β) : Parser Token β :=
  fun input => (parser input).bind fun (value, rest) => next value rest

instance : Monad (Parser Token) where
  pure := result
  bind := andThen

def token : Parser Token Token
  | [] => none
  | first :: rest => some (first, rest)

def take : Nat → Parser Token (List Token)
  | 0 => pure []
  | count + 1 => do
    let first ← token
    let rest ← take count
    pure (first :: rest)

def times (parser : Parser Token α) : Nat → Parser Token (List α)
  | 0 => pure []
  | count + 1 => do
    let first ← parser
    let rest ← times parser count
    pure (first :: rest)

section

variable {parser : Parser Token α} (next : α → Parser Token β)
include next

theorem bind_eq {input rest : List Token} {value : α} (read : parser input = some (value, rest)) :
    (parser >>= next) input = next value rest := by
  change (parser input).bind _ = _
  rw [read, bind_some]

theorem bind_eq_none {input : List Token} (refused : parser input = none) :
    (parser >>= next) input = none := by
  change (parser input).bind _ = _
  rw [refused, bind_none]

theorem bind_congr {input other : List Token} (same : parser input = parser other) :
    (parser >>= next) input = (parser >>= next) other := by
  change (parser input).bind _ = (parser other).bind _
  rw [same]

end

theorem of_bind_eq_some {parser : Parser Token α} {next : α → Parser Token β}
    {input left : List Token} (success : (parser >>= next) input = some (second, left)) :
    ∃ first rest, parser input = some (first, rest) ∧ next first rest = some (second, left) := by
  rcases bind_eq_some_iff.mp success with ⟨⟨first, rest⟩, read, others⟩
  exact ⟨first, rest, read, others⟩

/-- The parser takes exactly this text, and reads it as this value. -/
def Reads (parser : Parser Token α) (text : List Token) (value : α) : Prop :=
  ∀ rest, parser (text ++ rest) = some (value, rest)

namespace Reads

theorem pure (value : α) : Reads (Pure.pure value : Parser Token α) [] value := fun _ => rfl

theorem bind_append (next : α → Parser Token β) (first : Reads parser text value)
    (rest : List Token) : (parser >>= next) (text ++ rest) = next value rest :=
  bind_eq next (first rest)

variable {next : α → Parser Token β}

theorem bind (first : Reads parser text value) (behind : Reads (next value) more second) :
    Reads (parser >>= next) (text ++ more) second := by
  intro rest
  rw [List.append_assoc, first.bind_append]
  exact behind rest

theorem bind_nil (first : Reads parser text value) (behind : Reads (next value) [] second) :
    Reads (parser >>= next) text second := by
  have both := first.bind behind
  rwa [List.append_nil] at both

theorem map (change : α → β) (first : Reads parser text value) :
    Reads (parser >>= fun value => Pure.pure (change value)) text (change value) :=
  first.bind_nil (pure (change value))

theorem token {first : Token} : Reads Parser.token [first] first := fun _ => rfl

theorem take : Reads (Parser.take text.length) text text := by
  induction text with
  | nil => exact pure []
  | cons first rest ih => exact token.bind (ih.map (first :: ·))

theorem times_nil : Reads (times parser 0) [] [] := pure []

theorem times_cons {count : Nat} {values : List α} (first : Reads parser text value)
    (others : Reads (times parser count) more values) :
    Reads (times parser (count + 1)) (text ++ more) (value :: values) :=
  first.bind (others.map (value :: ·))

end Reads

end Parser

end Pyroscope
