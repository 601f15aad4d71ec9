/-
  Progress of a reader: what it read from the front of its input, and the rest, which is shorter.
  A reader that returns this can be repeated and nested, and its recursion ends because every step
  leaves less to read.
-/

namespace SimilarityStore.Text

/-- A value read from the front of `input`, and what is left. -/
structure Progress {τ : Type} (input : List τ) (α : Type) where
  /-- What was read. -/
  value : α
  /-- What is left. -/
  rest : List τ
  /-- Something was taken from the input. -/
  shorter : rest.length < input.length

/-- The same progress with another value, seen from an input that is not shorter. -/
def Progress.widen {τ α β : Type} {input longer : List τ} (p : Progress input α) (f : α → β)
    (h : input.length ≤ longer.length) : Progress longer β :=
  ⟨f p.value, p.rest, Nat.lt_of_lt_of_le p.shorter h⟩

/-- What is left behind the next symbol is shorter than the input, too. -/
theorem Progress.tail_shorter {τ α : Type} {input tail : List τ} {t : τ} {p : Progress input α}
    (h : p.rest = t :: tail) : tail.length < input.length := by
  have := p.shorter
  rw [h, List.length_cons] at this
  omega

end SimilarityStore.Text
