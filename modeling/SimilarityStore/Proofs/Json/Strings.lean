import SimilarityStore.Json.Read
import SimilarityStore.Json.Write

/-
  Written strings are read back.  Each character is written as one piece, an escape if need be, that
  spells the character again; so the content of a string is the string (`textAt_escaped`).
-/

namespace SimilarityStore.Json

open SimilarityStore.Text

/-! ## What readers leave -/

/-- What a reader read from the front of its input and what it left, if it did not fail. -/
def front {α : Type} {cs : List Char} (r : Option (Progress cs α)) : Option (α × List Char) :=
  r.map fun p => (p.value, p.rest)

@[simp] theorem front_some {α : Type} {cs : List Char} (p : Progress cs α) :
    front (some p) = some (p.value, p.rest) := rfl

@[simp] theorem front_none {α : Type} {cs : List Char} :
    front (none : Option (Progress cs α)) = none := rfl

/-- A reader that makes something else of what another one read leaves the same. -/
theorem front_widen {α β : Type} {cs longer : List Char} (r : Option (Progress cs α)) (f : α → β)
    (h : cs.length ≤ longer.length) :
    front (r.map (·.widen f h)) = (front r).map fun p => (f p.1, p.2) := by
  cases r <;> rfl

/-! ## Pieces -/

/-- The pieces of a string at the front, up to its closing quote. -/
def piecesAt (cs : List Char) : Option (List Piece × List Char) := front (readPieces cs)

/-- The content of a string at the front. -/
def textAt (cs : List Char) : Option (Option String × List Char) := front (readText cs)

theorem textAt_eq (cs : List Char) :
    textAt cs = (piecesAt cs).map fun p => ((assemble p.1).map String.ofList, p.2) :=
  front_widen _ _ _

theorem piecesAt_quote (rest : List Char) : piecesAt ('"' :: rest) = some ([], rest) := by
  rw [piecesAt, readPieces]
  rfl

theorem piecesAt_unit {a b c d : Char} {n : Nat} (h : hexUnit? a b c d = some n)
    (rest : List Char) :
    piecesAt ('\\' :: 'u' :: a :: b :: c :: d :: rest) =
      (piecesAt rest).map fun p => (.unit n :: p.1, p.2) := by
  rw [piecesAt, readPieces, h, piecesAt]
  cases readPieces rest <;> rfl

theorem piecesAt_short {e c : Char} (h : shortEscape? e = some c) (rest : List Char) :
    piecesAt ('\\' :: e :: rest) = (piecesAt rest).map fun p => (.char c :: p.1, p.2) := by
  have he : e ≠ 'u' := by
    rintro rfl
    cases h
  rw [piecesAt, readPieces.eq_4 e rest fun _ _ _ _ _ hu _ => he hu, h, piecesAt]
  cases readPieces rest <;> rfl

theorem piecesAt_char {c : Char} (hquote : c ≠ '"') (hescape : c ≠ '\\') (hc : ¬ c.toNat < 32)
    (rest : List Char) :
    piecesAt (c :: rest) = (piecesAt rest).map fun p => (.char c :: p.1, p.2) := by
  rw [piecesAt, readPieces.eq_5 c rest hquote (fun _ _ _ _ _ h _ => hescape h)
    (fun _ _ h _ => hescape h), if_neg hc]
  exact front_widen _ _ _

/-- A piece spells a character by itself. -/
def Piece.Spells (p : Piece) (c : Char) : Prop :=
  ∀ ps, assemble (p :: ps) = (assemble ps).map (c :: ·)

theorem spells_char (c : Char) : (Piece.char c).Spells c := by
  intro ps
  rw [assemble]

/-- A code unit of no pair spells the character with its number. -/
theorem spells_unit {c : Char} (h : c.toNat < 32) : (Piece.unit c.toNat).Spells c := by
  intro ps
  have hhigh : isHighUnit c.toNat = false := by
    simp only [isHighUnit, Bool.and_eq_false_iff, decide_eq_false_iff_not]
    omega
  have hlow : isLowUnit c.toNat = false := by
    simp only [isLowUnit, Bool.and_eq_false_iff, decide_eq_false_iff_not]
    omega
  rw [assemble.eq_def]
  simp only [hhigh, hlow, Char.ofNat_toNat]
  rfl

theorem hexUnit?_hexChar (n : Nat) (h : n < 32) :
    hexUnit? '0' '0' (hexChar (n / 16)) (hexChar (n % 16)) = some n := by
  revert n
  decide

/-- A written character is read as one piece, which spells it. -/
theorem piecesAt_escapeChar (c : Char) (rest : List Char) :
    ∃ p : Piece, p.Spells c ∧
      piecesAt (escapeChar c ++ rest) = (piecesAt rest).map fun q => (p :: q.1, q.2) := by
  unfold escapeChar
  split
  case h_8 hquote hescape _ _ _ _ _ =>
    split
    · next hcontrol =>
      exact ⟨_, spells_unit hcontrol, piecesAt_unit (hexUnit?_hexChar _ hcontrol) rest⟩
    · next hcontrol => exact ⟨_, spells_char c, piecesAt_char hquote hescape hcontrol rest⟩
  all_goals exact ⟨_, spells_char _, piecesAt_short rfl rest⟩

/-- The content of a written string is the string. -/
theorem textAt_escaped (s : String) (rest : List Char) :
    textAt (s.toList.flatMap escapeChar ++ '"' :: rest) = some (some s, rest) := by
  have hpieces (cs : List Char) : ∃ ps, assemble ps = some cs ∧
      piecesAt (cs.flatMap escapeChar ++ '"' :: rest) = some (ps, rest) := by
    induction cs with
    | nil => exact ⟨[], by rw [assemble], piecesAt_quote rest⟩
    | cons c cs ih =>
      obtain ⟨ps, hps, hread⟩ := ih
      obtain ⟨p, hp, hstep⟩ := piecesAt_escapeChar c (cs.flatMap escapeChar ++ '"' :: rest)
      refine ⟨p :: ps, by rw [hp, hps]; rfl, ?_⟩
      rw [List.flatMap_cons, List.append_assoc, hstep, hread]
      rfl
  obtain ⟨ps, hps, hread⟩ := hpieces s.toList
  rw [textAt_eq, hread, Option.map_some, hps, Option.map_some, String.ofList_toList]

end SimilarityStore.Json
