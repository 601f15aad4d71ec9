import SimilarityStore.Json.Value
import SimilarityStore.Proofs.Json.Numerals
import SimilarityStore.Proofs.Json.Strings

/-
  Written documents are read back: a document whose strings and names are texts and whose numerals
  have no leading zeros is what its own text holds (`Document.read?_write`).  The readers are seen
  through equations that leave out their proofs of progress; the proof is by induction on the
  document, in front of anything that no number goes on with.
-/

namespace SimilarityStore.Json

open SimilarityStore.Numeric SimilarityStore.Text

/-! ## Readers without their proofs of progress -/

/-- A value at the front. -/
def valueAt (cs : List Char) : Option (Document × List Char) := front (readValue cs)

/-- The items of an array at the front, behind its opening bracket. -/
def arrayAt (cs : List Char) : Option (List Document × List Char) := front (readArray cs)

/-- At least one item at the front, with the closing bracket behind the last. -/
def itemsAt (cs : List Char) : Option (List Document × List Char) := front (readItems cs)

/-- The members of an object at the front, behind its opening brace. -/
def objectAt (cs : List Char) : Option (List (Option String × Document) × List Char) :=
  front (readObject cs)

/-- At least one member at the front, with the closing brace behind the last. -/
def membersAt (cs : List Char) : Option (List (Option String × Document) × List Char) :=
  front (readMembers cs)

/-- A named value at the front. -/
def nameAt (cs : List Char) : Option (Document × List Char) := front (readName cs)

/-- A number at the front. -/
def numberAt (cs : List Char) : Option (Document × List Char) := front (readNumber cs)

theorem front_orElse {α : Type} {cs : List Char} (a b : Option (Progress cs α)) :
    front (a <|> b) = (front a <|> front b) := by
  cases a <;> rfl

theorem skipBlanks_cons {c : Char} (h : isDocumentBlank c = false) (rest : List Char) :
    skipBlanks (c :: rest) = c :: rest :=
  List.dropWhile_cons_of_neg (by simp [h])

/-- A value starts with its first character that is no blank. -/
theorem valueAt_cons {c : Char} (h : isDocumentBlank c = false) (rest : List Char) :
    valueAt (c :: rest) =
      if c = '"' then (textAt rest).map fun p => (.text p.1, p.2)
      else if c = '[' then (arrayAt rest).map fun p => (.array p.1, p.2)
      else if c = '\x7b' then (objectAt rest).map fun p => (.object p.1, p.2)
      else (nameAt (c :: rest) <|> numberAt (c :: rest)) := by
  have hskip := skipBlanks_cons h rest
  rw [valueAt, readValue.eq_def]
  split
  · next heq =>
    rw [hskip] at heq
    cases heq
  · next d more heq =>
    rw [hskip] at heq
    cases heq
    dsimp only
    split
    · exact front_widen _ _ _
    · split
      · exact front_widen _ _ _
      · split
        · exact front_widen _ _ _
        · rw [front_widen, front_orElse]
          show (nameAt (c :: rest) <|> numberAt (c :: rest)).map (fun p => (id p.1, p.2)) = _
          cases (nameAt (c :: rest) <|> numberAt (c :: rest)) <;> rfl

/-- A closing bracket right behind the opening one ends an array without items. -/
theorem arrayAt_empty (rest : List Char) : arrayAt (']' :: rest) = some ([], rest) := by
  have hskip : skipBlanks (']' :: rest) = ']' :: rest := skipBlanks_cons rfl rest
  rw [arrayAt, readArray.eq_def]
  split
  · next more heq =>
    rw [hskip] at heq
    cases heq
    rfl
  · next hne => exact absurd hskip (hne rest)

theorem arrayAt_items {c : Char} (h : isDocumentBlank c = false) (hc : c ≠ ']')
    (rest : List Char) : arrayAt (c :: rest) = itemsAt (c :: rest) := by
  rw [arrayAt, readArray.eq_def]
  split
  · next more heq =>
    rw [skipBlanks_cons h] at heq
    exact absurd (List.cons.inj heq).1 hc
  · rfl

theorem itemsAt_eq (cs : List Char) :
    itemsAt cs = (valueAt cs).bind fun p =>
      match skipBlanks p.2 with
      | ',' :: rest => (itemsAt rest).map fun q => (p.1 :: q.1, q.2)
      | ']' :: rest => some ([p.1], rest)
      | _ => none := by
  rw [itemsAt, readItems.eq_def, valueAt]
  cases readValue cs with
  | none => rfl
  | some p =>
    simp only [bind, Option.bind_some, front_some]
    split
    · next rest heq =>
      simp only [heq, itemsAt]
      cases readItems rest <;> rfl
    · next rest heq =>
      simp only [heq]
      rfl
    · next hcomma hclose =>
      split
      · next rest heq => exact absurd heq (hcomma rest)
      · next rest heq => exact absurd heq (hclose rest)
      · rfl

/-- A closing brace right behind the opening one ends an object without members. -/
theorem objectAt_empty (rest : List Char) : objectAt ('\x7d' :: rest) = some ([], rest) := by
  have hskip : skipBlanks ('\x7d' :: rest) = '\x7d' :: rest := skipBlanks_cons rfl rest
  rw [objectAt, readObject.eq_def]
  split
  · next more heq =>
    rw [hskip] at heq
    cases heq
    rfl
  · next hne => exact absurd hskip (hne rest)

theorem objectAt_members {c : Char} (h : isDocumentBlank c = false) (hc : c ≠ '\x7d')
    (rest : List Char) : objectAt (c :: rest) = membersAt (c :: rest) := by
  rw [objectAt, readObject.eq_def]
  split
  · next more heq =>
    rw [skipBlanks_cons h] at heq
    exact absurd (List.cons.inj heq).1 hc
  · rfl

theorem membersAt_cons (opened : List Char) :
    membersAt ('"' :: opened) = (textAt opened).bind fun name =>
      match skipBlanks name.2 with
      | ':' :: after => (valueAt after).bind fun value =>
        match skipBlanks value.2 with
        | ',' :: rest => (membersAt rest).map fun q => ((name.1, value.1) :: q.1, q.2)
        | '\x7d' :: rest => some ([(name.1, value.1)], rest)
        | _ => none
      | _ => none := by
  have hskip : skipBlanks ('"' :: opened) = '"' :: opened := skipBlanks_cons rfl opened
  rw [membersAt, readMembers.eq_def]
  split
  · next more heq =>
    rw [hskip] at heq
    cases heq
    rw [textAt]
    cases readText opened with
    | none => rfl
    | some name =>
      simp only [bind, Option.bind_some, front_some]
      split
      · next after heq =>
        simp only [heq, valueAt]
        cases readValue after with
        | none => rfl
        | some value =>
          simp only [Option.bind_some, front_some]
          split
          · next rest heq =>
            simp only [heq, membersAt]
            cases readMembers rest <;> rfl
          · next rest heq =>
            simp only [heq]
            rfl
          · next hcomma hclose =>
            split
            · next rest heq => exact absurd heq (hcomma rest)
            · next rest heq => exact absurd heq (hclose rest)
            · rfl
      · next hcolon =>
        split
        · next after heq => exact absurd heq (hcolon after)
        · rfl
  · next hne => exact absurd hskip (hne opened)

/-! ## Single values -/

/-- One of the named values at the front. -/
def namedAt (word : String) (value : Document) (cs : List Char) :
    Option (Document × List Char) :=
  (dropWord? word.toList cs).bind fun rest =>
    if rest.length < cs.length then some (value, rest) else none

theorem nameAt_eq (cs : List Char) :
    nameAt cs = (namedAt "null" .null cs <|> namedAt "true" (.bool true) cs <|>
      namedAt "false" (.bool false) cs) := by
  have named (word : String) (value : Document) (r : Option (Progress cs Document))
      (hfound : ∀ rest, dropWord? word.toList cs = some rest →
        r = if h : rest.length < cs.length then some ⟨value, rest, h⟩ else none)
      (hnone : dropWord? word.toList cs = none → r = none) :
      front r = namedAt word value cs := by
    unfold namedAt
    cases hdrop : dropWord? word.toList cs with
    | none =>
      rw [hnone hdrop]
      rfl
    | some rest =>
      rw [hfound rest hdrop, Option.bind_some]
      split <;> rfl
  simp only [nameAt, readName, front_orElse]
  rw [named "null" .null, named "true" (.bool true), named "false" (.bool false)]
  all_goals
    intros
    simp only [*]

theorem namedAt_append {word : String} (hword : word.toList ≠ []) (value : Document)
    (rest : List Char) : namedAt word value (word.toList ++ rest) = some (value, rest) := by
  have hstarts : word.toList.isPrefixOf (word.toList ++ rest) = true := by simp
  have hshorter : rest.length < (word.toList ++ rest).length := by
    have hlength := List.length_pos_iff.2 hword
    rw [List.length_append]
    omega
  rw [namedAt, dropWord?, if_pos hstarts, List.drop_left, Option.bind_some, if_pos hshorter]

/-- No word is found in front of another character than its first. -/
theorem namedAt_of_ne (word : String) {first : Char} {more : List Char}
    (hword : word.toList = first :: more) {c : Char} (h : c ≠ first) (value : Document)
    (rest : List Char) : namedAt word value (c :: rest) = none := by
  have hstarts : word.toList.isPrefixOf (c :: rest) = false := by
    rw [hword]
    simp [List.isPrefixOf, h.symm]
  rw [namedAt, dropWord?, if_neg (by simp [hstarts])]
  rfl

theorem nameAt_null (rest : List Char) : nameAt ("null".toList ++ rest) = some (.null, rest) := by
  rw [nameAt_eq, namedAt_append (by decide)]
  rfl

theorem nameAt_true (rest : List Char) :
    nameAt ("true".toList ++ rest) = some (.bool true, rest) := by
  have hnull : namedAt "null" .null ("true".toList ++ rest) = none :=
    namedAt_of_ne "null" rfl (by decide) .null _
  rw [nameAt_eq, hnull, namedAt_append (by decide)]
  rfl

theorem nameAt_false (rest : List Char) :
    nameAt ("false".toList ++ rest) = some (.bool false, rest) := by
  have hnull : namedAt "null" .null ("false".toList ++ rest) = none :=
    namedAt_of_ne "null" rfl (by decide) .null _
  have htrue : namedAt "true" (.bool true) ("false".toList ++ rest) = none :=
    namedAt_of_ne "true" rfl (by decide) (.bool true) _
  rw [nameAt_eq, hnull, htrue, namedAt_append (by decide)]
  rfl

/-- None of the names starts with another character than their first ones. -/
theorem nameAt_eq_none {c : Char} (hn : c ≠ 'n') (ht : c ≠ 't') (hf : c ≠ 'f') (rest : List Char) :
    nameAt (c :: rest) = none := by
  rw [nameAt_eq, namedAt_of_ne "null" rfl hn, namedAt_of_ne "true" rfl ht,
    namedAt_of_ne "false" rfl hf]
  rfl

theorem numberAt_toText (n : Numeral) (hn : IsWhole n.whole) {rest : List Char}
    (h : EndsNumber rest) : numberAt ((n.toText true).toList ++ rest) = some (.number n, rest) := by
  have hread := readNumber?_toText n hn h
  have hshorter : rest.length < ((n.toText true).toList ++ rest).length := by
    obtain ⟨d, ds, hds⟩ := List.exists_cons_of_ne_nil hn.ne_nil
    rw [toList_toText, hds]
    simp only [List.length_append, List.map_cons, List.length_cons]
    omega
  unfold numberAt readNumber
  rw [hread]
  dsimp only
  rw [dif_pos hshorter]
  rfl

/-- What starts a number starts nothing else. -/
theorem kind_of_startsNumber {c : Char} (h : c = '-' ∨ ∃ d : Digit, c = d.toChar) :
    isDocumentBlank c = false ∧ c ≠ ']' ∧ c ≠ '"' ∧ c ≠ '[' ∧ c ≠ '\x7b' ∧ c ≠ 'n' ∧ c ≠ 't' ∧
      c ≠ 'f' := by
  rcases h with rfl | ⟨d, rfl⟩
  · decide
  · revert d
    decide

/-- A written numeral starts with a sign or a digit. -/
theorem toText_front (n : Numeral) (hn : IsWhole n.whole) :
    ∃ c more, (n.toText true).toList = c :: more ∧ (c = '-' ∨ ∃ d : Digit, c = d.toChar) := by
  obtain ⟨d, ds, hds⟩ := List.exists_cons_of_ne_nil hn.ne_nil
  rw [toList_toText, hds]
  cases n.negative with
  | true => exact ⟨_, _, rfl, .inl rfl⟩
  | false => exact ⟨_, _, rfl, .inr ⟨d, rfl⟩⟩

/-! ## Documents -/

namespace Document

mutual

/-- All strings and names of the document are texts, and all its numerals are of a kind. -/
def Every (P : Numeral → Prop) : Document → Prop
  | null | bool _ => True
  | number n => P n
  | text s => s.isSome = true
  | array items => EveryItem P items
  | object members => EveryMember P members

/-- It is so for all items. -/
def EveryItem (P : Numeral → Prop) : List Document → Prop
  | [] => True
  | item :: items => Every P item ∧ EveryItem P items

/-- It is so for all names and values. -/
def EveryMember (P : Numeral → Prop) : List (Option String × Document) → Prop
  | [] => True
  | (name, value) :: members => name.isSome = true ∧ Every P value ∧ EveryMember P members

end

/-- Everything in the document can be written: no numeral has leading zeros, and the strings and
names are texts. -/
abbrev IsWritten (d : Document) : Prop := d.Every fun n => IsWhole n.whole

end Document

open Document

theorem toList_writeText (s : String) :
    (writeText s).toList = '"' :: (s.toList.flatMap escapeChar ++ ['"']) := by
  simp [writeText, String.toList_append]

theorem toList_array (items : List Document) :
    (array items).write.toList = '[' :: ((commaJoin (writeItems items)).toList ++ [']']) := by
  simp [write, String.toList_append]

theorem toList_object (members : List (Option String × Document)) :
    (object members).write.toList =
      '\x7b' :: ((commaJoin (writeMembers members)).toList ++ ['\x7d']) := by
  simp [write, String.toList_append]

/-- A written document starts with no blank and does not look like the end of an array. -/
theorem write_front (d : Document) (h : d.IsWritten) :
    ∃ c more, d.write.toList = c :: more ∧ isDocumentBlank c = false ∧ c ≠ ']' := by
  cases d with
  | null => exact ⟨'n', _, rfl, rfl, by decide⟩
  | bool b => cases b <;> exact ⟨_, _, rfl, rfl, by decide⟩
  | number n =>
    obtain ⟨c, more, htext, hc⟩ := toText_front n h
    obtain ⟨hblank, hclose, -⟩ := kind_of_startsNumber hc
    exact ⟨c, more, htext, hblank, hclose⟩
  | text s =>
    obtain ⟨s, rfl⟩ := Option.isSome_iff_exists.1 h
    exact ⟨'"', _, toList_writeText s, rfl, by decide⟩
  | array items => exact ⟨'[', _, toList_array items, rfl, by decide⟩
  | object members => exact ⟨'\x7b', _, toList_object members, rfl, by decide⟩

/-- The text of a list of items is that of the first one, and a comma with the others behind it. -/
theorem itemsText_cons (item : Document) (items : List Document) :
    (commaJoin (writeItems (item :: items))).toList = item.write.toList ++
      (if items.isEmpty then [] else ',' :: (commaJoin (writeItems items)).toList) := by
  cases items with
  | nil => simp [commaJoin, writeItems]
  | cons next items =>
    simp [commaJoin, writeItems, String.intercalate_cons_cons, String.toList_append]

/-- The text of a member is its name, a colon and its value. -/
theorem membersText_cons (name : Option String) (value : Document)
    (members : List (Option String × Document)) :
    (commaJoin (writeMembers ((name, value) :: members))).toList =
      '"' :: ((name.getD "").toList.flatMap escapeChar ++ '"' :: ':' :: (value.write.toList ++
        (if members.isEmpty then [] else ',' :: (commaJoin (writeMembers members)).toList))) := by
  cases members with
  | nil => simp [commaJoin, writeMembers, String.toList_append, toList_writeText]
  | cons next members =>
    simp [commaJoin, writeMembers, String.intercalate_cons_cons, String.toList_append,
      toList_writeText]

/-- A number is read back. -/
theorem valueAt_number (n : Numeral) (hn : IsWhole n.whole) {rest : List Char}
    (hrest : EndsNumber rest) :
    valueAt ((n.toText true).toList ++ rest) = some (.number n, rest) := by
  have hread := numberAt_toText n hn hrest
  obtain ⟨c, more, htext, hc⟩ := toText_front n hn
  obtain ⟨hblank, -, hquote, hbracket, hbrace, hnull, htrue, hfalse⟩ := kind_of_startsNumber hc
  rw [htext, List.cons_append] at hread ⊢
  rw [valueAt_cons hblank, if_neg hquote, if_neg hbracket, if_neg hbrace,
    nameAt_eq_none hnull htrue hfalse, hread]
  rfl

theorem valueAt_text (s : String) (rest : List Char) :
    valueAt ((writeText s).toList ++ rest) = some (.text (some s), rest) := by
  rw [toList_writeText, List.cons_append, List.append_assoc, valueAt_cons rfl, if_pos rfl,
    List.singleton_append, textAt_escaped]
  rfl

/-- What a name is found at the front of is read as the named value. -/
theorem valueAt_of_nameAt {c : Char} (h : c = 'n' ∨ c = 't' ∨ c = 'f') {more : List Char}
    {p : Document × List Char} (hname : nameAt (c :: more) = some p) :
    valueAt (c :: more) = some p := by
  have hkind : isDocumentBlank c = false ∧ c ≠ '"' ∧ c ≠ '[' ∧ c ≠ '\x7b' := by
    rcases h with rfl | rfl | rfl <;> decide
  obtain ⟨hblank, hquote, hbracket, hbrace⟩ := hkind
  rw [valueAt_cons hblank, if_neg hquote, if_neg hbracket, if_neg hbrace, hname]
  rfl

theorem valueAt_array {items : List Document} {rest : List Char}
    (h : arrayAt ((commaJoin (writeItems items)).toList ++ ']' :: rest) = some (items, rest)) :
    valueAt ((array items).write.toList ++ rest) = some (array items, rest) := by
  rw [toList_array, List.cons_append, List.append_assoc, List.singleton_append, valueAt_cons rfl,
    if_neg (by decide), if_pos rfl, h]
  rfl

/-- An item with the closing bracket behind it is the last one. -/
theorem itemsAt_last {cs rest : List Char} {item : Document}
    (hitem : valueAt cs = some (item, ']' :: rest)) : itemsAt cs = some ([item], rest) := by
  rw [itemsAt_eq, hitem]
  rfl

/-- Others follow an item with a comma behind it. -/
theorem itemsAt_more {cs more rest : List Char} {item : Document} {items : List Document}
    (hitem : valueAt cs = some (item, ',' :: more)) (hitems : itemsAt more = some (items, rest)) :
    itemsAt cs = some (item :: items, rest) := by
  rw [itemsAt_eq, hitem]
  show (itemsAt more).map _ = _
  rw [hitems]
  rfl

theorem valueAt_object {members : List (Option String × Document)} {rest : List Char}
    (h : objectAt ((commaJoin (writeMembers members)).toList ++ '\x7d' :: rest) =
      some (members, rest)) :
    valueAt ((object members).write.toList ++ rest) = some (object members, rest) := by
  rw [toList_object, List.cons_append, List.append_assoc, List.singleton_append, valueAt_cons rfl,
    if_neg (by decide), if_neg (by decide), if_pos rfl, h]
  rfl

/-- A member with the closing brace behind it is the last one. -/
theorem membersAt_last {name : Option String} (hname : name.isSome = true) {cs rest : List Char}
    {value : Document} (hvalue : valueAt cs = some (value, '\x7d' :: rest)) :
    membersAt ('"' :: ((name.getD "").toList.flatMap escapeChar ++ '"' :: ':' :: cs)) =
      some ([(name, value)], rest) := by
  obtain ⟨s, rfl⟩ := Option.isSome_iff_exists.1 hname
  rw [membersAt_cons, Option.getD_some, textAt_escaped]
  show (valueAt cs).bind _ = _
  rw [hvalue]
  rfl

/-- Others follow a member with a comma behind it. -/
theorem membersAt_more {name : Option String} (hname : name.isSome = true)
    {cs more rest : List Char} {value : Document} {members : List (Option String × Document)}
    (hvalue : valueAt cs = some (value, ',' :: more))
    (hmembers : membersAt more = some (members, rest)) :
    membersAt ('"' :: ((name.getD "").toList.flatMap escapeChar ++ '"' :: ':' :: cs)) =
      some ((name, value) :: members, rest) := by
  obtain ⟨s, rfl⟩ := Option.isSome_iff_exists.1 hname
  rw [membersAt_cons, Option.getD_some, textAt_escaped]
  show (valueAt cs).bind _ = _
  rw [hvalue]
  show (membersAt more).map _ = _
  rw [hmembers]
  rfl

-- The induction is on the document; each list is read back with what closes it behind the last of
-- its members, which is why the lists are never empty in the two statements about them.
mutual

/-- A written document is read back in front of anything that no number goes on with. -/
theorem valueAt_write (d : Document) (h : d.IsWritten) {rest : List Char}
    (hrest : EndsNumber rest) : valueAt (d.write.toList ++ rest) = some (d, rest) := by
  match d with
  | .null => exact valueAt_of_nameAt (.inl rfl) (nameAt_null rest)
  | .bool true => exact valueAt_of_nameAt (.inr (.inl rfl)) (nameAt_true rest)
  | .bool false => exact valueAt_of_nameAt (.inr (.inr rfl)) (nameAt_false rest)
  | .number n => exact valueAt_number n h hrest
  | .text s =>
    obtain ⟨s, rfl⟩ := Option.isSome_iff_exists.1 h
    exact valueAt_text s rest
  | .array [] => exact valueAt_array (arrayAt_empty rest)
  | .array (item :: items) =>
    have hitems := itemsAt_write item items h rest
    obtain ⟨c, more, hfirst, hblank, hclose⟩ := write_front item h.1
    refine valueAt_array ?_
    rw [itemsText_cons, hfirst, List.cons_append, List.cons_append] at hitems ⊢
    rw [arrayAt_items hblank hclose, hitems]
  | .object [] => exact valueAt_object (objectAt_empty rest)
  | .object ((name, value) :: members) =>
    have hmembers := membersAt_write name value members h rest
    refine valueAt_object ?_
    rw [membersText_cons, List.cons_append] at hmembers ⊢
    rw [objectAt_members rfl (by decide), hmembers]
termination_by sizeOf d

/-- Written items are read back with the bracket behind them. -/
theorem itemsAt_write (item : Document) (items : List Document)
    (h : EveryItem (fun n => IsWhole n.whole) (item :: items)) (rest : List Char) :
    itemsAt ((commaJoin (writeItems (item :: items))).toList ++ ']' :: rest) =
      some (item :: items, rest) := by
  rw [itemsText_cons, List.append_assoc]
  match items with
  | [] => exact itemsAt_last (valueAt_write item h.1 (endsNumber_cons (.inr (.inl rfl)) rest))
  | next :: items =>
    have hitems := itemsAt_write next items h.2 rest
    exact itemsAt_more (valueAt_write item h.1 (endsNumber_cons (.inl rfl) _)) hitems
termination_by sizeOf (item :: items)

/-- Written members are read back with the brace behind them. -/
theorem membersAt_write (name : Option String) (value : Document)
    (members : List (Option String × Document))
    (h : EveryMember (fun n => IsWhole n.whole) ((name, value) :: members)) (rest : List Char) :
    membersAt ((commaJoin (writeMembers ((name, value) :: members))).toList ++ '\x7d' :: rest) =
      some ((name, value) :: members, rest) := by
  rw [membersText_cons, List.cons_append, List.append_assoc, List.cons_append, List.cons_append,
    List.append_assoc]
  match members with
  | [] =>
    have hvalue := valueAt_write value h.2.1 (endsNumber_cons (.inr (.inr rfl)) rest)
    exact membersAt_last h.1 hvalue
  | (other, next) :: members =>
    have hmembers := membersAt_write other next members h.2.2 rest
    exact membersAt_more h.1 (valueAt_write value h.2.1 (endsNumber_cons (.inl rfl) _)) hmembers
termination_by sizeOf ((name, value) :: members)

end

/-- A document that can be written is what its text holds. -/
theorem Document.read?_write {d : Document} (h : d.IsWritten) : Document.read? d.write = some d := by
  have hread := valueAt_write d h endsNumber_nil
  rw [List.append_nil, valueAt] at hread
  unfold Document.read?
  cases hvalue : readValue d.write.toList with
  | none =>
    rw [hvalue] at hread
    cases hread
  | some p =>
    rw [hvalue, front_some, Option.some.injEq, Prod.mk.injEq] at hread
    obtain ⟨hvalue, hrest⟩ := hread
    simp [hvalue, hrest, skipBlanks]

/-! ## Values of documents -/

namespace Document

mutual

/-- How many arrays and objects are open at once. -/
def depth : Document → Nat
  | null | bool _ | number _ | text _ => 0
  | array items => itemsDepth items + 1
  | object members => membersDepth members + 1

/-- The depth of the deepest item. -/
def itemsDepth : List Document → Nat
  | [] => 0
  | item :: items => max (depth item) (itemsDepth items)

/-- The depth of the deepest member. -/
def membersDepth : List (Option String × Document) → Nat
  | [] => 0
  | (_, value) :: members => max (depth value) (membersDepth members)

end

/-- Whether a numeral stands for a number. -/
abbrev StandsForNumber (n : Numeral) : Prop := (Number.ofNumeral? n).isSome = true

mutual

/-- A document whose strings are texts and whose numerals stand for numbers has a value when it is
not too deep. -/
theorem isSome_value? (d : Document) (h : d.Every StandsForNumber) {limit : Nat}
    (hdepth : d.depth ≤ limit) : (d.value? limit).isSome = true := by
  match d with
  | .null | .bool _ => rfl
  | .number n =>
    have hnumber : (Number.ofNumeral? n).isSome = true := h
    rw [value?, Option.isSome_map, hnumber]
  | .text s =>
    have htext : s.isSome = true := h
    rw [value?, Option.isSome_map, htext]
  | .array items =>
    rw [depth] at hdepth
    have hitems := isSome_itemValues? items h (Nat.le_sub_one_of_lt hdepth)
    rw [value?, if_neg (by omega), Option.isSome_map, hitems]
  | .object members =>
    rw [depth] at hdepth
    have hmembers := isSome_memberValues? members h (Nat.le_sub_one_of_lt hdepth)
    rw [value?, if_neg (by omega), Option.isSome_map, hmembers]

theorem isSome_itemValues? (items : List Document) (h : EveryItem StandsForNumber items)
    {limit : Nat} (hdepth : itemsDepth items ≤ limit) : (itemValues? limit items).isSome = true := by
  match items with
  | [] => rfl
  | item :: items =>
    rw [itemsDepth, Nat.max_le] at hdepth
    obtain ⟨v, hv⟩ := Option.isSome_iff_exists.1 (isSome_value? item h.1 hdepth.1)
    obtain ⟨vs, hvs⟩ := Option.isSome_iff_exists.1 (isSome_itemValues? items h.2 hdepth.2)
    rw [itemValues?, hv, Option.bind_eq_bind, Option.bind_some, hvs]
    rfl

theorem isSome_memberValues? (members : List (Option String × Document))
    (h : EveryMember StandsForNumber members) {limit : Nat} (hdepth : membersDepth members ≤ limit) :
    (memberValues? limit members).isSome = true := by
  match members with
  | [] => rfl
  | (name, value) :: members =>
    rw [membersDepth, Nat.max_le] at hdepth
    obtain ⟨s, hs⟩ := Option.isSome_iff_exists.1 h.1
    obtain ⟨v, hv⟩ := Option.isSome_iff_exists.1 (isSome_value? value h.2.1 hdepth.1)
    obtain ⟨vs, hvs⟩ := Option.isSome_iff_exists.1 (isSome_memberValues? members h.2.2 hdepth.2)
    rw [memberValues?, hs, hv, Option.bind_eq_bind, Option.bind_some, Option.bind_eq_bind,
      Option.bind_some, hvs]
    rfl

end

end Document

end SimilarityStore.Json
