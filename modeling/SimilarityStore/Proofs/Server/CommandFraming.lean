import SimilarityStore.Proofs.Numeric.NumeralText
import SimilarityStore.Server.Command

/-
  Commands are read back by position.  A vector is announced by its number of components, so what
  stands behind it is found whatever its texts look like, and an option is told from its neighbours
  by its place.  `readAddition?` and `readSearch?` accept exactly the argument lists of that form
  (`readAddition?_eq_some_iff`, `readSearch?_eq_some_iff`), with nothing left over.  How a client
  writes its numbers does not matter, as long as they are literals (`NumberWriter`).  Main
  statement: `commands_are_read_by_position`.
-/

namespace SimilarityStore.Server

open SimilarityStore.Numeric SimilarityStore.Store

/-! ## What is read -/

/-- A number of components or of hits. -/
def readSize? (argument : String) : Option Nat := (allDigits? argument.toList).map ofDigits

/-- The parts of a command that adds an entry.  Numbers are left as they are written. -/
structure SentAddition where
  key : String
  components : List String
  id : String
  attributes : Option String
deriving DecidableEq

/-- The parts of a command that looks for elements.  Numbers are left as they are written. -/
structure SentSearch where
  key : String
  components : List String
  count : Nat
  tolerance : Option String
  filter : Option String
deriving DecidableEq

/-! ## The form of commands -/

/-- The arguments of an option: its name and its value, or nothing. -/
inductive IsOption (name : String) : Option String → List String → Prop where
  | absent : IsOption name none []
  | given (value : String) : IsOption name (some value) [name, value]

/-- The arguments of a vector: a marker, the number of components, and so many numbers. -/
def IsVector (components : List String) (args : List String) : Prop :=
  ∃ size, args = "VALUES" :: size :: components ∧ readSize? size = some components.length ∧
    ∀ c ∈ components, isNumber c = true

/-- The form `VADD key VALUES n (n numbers) id [SETATTR attributes]`. -/
def SentAddition.IsSentAs (p : SentAddition) (args : Command) : Prop :=
  ∃ vector attributes, args = "VADD" :: p.key :: (vector ++ p.id :: attributes) ∧
    IsVector p.components vector ∧ IsOption "SETATTR" p.attributes attributes

/-- The form `VSIM key VALUES n (n numbers) WITHSCORES WITHATTRIBS COUNT c`, and then
`[EPSILON e] [FILTER f]`. -/
def SentSearch.IsSentAs (p : SentSearch) (args : Command) : Prop :=
  ∃ vector count tolerance filter,
    args = "VSIM" :: p.key ::
      (vector ++ "WITHSCORES" :: "WITHATTRIBS" :: "COUNT" :: count :: (tolerance ++ filter)) ∧
    IsVector p.components vector ∧ readSize? count = some p.count ∧
    IsOption "EPSILON" p.tolerance tolerance ∧ (∀ e ∈ p.tolerance, isNumber e = true) ∧
    IsOption "FILTER" p.filter filter

/-! ## Reading by position -/

/-- The components of a vector in front, and the arguments behind it. -/
def readVector? : List String → Option (List String × List String)
  | marker :: size :: rest =>
    match readSize? size with
    | some n =>
      if marker = "VALUES" ∧ n ≤ rest.length ∧ (rest.take n).all isNumber then
        some (rest.take n, rest.drop n)
      else none
    | none => none
  | _ => none

/-- The value of an option in front, if it is there, and the arguments behind it. -/
def readOption (name : String) : List String → Option String × List String
  | first :: value :: rest =>
    if first = name then (some value, rest) else (none, first :: value :: rest)
  | args => (none, args)

/-- The parts of a command that adds an entry; nothing may be left over. -/
def readAddition? : Command → Option SentAddition
  | verb :: key :: args =>
    if verb = "VADD" then
      match readVector? args with
      | some (components, id :: options) =>
        match readOption "SETATTR" options with
        | (attributes, []) => some ⟨key, components, id, attributes⟩
        | _ => none
      | _ => none
    else none
  | _ => none

/-- The options of a search behind its count; nothing may be left over. -/
def readBounds? (args : List String) : Option (Option String × Option String) :=
  let (tolerance, behind) := readOption "EPSILON" args
  match readOption "FILTER" behind with
  | (filter, []) => if tolerance.all isNumber then some (tolerance, filter) else none
  | _ => none

/-- The parts of a command that looks for elements; nothing may be left over. -/
def readSearch? : Command → Option SentSearch
  | verb :: key :: args =>
    if verb = "VSIM" then
      match readVector? args with
      | some (components, scores :: attributes :: name :: count :: options) =>
        if scores = "WITHSCORES" ∧ attributes = "WITHATTRIBS" ∧ name = "COUNT" then do
          let count ← readSize? count
          let (tolerance, filter) ← readBounds? options
          return ⟨key, components, count, tolerance, filter⟩
        else none
      | _ => none
    else none
  | _ => none

/-! ## Reading accepts exactly the form -/

/-- A vector in front is read whatever stands behind it. -/
theorem readVector?_append {components vector : List String} (h : IsVector components vector)
    (rest : List String) : readVector? (vector ++ rest) = some (components, rest) := by
  obtain ⟨size, rfl, hsize, hnumbers⟩ := h
  have htake : (components ++ rest).take components.length = components := List.take_left
  have hdrop : (components ++ rest).drop components.length = rest := List.drop_left
  have hall : components.all isNumber = true := List.all_eq_true.2 hnumbers
  rw [List.cons_append, List.cons_append, readVector?, hsize]
  dsimp only
  rw [htake, hdrop, if_pos ⟨rfl, by simp, hall⟩]

theorem readVector?_eq_some_iff {args components rest : List String} :
    readVector? args = some (components, rest) ↔
      ∃ vector, args = vector ++ rest ∧ IsVector components vector := by
  constructor
  · intro h
    unfold readVector? at h
    split at h
    · next marker size behind =>
      split at h
      · next n hn =>
        split at h
        · next hform =>
          obtain ⟨rfl, hle, hall⟩ := hform
          cases h
          refine ⟨"VALUES" :: size :: behind.take n, ?_, size, rfl, ?_, List.all_eq_true.1 hall⟩
          · simp
          · rw [hn, List.length_take, Nat.min_eq_left hle]
        · cases h
      · cases h
    · cases h
  · rintro ⟨vector, rfl, hvector⟩
    exact readVector?_append hvector rest

/-- An option in front is read when nothing behind it could be taken for it. -/
theorem readOption_append {name : String} {value : Option String} {option rest : List String}
    (h : IsOption name value option) (hrest : rest.head? ≠ some name) :
    readOption name (option ++ rest) = (value, rest) := by
  cases h with
  | given value =>
    rw [List.cons_append, List.cons_append, readOption, if_pos rfl]
    rfl
  | absent =>
    rw [List.nil_append]
    unfold readOption
    split
    · next first more =>
      rw [if_neg]
      intro hfirst
      exact hrest (congrArg some hfirst)
    · rfl

theorem eq_append_of_readOption {name : String} {value : Option String} {args rest : List String}
    (h : readOption name args = (value, rest)) :
    ∃ option, args = option ++ rest ∧ IsOption name value option := by
  unfold readOption at h
  split at h
  · split at h
    · next hname =>
      subst hname
      cases h
      exact ⟨[_, _], rfl, .given _⟩
    · cases h
      exact ⟨[], rfl, .absent⟩
  · cases h
    exact ⟨[], rfl, .absent⟩

/-- A command is read as an addition exactly when it has the form of one. -/
theorem readAddition?_eq_some_iff {args : Command} {p : SentAddition} :
    readAddition? args = some p ↔ p.IsSentAs args := by
  constructor
  · intro h
    unfold readAddition? at h
    split at h
    · next verb key behind =>
      split at h
      · next hverb =>
        subst hverb
        split at h
        · next components id options hvector =>
          split at h
          · next attributes hoption =>
            cases h
            obtain ⟨vector, rfl, hv⟩ := readVector?_eq_some_iff.1 hvector
            obtain ⟨option, ho, hoption⟩ := eq_append_of_readOption hoption
            rw [List.append_nil] at ho
            subst ho
            exact ⟨vector, _, rfl, hv, hoption⟩
          · cases h
        · cases h
      · cases h
    · cases h
  · rintro ⟨vector, attributes, rfl, hvector, hoption⟩
    have hattributes : readOption "SETATTR" (attributes ++ []) = (p.attributes, []) :=
      readOption_append hoption (by simp)
    rw [List.append_nil] at hattributes
    rw [readAddition?, if_pos rfl, readVector?_append hvector]
    dsimp only
    rw [hattributes]

theorem all_isNumber_iff {argument : Option String} :
    argument.all isNumber = true ↔ ∀ e ∈ argument, isNumber e = true := by
  cases argument <;> simp

/-- The options of a search are read exactly when both have their form and their order. -/
theorem readBounds?_eq_some_iff {args : List String} {tolerance filter : Option String} :
    readBounds? args = some (tolerance, filter) ↔
      ∃ first second, args = first ++ second ∧ IsOption "EPSILON" tolerance first ∧
        (∀ e ∈ tolerance, isNumber e = true) ∧ IsOption "FILTER" filter second := by
  constructor
  · intro h
    unfold readBounds? at h
    dsimp only at h
    split at h
    · next found hfilter =>
      split at h
      · next hnumber =>
        cases h
        have heta : readOption "EPSILON" args = (_, (readOption "EPSILON" args).2) := rfl
        obtain ⟨first, hfirst, htolerance⟩ := eq_append_of_readOption heta
        obtain ⟨second, hsecond, hoption⟩ := eq_append_of_readOption hfilter
        rw [List.append_nil] at hsecond
        refine ⟨first, second, ?_, htolerance, ?_, hoption⟩
        · rw [← hsecond, ← hfirst]
        · exact all_isNumber_iff.1 hnumber
      · cases h
    · cases h
  · rintro ⟨first, second, rfl, hfirst, hnumber, hsecond⟩
    -- The filter's name is not the tolerance's, so an absent tolerance is not read from it.
    have hhead : second.head? ≠ some "EPSILON" := by
      cases hsecond with
      | absent => simp
      | given value => simp
    have hfilter : readOption "FILTER" (second ++ []) = (filter, []) :=
      readOption_append hsecond (by simp)
    rw [List.append_nil] at hfilter
    unfold readBounds?
    rw [readOption_append hfirst hhead]
    dsimp only
    rw [hfilter]
    dsimp only
    rw [if_pos (all_isNumber_iff.2 hnumber)]

/-- A command is read as a search exactly when it has the form of one. -/
theorem readSearch?_eq_some_iff {args : Command} {p : SentSearch} :
    readSearch? args = some p ↔ p.IsSentAs args := by
  constructor
  · intro h
    unfold readSearch? at h
    split at h
    · next verb key behind =>
      split at h
      · next hverb =>
        subst hverb
        split at h
        · next components scores attributes name count options hvector =>
          split at h
          · next hwords =>
            obtain ⟨rfl, rfl, rfl⟩ := hwords
            obtain ⟨n, hcount, h⟩ := Option.bind_eq_some_iff.1 h
            obtain ⟨⟨tolerance, filter⟩, hbounds, h⟩ := Option.bind_eq_some_iff.1 h
            cases h
            obtain ⟨vector, rfl, hv⟩ := readVector?_eq_some_iff.1 hvector
            obtain ⟨first, second, rfl, hfirst, hnumber, hsecond⟩ :=
              readBounds?_eq_some_iff.1 hbounds
            exact ⟨vector, count, first, second, rfl, hv, hcount, hfirst, hnumber, hsecond⟩
          · cases h
        · cases h
      · cases h
    · cases h
  · rintro ⟨vector, count, tolerance, filter, rfl, hvector, hcount, htolerance, hnumber, hfilter⟩
    have hbounds := readBounds?_eq_some_iff.2
      ⟨tolerance, filter, rfl, htolerance, hnumber, hfilter⟩
    rw [readSearch?, if_pos rfl, readVector?_append hvector]
    dsimp only
    rw [if_pos ⟨rfl, rfl, rfl⟩, hcount, hbounds]
    rfl

/-! ## Writers -/

theorem isNumber_spell {F : Type} [FloatingPoint F] (style : NumberStyle) (x : F) :
    isNumber (style.spell x) = true := by
  obtain ⟨y, hy⟩ := style.isLiteral_spell x
  rw [isNumber, hy]
  rfl

/-- The writer of the shortest digits, with no plus in front of exponents. -/
def NumberWriter.shortest : NumberWriter where
  component := NumberStyle.documentSingle.withoutPlus.spell
  number := NumberStyle.document.withoutPlus.spell
  component_isNumber := isNumber_spell _
  number_isNumber := isNumber_spell _

/-! ## Commands that are sent -/

section Sent

variable (writer : NumberWriter)

/-- The parts of the command that adds an entry. -/
def sentAddition (key : String) (entry : Entry) : SentAddition :=
  ⟨key, entry.vector.components.map writer.component, entry.id, entry.metadata.map Metadata.raw⟩

/-- The parts of the command that looks for elements. -/
def sentSearch (key : String) (query : FeatureVector) (p : Parameters) : SentSearch :=
  ⟨key, query.components.map writer.component, p.count, p.tolerance.map writer.number, p.filter⟩

theorem readSize?_decimalText (n : Nat) : readSize? (decimalText n) = some n := by
  rw [readSize?, decimalText, String.toList_ofList, allDigits?_toChar (digitsOf_ne_nil n),
    Option.map_some, ofDigits_digitsOf]

theorem isVector_vectorArguments (v : FeatureVector) :
    IsVector (v.components.map writer.component) (vectorArguments writer v) := by
  refine ⟨decimalText v.dimension, rfl, ?_, ?_⟩
  · rw [readSize?_decimalText, List.length_map]
    rfl
  · intro c hc
    obtain ⟨x, -, rfl⟩ := List.mem_map.1 hc
    exact writer.component_isNumber x

theorem isOption_optionArguments (name : String) (value : Option String) :
    IsOption name value (optionArguments name value) := by
  cases value with
  | none => exact .absent
  | some value => exact .given value

theorem isSentAs_addCommand (key : String) (entry : Entry) :
    (sentAddition writer key entry).IsSentAs (addCommand writer key entry) :=
  ⟨_, _, rfl, isVector_vectorArguments writer entry.vector, isOption_optionArguments _ _⟩

theorem isSentAs_searchCommand (key : String) (query : FeatureVector) (p : Parameters) :
    (sentSearch writer key query p).IsSentAs (searchCommand writer key query p) := by
  refine ⟨vectorArguments writer query, decimalText p.count, _, _, ?_,
    isVector_vectorArguments writer query, readSize?_decimalText p.count,
    isOption_optionArguments _ _, ?_, isOption_optionArguments _ _⟩
  · simp [searchCommand, sentSearch]
  · intro e he
    obtain ⟨x, -, rfl⟩ := Option.map_eq_some_iff.1 he
    exact writer.number_isNumber x

theorem readAddition?_addCommand (key : String) (entry : Entry) :
    readAddition? (addCommand writer key entry) = some (sentAddition writer key entry) :=
  readAddition?_eq_some_iff.2 (isSentAs_addCommand writer key entry)

theorem readSearch?_searchCommand (key : String) (query : FeatureVector) (p : Parameters) :
    readSearch? (searchCommand writer key query p) = some (sentSearch writer key query p) :=
  readSearch?_eq_some_iff.2 (isSentAs_searchCommand writer key query p)

theorem map_raw_inj {m n : Option Metadata} : m.map Metadata.raw = n.map Metadata.raw ↔ m = n :=
  (Option.map_injective fun a b h => by rwa [Metadata.mk.injEq]).eq_iff

/-- Equal additions are sent for equal parts only, up to the text of components. -/
theorem addCommand_eq_iff {key key' : String} {entry entry' : Entry} :
    addCommand writer key entry = addCommand writer key' entry' ↔
      key = key' ∧ entry.id = entry'.id ∧ entry.metadata = entry'.metadata ∧
        entry.vector.components.map writer.component =
          entry'.vector.components.map writer.component := by
  constructor
  · intro h
    have hread := congrArg readAddition? h
    rw [readAddition?_addCommand, readAddition?_addCommand] at hread
    obtain ⟨hkey, hcomponents, hid, hmetadata⟩ := SentAddition.mk.inj (Option.some.inj hread)
    exact ⟨hkey, hid, map_raw_inj.1 hmetadata, hcomponents⟩
  · rintro ⟨rfl, hid, hmetadata, hcomponents⟩
    have hsize := congrArg List.length hcomponents
    rw [List.length_map, List.length_map] at hsize
    simp only [addCommand, vectorArguments, FeatureVector.dimension, hid, hmetadata, hcomponents,
      hsize]

/-- Equal searches are sent for equal parts only, up to the text of floating-point numbers. -/
theorem searchCommand_eq_iff {key key' : String} {query query' : FeatureVector}
    {p p' : Parameters} :
    searchCommand writer key query p = searchCommand writer key' query' p' ↔
      key = key' ∧ query.components.map writer.component =
          query'.components.map writer.component ∧
        p.count = p'.count ∧ p.tolerance.map writer.number = p'.tolerance.map writer.number ∧
        p.filter = p'.filter := by
  constructor
  · intro h
    have hread := congrArg readSearch? h
    rw [readSearch?_searchCommand, readSearch?_searchCommand] at hread
    exact SentSearch.mk.inj (Option.some.inj hread)
  · rintro ⟨rfl, hcomponents, hcount, htolerance, hfilter⟩
    have hsize := congrArg List.length hcomponents
    rw [List.length_map, List.length_map] at hsize
    simp only [searchCommand, vectorArguments, FeatureVector.dimension, hcomponents, hsize, hcount,
      htolerance, hfilter]

/-- Commands are read by position, whatever texts they carry.  Reading accepts exactly the argument
lists of the form of a command, which leave nothing over, and it recovers from each command that is
sent the key, the texts of the components in order, the id, the metadata, the count, the text of the
tolerance and the filter.  So equal commands have equal parts, up to the text of floating-point
numbers. -/
theorem commands_are_read_by_position :
    (∀ args p, readAddition? args = some p ↔ p.IsSentAs args) ∧
    (∀ args p, readSearch? args = some p ↔ p.IsSentAs args) ∧
    (∀ key entry, readAddition? (addCommand writer key entry) =
      some ⟨key, entry.vector.components.map writer.component, entry.id,
        entry.metadata.map Metadata.raw⟩) ∧
    (∀ key query p, readSearch? (searchCommand writer key query p) =
      some ⟨key, query.components.map writer.component, p.count,
        p.tolerance.map writer.number, p.filter⟩) ∧
    (∀ key entry key' entry', addCommand writer key entry = addCommand writer key' entry' ↔
      key = key' ∧ entry.id = entry'.id ∧ entry.metadata = entry'.metadata ∧
        entry.vector.components.map writer.component =
          entry'.vector.components.map writer.component) ∧
    (∀ key query p key' query' p',
      searchCommand writer key query p = searchCommand writer key' query' p' ↔
        key = key' ∧ query.components.map writer.component =
            query'.components.map writer.component ∧
          p.count = p'.count ∧ p.tolerance.map writer.number = p'.tolerance.map writer.number ∧
          p.filter = p'.filter) :=
  ⟨fun _ _ => readAddition?_eq_some_iff, fun _ _ => readSearch?_eq_some_iff,
    readAddition?_addCommand writer, readSearch?_searchCommand writer,
    fun _ _ _ _ => addCommand_eq_iff writer, fun _ _ _ _ _ _ => searchCommand_eq_iff writer⟩

end Sent

/-- An id that is the name of the option behind it is still read as the id. -/
theorem misleading_id_is_read :
    readAddition? (addCommand .shortest "VALUES" ⟨"SETATTR", ⟨[]⟩, some ⟨"SETATTR"⟩⟩) =
      some ⟨"VALUES", [], "SETATTR", some "SETATTR"⟩ := by
  obtain ⟨-, -, hadd, -⟩ := commands_are_read_by_position .shortest
  exact hadd "VALUES" ⟨"SETATTR", ⟨[]⟩, some ⟨"SETATTR"⟩⟩

end SimilarityStore.Server
