import SimilarityStore.Proofs.Store.Session

/-
  The dimensions of the vectors in memory.  A set that is there has an element, and all its vectors
  have one dimension; every call keeps this, refused additions and the removal of a last element
  included (`wellFormed_answer`).  So the dimension check, which looks at one element only, comes
  out the same whichever element that is (`SoundSet.checkDimension`), and an addition is refused
  exactly when its key is there with another dimension (`WellFormed.add_eq_error_iff`).
-/

namespace SimilarityStore.Store

open Std (ExtTreeMap LawfulEqCmp)

/-! ## Sound sets -/

/-- A set as it may be under a key: it has an element, and all its vectors have one dimension. -/
structure SoundSet (set : Elements) : Prop where
  inhabited : set ≠ ∅
  uniform : ∀ {id other : String} {e f : Element}, set[id]? = some e → set[other]? = some f →
    e.vector.dimension = f.vector.dimension

theorem ne_empty_of_getElem? {set : Elements} {id : String} {element : Element}
    (h : set[id]? = some element) : set ≠ ∅ := by
  rintro rfl
  rw [ExtTreeMap.getElem?_empty] at h
  cases h

/-- A set that is not empty has an element that its dimension is taken from. -/
theorem exists_first {set : Elements} (h : set ≠ ∅) :
    ∃ (id : String) (element : Element), set[id]? = some element ∧
      Memory.dimensionOf? set = some element.vector.dimension := by
  cases hlist : set.toList with
  | nil => exact absurd (ExtTreeMap.toList_eq_nil_iff.1 hlist) h
  | cons first rest =>
    have hmem : (first.1, first.2) ∈ set.toList := by
      rw [hlist]
      exact List.mem_cons_self
    refine ⟨first.1, first.2, ExtTreeMap.mem_toList_iff_getElem?_eq_some.1 hmem, ?_⟩
    rw [Memory.dimensionOf?, hlist]
    rfl

namespace SoundSet

variable {set : Elements}

/-- Whichever element of a sound set is looked at, its dimension decides the check. -/
theorem checkDimension (h : SoundSet set) {id : String} {element : Element}
    (helement : set[id]? = some element) (actual : Nat) :
    Memory.checkDimension set actual =
      if element.vector.dimension = actual then .ok ()
      else .error (.dimensionMismatch element.vector.dimension actual) := by
  obtain ⟨first, e, he, hdimension⟩ := exists_first h.inhabited
  rw [Memory.checkDimension, hdimension, h.uniform he helement]

/-- A dimension that fits a sound set is that of all its vectors. -/
theorem dimension_of_fits (h : SoundSet set) {actual : Nat}
    (hfits : Memory.checkDimension set actual = .ok ()) {id : String} {element : Element}
    (helement : set[id]? = some element) : element.vector.dimension = actual := by
  rw [h.checkDimension helement] at hfits
  split at hfits
  · assumption
  · cases hfits

/-- A set is sound after an element is taken out of it, unless that was the last one. -/
theorem erase (h : SoundSet set) {id : String} (hrest : set.erase id ≠ ∅) :
    SoundSet (set.erase id) := by
  have before {other : String} {e : Element} (he : (set.erase id)[other]? = some e) :
      set[other]? = some e := by
    rw [ExtTreeMap.getElem?_erase] at he
    split at he
    · cases he
    · exact he
  exact ⟨hrest, fun he hf => h.uniform (before he) (before hf)⟩

end SoundSet

namespace Memory

/-- Every set that is there is sound. -/
def WellFormed (m : Memory) : Prop :=
  ∀ (key : String) (set : Elements), m.sets[key]? = some set → SoundSet set

/-- A key is there, and all vectors under it have a dimension. -/
def HasDimension (m : Memory) (key : String) (dimension : Nat) : Prop :=
  key ∈ m.sets ∧ ∀ id element, m.element? key id = some element →
    element.vector.dimension = dimension

/-- The elements under a key make a sound set as soon as there is one. -/
theorem WellFormed.sound {m : Memory} (h : m.WellFormed) {key id : String} {element : Element}
    (helement : m.element? key id = some element) : SoundSet (m.elements key) := by
  cases hset : m.sets[key]? with
  | none => exact absurd (elements_of_none hset) (ne_empty_of_getElem? helement)
  | some set =>
    rw [elements_of_some hset]
    exact h key set hset

/-! ## What calls leave -/

theorem wellFormed_empty : empty.WellFormed := by
  intro key set h
  rw [empty, ExtTreeMap.getElem?_empty] at h
  cases h

/-- A set is sound after an element is put into it whose dimension fits. -/
theorem WellFormed.insert {m : Memory} (h : m.WellFormed) {key : String} {new : Element}
    (hfits : checkDimension (m.elements key) new.vector.dimension = .ok ()) (id : String) :
    SoundSet ((m.elements key).insert id new) := by
  have fits {other : String} {e : Element}
      (he : ((m.elements key).insert id new)[other]? = some e) :
      e.vector.dimension = new.vector.dimension := by
    rw [ExtTreeMap.getElem?_insert] at he
    split at he
    · rw [← Option.some.inj he]
    · exact (h.sound he).dimension_of_fits hfits he
  exact ⟨ExtTreeMap.insert_ne_empty, fun he hf => (fits he).trans (fits hf).symm⟩

theorem sets_add_self {m : Memory} {key : String} {entry : Entry}
    (h : checkDimension (m.elements key) entry.vector.dimension = .ok ()) :
    (m.add key entry).2.sets[key]? = some ((m.elements key).insert entry.id entry.element) := by
  simp only [add, elements_opened, h, ExtTreeMap.getElem?_insert_self]
  rfl

/-- What removing leaves under its key is not empty. -/
theorem sets_remove_self {m : Memory} {key id : String} {set : Elements}
    (h : (m.remove key id).2.sets[key]? = some set) :
    ∃ before : Elements, m.sets[key]? = some before ∧ set = before.erase id ∧ set ≠ ∅ := by
  rw [remove] at h
  split at h
  · next hnone =>
    rw [hnone] at h
    cases h
  · next before hbefore =>
    dsimp only at h
    split at h
    · rw [ExtTreeMap.getElem?_erase_self] at h
      cases h
    · next hrest =>
      rw [ExtTreeMap.getElem?_insert_self] at h
      obtain rfl := Option.some.inj h
      refine ⟨before, hbefore, rfl, ?_⟩
      rwa [ExtTreeMap.isEmpty_iff] at hrest

/-- Every call, also one that fails, leaves a memory well formed. -/
theorem wellFormed_answer {m : Memory} (h : m.WellFormed) (c : Call) :
    (answer c m).2.WellFormed := by
  intro key set hset
  by_cases hkey : c.key = key
  · subst hkey
    cases c with
    | fetch k id => exact h k set hset
    | search k query p => exact h k set hset
    | delete k =>
      have hnone : (m.sets.erase k)[k]? = none := ExtTreeMap.getElem?_erase_self
      exact absurd (hset.symm.trans hnone) (by simp)
    | remove k id =>
      obtain ⟨before, hbefore, rfl, hrest⟩ := sets_remove_self hset
      exact (h k before hbefore).erase hrest
    | add k entry =>
      cases hcheck : checkDimension (m.elements k) entry.vector.dimension with
      | error e =>
        have hsame : (answer (.add k entry) m).2 = m := congrArg Prod.snd (add_of_error hcheck)
        rw [hsame] at hset
        exact h k set hset
      | ok u =>
        have hafter := (sets_add_self hcheck).symm.trans hset
        rw [← Option.some.inj hafter]
        exact h.insert hcheck entry.id
  · rw [sets_answer_of_ne m hkey] at hset
    exact h key set hset

/-- Any calls made one after the other leave a memory well formed. -/
theorem wellFormed_session {m : Memory} (h : m.WellFormed) (calls : List Call) :
    (session calls m).2.WellFormed := by
  induction calls generalizing m with
  | nil => exact h
  | cons c calls ih => exact ih (wellFormed_answer h c)

/-! ## Which additions are refused -/

theorem add_fst (m : Memory) (key : String) (entry : Entry) :
    (m.add key entry).1 =
      (checkDimension (m.elements key) entry.vector.dimension).map fun _ => true := by
  simp only [add, elements_opened]
  cases checkDimension (m.elements key) entry.vector.dimension <;> rfl

/-- There is no element under a key, or there is one. -/
theorem absent_or_present (m : Memory) (key : String) :
    (∀ id, m.element? key id = none) ∨ ∃ id element, m.element? key id = some element := by
  by_cases h : m.elements key = ∅
  · left
    intro id
    rw [element?, h, ExtTreeMap.getElem?_empty]
  · right
    obtain ⟨id, element, helement, -⟩ := exists_first h
    exact ⟨id, element, helement⟩

/-- Where nothing is stored, anything is so of all that is. -/
theorem forall_of_absent {m : Memory} {key : String} (h : ∀ id, m.element? key id = none)
    {P : Element → Prop} : ∀ id element, m.element? key id = some element → P element := by
  intro id element helement
  rw [h id] at helement
  cases helement

/-- Where there is no element, every dimension is accepted. -/
theorem add_of_empty {m : Memory} {key : String} (h : ∀ id, m.element? key id = none)
    (entry : Entry) : (m.add key entry).1 = .ok true := by
  have hfits : checkDimension (m.elements key) entry.vector.dimension = .ok () :=
    checkDimension_eq_ok (forall_of_absent h)
  rw [add_fst, hfits]
  rfl

theorem mem_sets_of_element? {m : Memory} {key id : String} {element : Element}
    (h : m.element? key id = some element) : key ∈ m.sets := by
  rw [ExtTreeMap.mem_iff_isSome_getElem?, Option.isSome_iff_ne_none]
  intro hnone
  exact ne_empty_of_getElem? h (elements_of_none hnone)

/-- A key that is there holds an element. -/
theorem WellFormed.exists_element {m : Memory} (h : m.WellFormed) {key : String}
    (hkey : key ∈ m.sets) : ∃ id element, m.element? key id = some element := by
  obtain ⟨set, hset⟩ := Option.isSome_iff_exists.1 (ExtTreeMap.mem_iff_isSome_getElem?.1 hkey)
  obtain ⟨id, element, helement, -⟩ := exists_first (h key set hset).inhabited
  refine ⟨id, element, ?_⟩
  rwa [element?, elements_of_some hset]

/-- The dimension of any element is that of its key. -/
theorem WellFormed.hasDimension {m : Memory} (h : m.WellFormed) {key id : String}
    {element : Element} (helement : m.element? key id = some element) :
    m.HasDimension key element.vector.dimension := by
  refine ⟨mem_sets_of_element? helement, fun other e he => ?_⟩
  exact (h.sound helement).uniform he helement

/-- An addition is refused exactly when its key is there with another dimension. -/
theorem WellFormed.add_eq_error_iff {m : Memory} (h : m.WellFormed) (key : String) (entry : Entry)
    (e : StoreError) :
    (m.add key entry).1 = .error e ↔
      ∃ d, m.HasDimension key d ∧ d ≠ entry.vector.dimension ∧
        e = .dimensionMismatch d entry.vector.dimension := by
  constructor
  · intro herror
    rcases m.absent_or_present key with hnone | ⟨id, element, helement⟩
    · rw [add_of_empty hnone] at herror
      cases herror
    · rw [add_fst, (h.sound helement).checkDimension helement] at herror
      split at herror
      · cases herror
      · next hother =>
        refine ⟨element.vector.dimension, h.hasDimension helement, hother, ?_⟩
        exact (Except.error.inj herror).symm
  · rintro ⟨d, ⟨hkey, hall⟩, hother, rfl⟩
    obtain ⟨id, element, helement⟩ := h.exists_element hkey
    obtain rfl := hall id element helement
    rw [add_fst, (h.sound helement).checkDimension helement, if_neg hother]
    rfl

/-! ## Memories with the same elements -/

/-- A key that is there is also there in a memory with the same elements. -/
theorem WellFormed.mem_sets_of_same {m n : Memory} (hm : m.WellFormed)
    (h : ∀ key id, m.element? key id = n.element? key id) {key : String} (hkey : key ∈ m.sets) :
    key ∈ n.sets := by
  obtain ⟨id, element, helement⟩ := hm.exists_element hkey
  exact mem_sets_of_element? ((h key id).symm.trans helement)

/-- Well-formed memories with the same elements are the same. -/
theorem WellFormed.ext {m n : Memory} (hm : m.WellFormed) (hn : n.WellFormed)
    (h : ∀ key id, m.element? key id = n.element? key id) : m = n := by
  have hsets : m.sets = n.sets := by
    refine ExtTreeMap.ext_getElem? fun key => ?_
    have helements : m.elements key = n.elements key := ExtTreeMap.ext_getElem? (h key)
    by_cases hkey : key ∈ m.sets
    · have hkey' := hm.mem_sets_of_same h hkey
      rw [ExtTreeMap.mem_iff_isSome_getElem?, Option.isSome_iff_exists] at hkey hkey'
      obtain ⟨set, hset⟩ := hkey
      obtain ⟨other, hother⟩ := hkey'
      rw [elements_of_some hset, elements_of_some hother] at helements
      rw [hset, hother, helements]
    · have hkey' : key ∉ n.sets := fun there =>
        hkey (hn.mem_sets_of_same (fun key id => (h key id).symm) there)
      rw [ExtTreeMap.getElem?_eq_none hkey, ExtTreeMap.getElem?_eq_none hkey']
  exact congrArg Memory.mk hsets

/-! ## After any calls -/

/-- What is there under the keys of a memory, and what follows for later additions. -/
structure KeepsDimensions (m : Memory) : Prop where
  /-- A key that is there holds an element. -/
  inhabited : ∀ key, key ∈ m.sets → ∃ id element, m.element? key id = some element
  /-- All vectors under one key have one dimension. -/
  uniform : ∀ key id other e f, m.element? key id = some e → m.element? key other = some f →
    e.vector.dimension = f.vector.dimension
  /-- Whichever element is looked at, the dimension check comes out as that element says. -/
  checked : ∀ key id element, m.element? key id = some element → ∀ actual,
    checkDimension (m.elements key) actual =
      if element.vector.dimension = actual then .ok ()
      else .error (.dimensionMismatch element.vector.dimension actual)
  /-- An addition is refused exactly when its key is there with another dimension, also when it
  would replace the only element. -/
  refused : ∀ key entry e, (m.add key entry).1 = .error e ↔
    ∃ d, m.HasDimension key d ∧ d ≠ entry.vector.dimension ∧
      e = .dimensionMismatch d entry.vector.dimension
  /-- After an addition that succeeds the key is there, with the dimension of its vector. -/
  added : ∀ key entry, (m.add key entry).1 = .ok true →
    (m.add key entry).2.HasDimension key entry.vector.dimension
  /-- After its last element is removed, a key is not there and accepts every dimension. -/
  emptied : ∀ key id, (∀ other, other ≠ id → m.element? key other = none) →
    key ∉ (m.remove key id).2.sets ∧ ∀ entry, ((m.remove key id).2.add key entry).1 = .ok true
  /-- After it is deleted, a key is not there and accepts every dimension. -/
  deleted : ∀ key, key ∉ (m.delete key).sets ∧ ∀ entry, ((m.delete key).add key entry).1 = .ok true

/-- A well-formed memory keeps the dimensions under its keys. -/
theorem WellFormed.keepsDimensions {m : Memory} (h : m.WellFormed) : m.KeepsDimensions where
  inhabited key hkey := h.exists_element hkey
  uniform key id other e f he hf := (h.sound he).uniform he hf
  checked key id element helement actual := (h.sound helement).checkDimension helement actual
  refused key entry e := h.add_eq_error_iff key entry e
  added key entry hok := by
    have hadded : (m.add key entry).2.element? key entry.id = some entry.element := by
      rcases m.add_cases key entry with ⟨e, he⟩ | ⟨-, helement⟩
      · rw [he] at hok
        cases hok
      · rw [helement, if_pos ⟨rfl, rfl⟩]
    exact (wellFormed_answer h (.add key entry)).hasDimension hadded
  emptied key id honly := by
    have hnone : ∀ other, (m.remove key id).2.element? key other = none := by
      intro other
      rw [element?_remove]
      split
      · rfl
      · next hother => exact honly other fun heq => hother ⟨rfl, heq.symm⟩
    refine ⟨fun hkey => ?_, add_of_empty hnone⟩
    obtain ⟨other, element, helement⟩ := (wellFormed_answer h (.remove key id)).exists_element hkey
    exact absurd (helement.symm.trans (hnone other)) (by simp)
  deleted key := by
    refine ⟨fun hkey => ?_, add_of_empty fun id => ?_⟩
    · rw [delete, ExtTreeMap.mem_erase] at hkey
      exact hkey.1 (LawfulEqCmp.compare_eq_iff_eq.2 rfl)
    · rw [element?_delete, if_pos rfl]

/-- After any calls, whatever they were answered with, on a memory that was empty, every key that
is there has elements of one dimension only, and this dimension alone decides about additions. -/
theorem session_keeps_dimensions (calls : List Call) :
    (session calls empty).2.KeepsDimensions :=
  (wellFormed_session wellFormed_empty calls).keepsDimensions

end Memory

end SimilarityStore.Store
