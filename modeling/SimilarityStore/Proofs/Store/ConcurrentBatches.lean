import SimilarityStore.Proofs.Store.Interleaving
import SimilarityStore.Proofs.Store.StoredBatch

/-
  Two stores at work on one key of the memory at the same time.  Each calls with ids of its own, and
  all vectors have one dimension.  Such a call acts on one place only and is answered as this place
  says (`Call.Within.acts`), so a store finds its own elements as it left them, also when the other
  one has taken out the last element and with it the key.  Main statement:
  `disjoint_batches_undisturbed`.
-/

namespace SimilarityStore.Store

open Program (Leads Interleaves Conduct AsInTurn KeepsTo inTurn)

/-! ## Calls of one store -/

/-- A call is about one key, ids of one's own, and vectors of one dimension. -/
def Call.Within (key : String) (mine : String → Prop) (dimension : Nat) : Call → Prop
  | .add k entry => k = key ∧ mine entry.id ∧ entry.vector.dimension = dimension
  | .remove k id => k = key ∧ mine id
  | _ => False

theorem Call.Within.mono {key : String} {mine wider : String → Prop} {d : Nat} {c : Call}
    (hids : ∀ id, mine id → wider id) (h : c.Within key mine d) : c.Within key wider d := by
  cases c with
  | add k entry => exact ⟨h.1, hids entry.id h.2.1, h.2.2⟩
  | remove k id => exact ⟨h.1, hids id h.2⟩
  | _ => cases h

/-- On memories that a dimension fits, a call acts on one place: its answer depends on the element
there, of which it leaves another one or none, and everything else stays. -/
structure Call.ActsOn (c : Call) (key id : String) (dimension : Nat)
    (reply : Option Element → c.Answer) (left : Option Element) : Prop where
  answered : ∀ m : Memory, m.Fits key dimension →
    (Memory.answer c m).1 = .ok (reply (m.element? key id))
  leaves : ∀ m : Memory, m.Fits key dimension → ∀ other name,
    (Memory.answer c m).2.element? other name =
      if key = other ∧ id = name then left else m.element? other name
  fits : ∀ element, left = some element → element.vector.dimension = dimension

theorem Call.Within.acts {key : String} {mine : String → Prop} {d : Nat} {c : Call}
    (h : c.Within key mine d) : ∃ id, mine id ∧ ∃ reply left, c.ActsOn key id d reply left := by
  cases c with
  | add k entry =>
    obtain ⟨rfl, hmine, hd⟩ := h
    refine ⟨entry.id, hmine, fun _ => true, some entry.element, ?_, ?_, ?_⟩
    · exact fun m hm => hm.add_fst hd
    · exact fun m hm other name => hm.element?_add hd other name
    · rintro _ ⟨⟩
      exact hd
  | remove k id =>
    obtain ⟨rfl, hmine⟩ := h
    refine ⟨id, hmine, Option.isSome, none, ?_, ?_, ?_⟩
    · exact fun m _ => congrArg Except.ok (m.remove_fst k id)
    · exact fun m _ other name => m.element?_remove k id other name
    · rintro _ ⟨⟩
  | fetch k id => cases h
  | search k query p => cases h
  | delete k => cases h

/-- What two memories have under a key and ids of one's own is the same. -/
def Memory.AgreeOn (key : String) (mine : String → Prop) (m n : Memory) : Prop :=
  ∀ id, mine id → m.element? key id = n.element? key id

section Acts

variable {c : Call} {key : String} {mine : String → Prop} {d : Nat} {m n : Memory}

/-- An own call is answered alike where one's own elements are alike, and they stay so. -/
theorem Call.Within.answer_agree (h : c.Within key mine d) (hm : m.Fits key d) (hn : n.Fits key d)
    (hagree : Memory.AgreeOn key mine m n) :
    (∃ a, (Memory.answer c m).1 = .ok a ∧ (Memory.answer c n).1 = .ok a) ∧
      Memory.AgreeOn key mine (Memory.answer c m).2 (Memory.answer c n).2 := by
  obtain ⟨id, hid, reply, left, hacts⟩ := h.acts
  refine ⟨⟨_, hacts.answered m hm, ?_⟩, fun name hname => ?_⟩
  · rw [hacts.answered n hn, hagree id hid]
  · rw [hacts.leaves m hm, hacts.leaves n hn, hagree name hname]

/-- A call leaves what is not one's own. -/
theorem Call.Within.element?_other (h : c.Within key mine d) (hm : m.Fits key d)
    {other id : String} (hother : ¬ (key = other ∧ mine id)) :
    (Memory.answer c m).2.element? other id = m.element? other id := by
  obtain ⟨own, hown, reply, left, hacts⟩ := h.acts
  rw [hacts.leaves m hm, if_neg]
  rintro ⟨hkey, rfl⟩
  exact hother ⟨hkey, hown⟩

/-- The dimension fits also when the key was dropped in between. -/
theorem Call.Within.fits (h : c.Within key mine d) (hm : m.Fits key d) :
    (Memory.answer c m).2.Fits key d := by
  obtain ⟨own, -, reply, left, hacts⟩ := h.acts
  intro id element helement
  rw [hacts.leaves m hm] at helement
  split at helement
  · exact hacts.fits element helement
  · exact hm id element helement

end Acts

/-! ## Stores that share the memory -/

section Shared

variable {embedder : String → Except StoreError FeatureVector} {ids : Nat → String}
  {key : String} {mine theirs : String → Prop} {d : Nat} {α β : Type}
  {good : α → Prop} {fine : β → Prop} {p : Program α} {q : Program β}
  {a : Conduct α} {b : Conduct β} {w u v v' : World Memory}

/-- What calls with one's own ids keep of a world. -/
structure Keeps (key : String) (mine : String → Prop) (d : Nat) (w v : World Memory) : Prop where
  wellFormed : v.state.WellFormed
  fits : v.state.Fits key d
  others : ∀ other id, ¬ (key = other ∧ mine id) →
    v.state.element? other id = w.state.element? other id
  drawn : v.drawn = w.drawn

theorem keeps_self (hwf : w.state.WellFormed) (hfits : w.state.Fits key d) :
    Keeps key mine d w w := ⟨hwf, hfits, fun _ _ _ => rfl, rfl⟩

theorem Keeps.trans (h : Keeps key mine d w u) (h' : Keeps key mine d u v) :
    Keeps key mine d w v where
  wellFormed := h'.wellFormed
  fits := h'.fits
  others other id hother := (h'.others other id hother).trans (h.others other id hother)
  drawn := h'.drawn.trans h.drawn

theorem Keeps.call {c : Call} (hc : c.Within key mine d) (h : Keeps key mine d w u) :
    Keeps key mine d w ⟨(Memory.answer c u.state).2, u.drawn⟩ where
  wellFormed := Memory.wellFormed_answer h.wellFormed c
  fits := hc.fits h.fits
  others other id hother := (hc.element?_other h.fits hother).trans (h.others other id hother)
  drawn := h.drawn

/-- A program goes alone from a world as it went among others: its own elements are as they were
left there, and it keeps everything else. -/
structure Alone (embedder : String → Except StoreError FeatureVector) (ids : Nat → String)
    (key : String) (mine : String → Prop) (d : Nat) (p : Program α) (u : World Memory)
    (a : Conduct α) (v v' : World Memory) : Prop where
  leads : Leads (Memory.environment embedder ids) p u a.moments a.result v'
  own : Memory.AgreeOn key mine v'.state v.state
  keeps : Keeps key mine d u v'

/-- A step that keeps everything else, and what comes after it. -/
theorem Alone.cons {rest : Program α} {u' : World Memory} {before : List Moment}
    (h : Alone embedder ids key mine d rest u' a v v')
    (move : Program.Move (Memory.environment embedder ids) p u before rest u')
    (hkeeps : Keeps key mine d u u') :
    Alone embedder ids key mine d p u (a.after before) v v' :=
  ⟨Leads.cons move h.leads, h.own, hkeeps.trans h.keeps⟩

/-- Whatever another program does with other ids in between, a program goes as it goes alone. -/
theorem alone_of_interleaves (hdisjoint : ∀ id, mine id → ¬ theirs id)
    (h : Interleaves (Memory.environment embedder ids) p q w a b v)
    (hp : p.KeepsTo (Call.Within key mine d) good) (hq : q.KeepsTo (Call.Within key theirs d) fine)
    (hw : w.state.Fits key d) (hu : Keeps key mine d u u)
    (hagree : Memory.AgreeOn key mine u.state w.state) :
    (∃ v', Alone embedder ids key mine d p u a v v') ∧ ∃ r, good r ∧ a.result = .ok r := by
  induction h generalizing u with
  | ended r s w =>
    cases hp with
    | done hgood => exact ⟨⟨u, Program.leads_ofExcept _ u _, hagree, hu⟩, _, hgood, rfl⟩
  | @left _ _ _ w _ _ _ _ _ move _ ih =>
    cases move with
    | call c next =>
      cases hp with
      | call hc hrest =>
        -- The step that is made from `w` is made from `u` as well, with the same answer.
        obtain ⟨⟨answer, hhere, hthere⟩, hafter⟩ := hc.answer_agree hu.fits hw hagree
        have hmove : Program.Move (Memory.environment embedder ids) _ u _ _ _ := .call c next u
        have halike : ((Memory.environment embedder ids).backend.answer c u.state).1 = _ :=
          hhere.trans hthere.symm
        have hturn : (Memory.environment embedder ids).backend.turn c u.state = _ :=
          congrArg (Turn.mk c · []) halike
        rw [halike, hturn] at hmove
        have hkeeps := Keeps.call hc hu
        obtain ⟨⟨v', halone⟩, hresult⟩ := ih (hthere ▸ hrest answer) hq (hc.fits hw)
          (keeps_self hkeeps.wellFormed hkeeps.fits) hafter
        exact ⟨⟨v', halone.cons hmove hkeeps⟩, hresult⟩
    | embed text next => cases hp
    | fresh next => cases hp
    | log event next =>
      cases hp with
      | log _ hrest =>
        obtain ⟨⟨v', halone⟩, hresult⟩ := ih hrest hq hw hu hagree
        exact ⟨⟨v', halone.cons (.log event _ u) hu⟩, hresult⟩
  | right move _ ih =>
    cases move with
    | call c next =>
      cases hq with
      | call hc hrest =>
        -- A step of the other program changes no element that is one's own.
        obtain ⟨⟨answer, hanswer, -⟩, -⟩ := hc.answer_agree hw hw fun _ _ => rfl
        refine ih hp (hanswer ▸ hrest answer) (hc.fits hw) hu fun id hid => ?_
        refine (hagree id hid).trans (hc.element?_other hw ?_).symm
        exact fun htheirs => hdisjoint id hid htheirs.2
    | embed text next => cases hq
    | fresh next => cases hq
    | log event next =>
      cases hq with
      | log _ hrest => exact ih hp hrest hw hu hagree

/-- Two programs with ids of their own keep everything else. -/
theorem keeps_of_interleaves (h : Interleaves (Memory.environment embedder ids) p q w a b v)
    (hp : p.KeepsTo (Call.Within key mine d) good) (hq : q.KeepsTo (Call.Within key theirs d) fine)
    (hwf : w.state.WellFormed) (hfits : w.state.Fits key d) :
    Keeps key (fun id => mine id ∨ theirs id) d w v := by
  refine h.invariant hp hq (fun c u hc hu => ?_) (keeps_self hwf hfits)
  have hown : c.Within key (fun id => mine id ∨ theirs id) d :=
    hc.elim (Call.Within.mono fun _ => Or.inl) (Call.Within.mono fun _ => Or.inr)
  obtain ⟨⟨answer, hanswer, -⟩, -⟩ := hown.answer_agree hu.fits hu.fits fun _ _ => rfl
  exact ⟨⟨answer, hanswer⟩, hu.call hown⟩

/-- Two programs with ids of their own go as one after the other. -/
theorem serial_of_interleaves (hdisjoint : ∀ id, mine id → ¬ theirs id)
    (h : Interleaves (Memory.environment embedder ids) p q w a b v)
    (hp : p.KeepsTo (Call.Within key mine d) good) (hq : q.KeepsTo (Call.Within key theirs d) fine)
    (hwf : w.state.WellFormed) (hfits : w.state.Fits key d) :
    ∃ u, Alone embedder ids key mine d p w a v u ∧
      Leads (Memory.environment embedder ids) q u b.moments b.result v := by
  obtain ⟨⟨u, hu⟩, -⟩ := alone_of_interleaves hdisjoint h hp hq hfits (keeps_self hwf hfits)
    fun _ _ => rfl
  have huntouched : Memory.AgreeOn key theirs u.state w.state := fun id hid =>
    hu.keeps.others key id fun hmine => hdisjoint id hmine.2 hid
  obtain ⟨⟨v', hv'⟩, -⟩ := alone_of_interleaves (fun id hid hmine => hdisjoint id hmine hid) h.swap
    hq hp hfits (keeps_self hu.keeps.wellFormed hu.keeps.fits) huntouched
  have hv := keeps_of_interleaves h hp hq hwf hfits
  have hstate : v'.state = v.state := by
    refine hv'.keeps.wellFormed.ext hv.wellFormed fun other id => ?_
    by_cases htheirs : key = other ∧ theirs id
    · obtain ⟨rfl, hid⟩ := htheirs
      exact hv'.own id hid
    · rw [hv'.keeps.others other id htheirs]
      by_cases hmine : key = other ∧ mine id
      · obtain ⟨rfl, hid⟩ := hmine
        exact hu.own id hid
      · rw [hu.keeps.others other id hmine, hv.others other id]
        rintro ⟨hkey, hid | hid⟩
        · exact hmine ⟨hkey, hid⟩
        · exact htheirs ⟨hkey, hid⟩
  have hdrawn : v'.drawn = v.drawn :=
    (hv'.keeps.drawn.trans hu.keeps.drawn).trans hv.drawn.symm
  have hsame : v' = v := by
    change World.mk v'.state v'.drawn = World.mk v.state v.drawn
    rw [hstate, hdrawn]
  exact ⟨u, hu, hsame ▸ hv'.leads⟩

end Shared

/-! ## Operations of one store -/

/-- A batch element has an id given; if its vector can be stored, the id is one's own, and the
vector has the dimension. -/
def BatchItem.Within (mine : String → Prop) (dimension : Nat) (item : BatchItem) : Prop :=
  ∃ id, item.id = some id ∧ ∀ vector, item.vector = some vector → vector.fault? = none →
    mine id ∧ vector.dimension = dimension

/-- An operation is a batch of additions or of removals with ids of one's own. -/
def Operation.Within (mine : String → Prop) (dimension : Nat) : Operation → Prop
  | .addBatchWithIds ids vectors metadata =>
    ∀ item ∈ batchItems ids vectors metadata, item.Within mine dimension
  | .removeBatch ids => ∀ id ∈ ids, mine id
  | _ => False

namespace VectorSet

variable (set : VectorSet) {mine : String → Prop} {d : Nat}

theorem keepsTo_addItem {item : BatchItem} (h : item.Within mine d) :
    (set.addItem item).KeepsTo (Call.Within set.key mine d) fun _ => True := by
  obtain ⟨id, hid, hvector⟩ := h
  rw [addItem_eq, nameItem, hid]
  refine (Program.keepsTo_pure rfl : KeepsTo _ (· = id) _).bind ?_
  rintro _ rfl
  unfold addNamed
  split
  · exact (Program.keepsTo_report _).bind fun _ _ => Program.keepsTo_pure trivial
  · next vector hv =>
    split
    · exact (Program.keepsTo_report _).bind fun _ _ => Program.keepsTo_pure trivial
    · next hfault =>
      obtain ⟨hmine, hd⟩ := hvector vector hv hfault
      refine (Program.keepsTo_perform ⟨rfl, hmine, hd⟩).bind fun added _ => ?_
      exact (Program.keepsTo_reportIf _ _).bind fun _ _ => Program.keepsTo_pure trivial

theorem keepsTo_addItems {items : List BatchItem} (h : ∀ item ∈ items, item.Within mine d) :
    (set.addItems items).KeepsTo (Call.Within set.key mine d) fun _ => True := by
  induction items with
  | nil => exact Program.keepsTo_pure trivial
  | cons item rest ih =>
    refine (set.keepsTo_addItem (h item List.mem_cons_self)).bind fun added _ => ?_
    refine (ih fun other hother => h other (List.mem_cons_of_mem item hother)).bind fun _ _ => ?_
    exact Program.keepsTo_pure trivial

theorem keepsTo_removeIds {ids : List String} (h : ∀ id ∈ ids, mine id) :
    (set.removeIds ids).KeepsTo (Call.Within set.key mine d) fun _ => True := by
  induction ids with
  | nil => exact Program.keepsTo_pure trivial
  | cons id rest ih =>
    refine (Program.keepsTo_perform ⟨rfl, h id List.mem_cons_self⟩).bind fun removed _ => ?_
    refine (Program.keepsTo_reportIf _ _).bind fun _ _ => ?_
    refine (ih fun other hother => h other (List.mem_cons_of_mem id hother)).bind fun _ _ => ?_
    exact Program.keepsTo_pure trivial

theorem keepsTo_operation {op : Operation} (h : op.Within mine d) :
    (op.program set).KeepsTo (Call.Within set.key mine d) fun _ => True := by
  cases op with
  | addBatchWithIds ids vectors metadata =>
    exact (set.keepsTo_addItems h).bind fun _ _ => Program.keepsTo_report _
  | removeBatch ids => exact (set.keepsTo_removeIds h).bind fun _ _ => Program.keepsTo_report _
  | _ => cases h

/-- The operations of one store, one after the other. -/
def thread (operations : List Operation) : Program (List (Except StoreError Unit)) :=
  inTurn (operations.map (Operation.program set))

theorem keepsTo_thread {operations : List Operation} (h : ∀ op ∈ operations, op.Within mine d) :
    (set.thread operations).KeepsTo (Call.Within set.key mine d)
      (· = List.replicate operations.length (.ok ())) := by
  have hall : (inTurn (operations.map (Operation.program set))).KeepsTo
      (Call.Within set.key mine d) _ := Program.keepsTo_inTurn fun p hp => by
    obtain ⟨op, hop, rfl⟩ := List.mem_map.1 hp
    exact set.keepsTo_operation (h op hop)
  rwa [List.length_map] at hall

/-! ## Two stores at the same time -/

variable (embedder : String → Except StoreError FeatureVector) (ids : Nat → String)

/-- What two stores do to a key at the same time, each with ids of its own. -/
structure Undisturbed (left right : List Operation) (leftIds rightIds : String → Prop)
    (w : World Memory) (a b : Conduct (List (Except StoreError Unit))) (v : World Memory) :
    Prop where
  /-- Every operation of the one succeeds. -/
  leftEnds : a.result = .ok (List.replicate left.length (.ok ()))
  /-- Every operation of the other one succeeds. -/
  rightEnds : b.result = .ok (List.replicate right.length (.ok ()))
  /-- Calls, answers and reports are those of one store after the other, in either order, and so is
  what is there in the end. -/
  asInTurn : AsInTurn (Memory.environment embedder ids) (set.thread left) (set.thread right) w a b v
  /-- The elements of the one are those that it leaves when it is alone. -/
  leftKept : ∀ id, leftIds id → v.state.element? set.key id =
    ((set.thread left).run (Memory.environment embedder ids) w).world.state.element? set.key id
  /-- The elements of the other one are those that it leaves when it is alone. -/
  rightKept : ∀ id, rightIds id → v.state.element? set.key id =
    ((set.thread right).run (Memory.environment embedder ids) w).world.state.element? set.key id
  /-- Everything else stays. -/
  others : ∀ key id, ¬ (set.key = key ∧ (leftIds id ∨ rightIds id)) →
    v.state.element? key id = w.state.element? key id

/-- Two stores at work on one key at the same time, from a memory that any calls have led to and in
which the key is not there or has the dimension of their vectors.  Whatever the order of their
calls, they do not disturb each other. -/
theorem disjoint_batches_undisturbed (calls : List Call) (drawn : Nat) {left right : List Operation}
    {leftIds rightIds : String → Prop} {a b : Conduct (List (Except StoreError Unit))}
    {v : World Memory} (hdisjoint : ∀ id, leftIds id → ¬ rightIds id)
    (hkey : set.key ∉ (Memory.session calls Memory.empty).2.sets ∨
      (Memory.session calls Memory.empty).2.HasDimension set.key d)
    (hleft : ∀ op ∈ left, op.Within leftIds d) (hright : ∀ op ∈ right, op.Within rightIds d)
    (h : Interleaves (Memory.environment embedder ids) (set.thread left) (set.thread right)
      ⟨(Memory.session calls Memory.empty).2, drawn⟩ a b v) :
    set.Undisturbed embedder ids left right leftIds rightIds
      ⟨(Memory.session calls Memory.empty).2, drawn⟩ a b v := by
  have hwf := Memory.wellFormed_session Memory.wellFormed_empty calls
  have hfits : (Memory.session calls Memory.empty).2.Fits set.key d :=
    hkey.elim (Memory.fits_of_absent · d) And.right
  have hp := set.keepsTo_thread hleft
  have hq := set.keepsTo_thread hright
  have hdisjoint' : ∀ id, rightIds id → ¬ leftIds id := fun id hid hleft => hdisjoint id hleft hid
  obtain ⟨-, results, rfl, hresult⟩ :=
    alone_of_interleaves hdisjoint h hp hq hfits (keeps_self hwf hfits) fun _ _ => rfl
  obtain ⟨-, results', rfl, hresult'⟩ :=
    alone_of_interleaves hdisjoint' h.swap hq hp hfits (keeps_self hwf hfits) fun _ _ => rfl
  obtain ⟨u, hu, hafter⟩ := serial_of_interleaves hdisjoint h hp hq hwf hfits
  obtain ⟨u', hu', hafter'⟩ := serial_of_interleaves hdisjoint' h.swap hq hp hwf hfits
  exact {
    leftEnds := hresult
    rightEnds := hresult'
    asInTurn := ⟨⟨u, hu.leads, hafter⟩, ⟨u', hu'.leads, hafter'⟩⟩
    leftKept := fun id hid => by rw [hu.leads.world, hu.own id hid]
    rightKept := fun id hid => by rw [hu'.leads.world, hu'.own id hid]
    others := (keeps_of_interleaves h hp hq hwf hfits).others }

/-! ## A key that is dropped in between -/

/-- Adds an element and takes it out again. -/
def passing : List Operation :=
  [.addBatchWithIds [some "a"] [some ⟨[1]⟩] [], .removeBatch ["a"]]

/-- Takes an element out and adds it. -/
def staying : List Operation :=
  [.removeBatch ["b"], .addBatchWithIds [some "b"] [some ⟨[0]⟩] []]

/-- Between the removal and the addition of the one, the other takes out the only element. -/
def crossing :
    Conduct (List (Except StoreError Unit)) × Conduct (List (Except StoreError Unit)) ×
      World Memory :=
  Program.scheduled (Memory.environment (fun _ => .error .server) fun _ => "")
    [.left, .right, .left, .left, .right, .right, .right]
    (thread ⟨"k"⟩ passing) (thread ⟨"k"⟩ staying) ⟨(Memory.session [] Memory.empty).2, 0⟩

theorem within_single (id : String) (vector : FeatureVector) :
    (Operation.addBatchWithIds [some id] [some vector] []).Within (· = id) vector.dimension := by
  intro item hitem
  obtain rfl := List.mem_singleton.1 hitem
  refine ⟨id, rfl, ?_⟩
  rintro _ ⟨⟩ -
  exact ⟨rfl, rfl⟩

theorem passing_within : ∀ op ∈ passing, op.Within (· = "a") 1 :=
  List.forall_mem_cons.2 ⟨within_single "a" ⟨[1]⟩,
    List.forall_mem_singleton.2 fun _ => List.mem_singleton.1⟩

theorem staying_within : ∀ op ∈ staying, op.Within (· = "b") 1 :=
  List.forall_mem_cons.2 ⟨fun _ => List.mem_singleton.1,
    List.forall_mem_singleton.2 (within_single "b" ⟨[0]⟩)⟩

/-- The addition finds a key without a dimension, and its element is there in the end. -/
theorem crossing_undisturbed :
    Undisturbed ⟨"k"⟩ (fun _ => .error .server) (fun _ => "") passing staying (· = "a") (· = "b")
        ⟨(Memory.session [] Memory.empty).2, 0⟩ crossing.1 crossing.2.1 crossing.2.2 ∧
      crossing.2.2.state.element? "k" "a" = none ∧
      crossing.2.2.state.element? "k" "b" = some ⟨⟨[0]⟩, none⟩ := by
  refine ⟨?_, by decide +kernel, by decide +kernel⟩
  refine disjoint_batches_undisturbed ⟨"k"⟩ _ _ [] 0 ?_ (.inl (not_mem_empty "k")) passing_within
    staying_within (Program.interleaves_scheduled _ _ _ _)
  rintro id rfl
  decide

end VectorSet

end SimilarityStore.Store
