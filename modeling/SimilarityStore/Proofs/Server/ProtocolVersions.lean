import SimilarityStore.Proofs.Server.ReplyRows
import SimilarityStore.Proofs.Text.Blanks

/-
  Hits in both versions of the protocol.  The older one sends them as one flat list, with an id, a
  score and attributes for each hit; the newer one sends a map from ids to pairs of score and
  attributes.  No blank stands in a number literal (`readLiteral?_unblank`), so one that is sent as
  text, with blanks around it, is read as it is.  Main statement: `protocols_carry_same_hits`.
-/

namespace SimilarityStore

open SimilarityStore.Numeric SimilarityStore.Store SimilarityStore.Text

/-! ## No blanks in literals -/

namespace Numeric

/-- A digit is not blank. -/
theorem Digit.isBlank_of_ofChar? {c : Char} {d : Digit} (h : Digit.ofChar? c = some d) :
    isBlank c = false := by
  unfold ofChar? at h
  split at h
  · exact isBlank_of_ascii (by omega) (by omega)
  · cases h

/-- A blank in a text stands behind the digits at its front. -/
theorem mem_spanDigits_of_blank {cs : List Char} {c : Char} (hc : isBlank c = true) (h : c ∈ cs) :
    c ∈ (spanDigits cs).2 := by
  induction cs with
  | nil => cases h
  | cons first cs ih =>
    rw [spanDigits]
    split
    · next d hd =>
      rcases List.mem_cons.1 h with rfl | hcs
      · cases hc.symm.trans (Digit.isBlank_of_ofChar? hd)
      · exact ih hcs
    · exact h

/-- A blank in a text stands behind its sign. -/
theorem mem_splitSign_of_blank {cs : List Char} {c : Char} (hc : isBlank c = true) (h : c ∈ cs) :
    c ∈ (splitSign cs).2 := by
  unfold splitSign
  split
  · rcases List.mem_cons.1 h with rfl | hcs
    · cases hc
    · exact hcs
  · rcases List.mem_cons.1 h with rfl | hcs
    · cases hc
    · exact hcs
  · exact h

theorem allDigits?_unblank {cs : List Char} {ds : List Digit} (h : allDigits? cs = some ds) :
    Unblank cs := by
  intro c hcs hblank
  have hrest := mem_spanDigits_of_blank hblank hcs
  unfold allDigits? at h
  split at h
  · next hspan =>
    rw [hspan] at hrest
    cases hrest
  · cases h

theorem readPower?_unblank {cs : List Char} {power : Option Int} (h : readPower? cs = some power) :
    Unblank cs := by
  cases cs with
  | nil => exact fun c hc => absurd hc List.not_mem_nil
  | cons mark cs =>
    intro c hcs hblank
    simp only [readPower?] at h
    split at h
    · next hmark =>
      rcases List.mem_cons.1 hcs with rfl | hcs
      · rcases hmark with rfl | rfl <;> cases hblank
      · obtain ⟨ds, hds, -⟩ := Option.map_eq_some_iff.1 h
        exact allDigits?_unblank hds c (mem_splitSign_of_blank hblank hcs) hblank
    · cases h

theorem readNumeral?_unblank {negative : Bool} {cs : List Char} {n : Numeral}
    (h : readNumeral? negative cs = some n) : Unblank cs := by
  intro c hcs hblank
  have hrest := mem_spanDigits_of_blank hblank hcs
  simp only [readNumeral?] at h
  split at h
  · next after hafter =>
    rw [hafter] at hrest
    split at h
    · cases h
    · obtain ⟨power, hpower, -⟩ := Option.map_eq_some_iff.1 h
      rcases List.mem_cons.1 hrest with rfl | hrest
      · cases hblank
      · exact readPower?_unblank hpower c (mem_spanDigits_of_blank hblank hrest) hblank
  · split at h
    · cases h
    · obtain ⟨power, hpower, -⟩ := Option.map_eq_some_iff.1 h
      exact readPower?_unblank hpower c hrest hblank

/-- The words for infinities and for no number have no blanks in any case. -/
theorem unblank_of_word {word : String} (hword : Unblank word.toList) {cs : List Char}
    (h : String.ofList (cs.map Char.toLower) = word) : Unblank cs := by
  intro c hcs hblank
  have hmem : c.toLower ∈ cs.map Char.toLower := List.mem_map_of_mem hcs
  rw [toLower_of_isBlank hblank, ← String.toList_ofList (l := cs.map Char.toLower), h] at hmem
  exact hword c hmem hblank

/-- No character of a number literal is blank. -/
theorem readLiteral?_unblank {cs : List Char} {x : Float} (h : readLiteral? cs = some x) :
    Unblank cs := by
  intro c hcs hblank
  have hrest := mem_splitSign_of_blank hblank hcs
  simp only [readLiteral?] at h
  split at h
  · next hword =>
    rcases hword with hword | hword
    · exact unblank_of_word (by decide) hword c hrest hblank
    · exact unblank_of_word (by decide) hword c hrest hblank
  · split at h
    · next hword => exact unblank_of_word (by decide) hword c hrest hblank
    · obtain ⟨n, hn, -⟩ := Option.map_eq_some_iff.1 h
      exact readNumeral?_unblank hn c hrest hblank

theorem ne_nil_of_readLiteral? {cs : List Char} {x : Float} (h : readLiteral? cs = some x) :
    cs ≠ [] := by
  rintro rfl
  cases h

end Numeric

/-! ## Hits as they are sent -/

namespace Server

/-- A reply carries a score: a double, or a text of the score's literal with blanks around it. -/
inductive Reply.Carries : Reply → Float → Prop where
  | double (x : Float) : Carries (.double x) x
  | text {reply : Reply} {before literal after : List Char} {x : Float}
      (htext : reply.Says (String.ofList (before ++ literal ++ after))) (hbefore : AllBlank before)
      (reads : readLiteral? literal = some x) (hafter : AllBlank after) : Carries reply x

/-- A score that is carried is read. -/
theorem Reply.Carries.number? {reply : Reply} {x : Float} (h : reply.Carries x) :
    reply.number? = some x := by
  cases h with
  | double => rfl
  | text htext hbefore reads hafter =>
    rw [number?_of_text htext, String.toList_ofList,
      trimList_pad hbefore (readLiteral?_unblank reads) hafter (ne_nil_of_readLiteral? reads), reads]

/-- A hit, and its score as the two versions of the protocol send it, each in its own way. -/
structure SentHit where
  hit : Candidate
  flatScore : Reply
  mappedScore : Reply
  flat_carries : flatScore.Carries hit.score
  mapped_carries : mappedScore.Carries hit.score

namespace SentHit

/-- An id as it is sent. -/
def sentId (h : SentHit) : Reply := .bulk h.hit.id.toUTF8

/-- Attributes as they are sent; none are sent as `nil`. -/
def sentAttributes (h : SentHit) : Reply :=
  match h.hit.attributes with
  | none => .nil
  | some attributes => .bulk attributes.toUTF8

/-- The three items of a hit in the flat list. -/
def items (h : SentHit) : List Reply := [h.sentId, h.flatScore, h.sentAttributes]

/-- The pair of a hit in the map. -/
def pair (h : SentHit) : Reply × Reply := (h.sentId, .array [h.mappedScore, h.sentAttributes])

theorem text?_sentId (h : SentHit) : h.sentId.text? = some h.hit.id :=
  Reply.text?_eq_some_iff.2 (.bulk h.hit.id)

theorem text?_sentAttributes (h : SentHit) : h.sentAttributes.text? = h.hit.attributes := by
  unfold sentAttributes
  cases h.hit.attributes with
  | none => rfl
  | some attributes => exact Reply.text?_eq_some_iff.2 (.bulk attributes)

/-- The three items of a hit are decoded into it. -/
theorem hitsOfItems_items (h : SentHit) (rest : List Reply) :
    Reply.hitsOfItems (h.items ++ rest) = h.hit.toHit :: Reply.hitsOfItems rest := by
  rw [items, List.cons_append, List.cons_append, List.cons_append, List.nil_append,
    Reply.hitsOfItems_three, h.text?_sentId, h.flat_carries.number?, h.text?_sentAttributes]
  rfl

/-- The pair of a hit is decoded into it. -/
theorem hitOfPair_pair (h : SentHit) : Reply.hitOfPair h.pair.1 h.pair.2 = h.hit.toHit := by
  have hscore : ([h.mappedScore, h.sentAttributes][0]?.bind Reply.number?) = some h.hit.score :=
    h.mapped_carries.number?
  have hattributes :
      ([h.mappedScore, h.sentAttributes][1]?.bind Reply.text?) = h.hit.attributes :=
    h.text?_sentAttributes
  simp only [pair, Reply.hitOfPair, h.text?_sentId, hscore, hattributes]
  rfl

end SentHit

/-- The reply of the older version: one flat list. -/
def flatReply (hits : List SentHit) : Reply := .array (hits.flatMap SentHit.items)

/-- The reply of the newer version: a map. -/
def mappedReply (hits : List SentHit) : Reply := .map (hits.map SentHit.pair)

theorem hits_flatReply (hits : List SentHit) :
    (flatReply hits).hits = hits.map fun h => h.hit.toHit := by
  change Reply.hitsOfItems (hits.flatMap SentHit.items) = _
  induction hits with
  | nil => rfl
  | cons h hits ih => rw [List.flatMap_cons, h.hitsOfItems_items, ih, List.map_cons]

theorem hits_mappedReply (hits : List SentHit) :
    (mappedReply hits).hits = hits.map fun h => h.hit.toHit := by
  rw [mappedReply, Reply.decodesLocally.mapHits, List.map_map]
  exact List.map_congr_left fun h _ => h.hitOfPair_pair

/-- Both versions of the protocol carry the same hits, which are those that were sent, in their
order, whichever way each of them sends a score. -/
theorem protocols_carry_same_hits (hits : List SentHit) :
    (flatReply hits).hits = (mappedReply hits).hits ∧
      (flatReply hits).hits = hits.map (fun h => h.hit.toHit) ∧
      (mappedReply hits).hits = hits.map fun h => h.hit.toHit :=
  ⟨(hits_flatReply hits).trans (hits_mappedReply hits).symm, hits_flatReply hits,
    hits_mappedReply hits⟩

/-- A score may be sent as text with blanks around it. -/
theorem carries_padded : (Reply.simple " 1e0 ").Carries 1 :=
  @Reply.Carries.text _ [' '] ['1', 'e', '0'] [' '] 1 (.simple _) (by decide)
    (by decide +kernel) (by decide)

/-- Two hits, whose scores are sent as a double in the one version and as padded text in the
other. -/
def crossedHits : List SentHit :=
  [⟨⟨"a", 1, some "\x7b\x7d"⟩, .double 1, .simple " 1e0 ", .double 1, carries_padded⟩,
    ⟨⟨"b", 1, none⟩, .simple " 1e0 ", .double 1, carries_padded, .double 1⟩]

/-- Both versions carry them. -/
theorem crossedHits_carried :
    (flatReply crossedHits).hits = [.scored "a" 1 (some "\x7b\x7d"), .scored "b" 1 none] ∧
      (mappedReply crossedHits).hits =
        [.scored "a" 1 (some "\x7b\x7d"), .scored "b" 1 none] := by
  obtain ⟨-, hflat, hmapped⟩ := protocols_carry_same_hits crossedHits
  exact ⟨hflat, hmapped⟩

end Server

end SimilarityStore
