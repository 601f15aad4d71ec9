import SimilarityStore.Proofs.Server.CommandFraming
import SimilarityStore.Proofs.Server.ReplyRows
import SimilarityStore.Server.Backend

/-
  Searches over a server, whatever it replies.  A search sends one search command and then, for
  each row of the reply that stands for a candidate, the command that fetches its vector, up to the
  first that fails (`leads_reconstructAll_over_link`).  What counts as a failed fetch is decided by
  the client of the link, of which nothing is assumed.  If it reads lists of doubles as such
  (`Link.ReadsDoubles`), a search over a server that has the vectors succeeds
  (`Fetches.eq_of_serves`).  Main statement: `malformed_reply_parts_stay_local`, a part of the reply
  that cannot be decoded costs its own row or its own attributes and nothing else.
-/

namespace SimilarityStore.Server

open SimilarityStore.Numeric SimilarityStore.Store
open Program (Leads leads_ofExcept leads_perform)

/-- Programs are run with the server behind a link. -/
def environment {σ : Type} (link : Link σ) (embedder : String → Except StoreError FeatureVector)
    (ids : Nat → String) : Environment σ := ⟨backend link, embedder, ids⟩

/-- The commands that are sent in a run. -/
def commandsOf (writer : NumberWriter) (trace : List Step) : List Command :=
  trace.filterMap fun
    | .call c => some (command writer c)
    | _ => none

/-- The vector of numbers in single precision. -/
def singles (numbers : Option (List Float)) : Option FeatureVector :=
  numbers.map fun xs => ⟨xs.map FloatingPoint.convert⟩

/-- The vectors of candidates are fetched over a link, one command for each in order, cut off right
behind the first for which the client has no numbers, but an error.  That is the result, and
otherwise the matches of all candidates are, with their vectors in single precision. -/
inductive Fetches {σ : Type} (link : Link σ) (key : String) :
    List Candidate → σ → List Command → Except StoreError (List Match) → σ → Prop where
  | done (state : σ) : Fetches link key [] state [] (.ok []) state
  | answered {c : Candidate} {cs : List Candidate} {state next final : σ} {reply : Reply}
      {numbers : Option (List Float)} {sent : List Command}
      {result : Except StoreError (List Match)}
      (exchanged : link.exchange ["VEMB", key, c.id] state = (.ok reply, next))
      (read : link.readNumbers reply = .ok numbers)
      (rest : Fetches link key cs next sent result final) :
      Fetches link key (c :: cs) state (["VEMB", key, c.id] :: sent)
        (result.map (c.toMatch (singles numbers) :: ·)) final
  | failed {c : Candidate} {cs : List Candidate} {state next : σ}
      {answer : Except StoreError Reply} {e : StoreError}
      (exchanged : link.exchange ["VEMB", key, c.id] state = (answer, next))
      (withheld : answer.bind link.readNumbers = .error e) :
      Fetches link key (c :: cs) state [["VEMB", key, c.id]] (.error e) next

/-! ## Servers that have the vectors -/

/-- The reply that carries numbers, or none. -/
def Reply.ofNumbers : Option (List Float) → Reply
  | none => .nil
  | some xs => .array (xs.map .double)

/-- The client of a link reads a list of doubles as its numbers, and `nil` as none. -/
structure Link.ReadsDoubles {σ : Type} (link : Link σ) : Prop where
  nil : link.readNumbers .nil = .ok none
  doubles : ∀ xs : List Float, link.readNumbers (.array (xs.map .double)) = .ok (some xs)

/-- The server has vectors by id under a key, and replies to every fetch with the one it has. -/
def Link.Serves {σ : Type} (link : Link σ) (key : String) (stored : String → Option (List Float)) :
    Prop :=
  ∀ id state, (link.exchange ["VEMB", key, id] state).1 = .ok (.ofNumbers (stored id))

section Serves

variable {σ : Type} {link : Link σ} {key : String} {stored : String → Option (List Float)}

theorem Link.ReadsDoubles.readNumbers (h : link.ReadsDoubles) (numbers : Option (List Float)) :
    link.readNumbers (.ofNumbers numbers) = .ok numbers := by
  cases numbers with
  | none => exact h.nil
  | some xs => exact h.doubles xs

/-- From a server that has the vectors all of them are fetched. -/
theorem Fetches.eq_of_serves {cs : List Candidate} {state final : σ} {sent : List Command}
    {result : Except StoreError (List Match)} (h : Fetches link key cs state sent result final)
    (hreads : link.ReadsDoubles) (hserves : link.Serves key stored) :
    sent = cs.map (fun c => ["VEMB", key, c.id]) ∧
      result = .ok (cs.map fun c => c.toMatch (singles (stored c.id))) := by
  induction h with
  | done state => exact ⟨rfl, rfl⟩
  | @answered c cs state next final reply numbers sent result exchanged read rest ih =>
    obtain ⟨rfl, rfl⟩ := ih
    have hreply := hserves c.id state
    rw [exchanged, Except.ok.injEq] at hreply
    have hnumbers : numbers = stored c.id :=
      Except.ok.inj ((hreply ▸ read).symm.trans (hreads.readNumbers _))
    rw [hnumbers]
    exact ⟨rfl, rfl⟩
  | @failed c cs state next answer e exchanged withheld =>
    have hreply := hserves c.id state
    rw [exchanged] at hreply
    have hread : answer.bind link.readNumbers = .ok (stored c.id) :=
      (congrArg (Except.bind · link.readNumbers) hreply).trans (hreads.readNumbers _)
    cases hread.symm.trans withheld

end Serves

/-! ## Commands and replies -/

section Commands

variable (writer : NumberWriter)

theorem commandsOf_append (earlier later : List Step) :
    commandsOf writer (earlier ++ later) =
      commandsOf writer earlier ++ commandsOf writer later :=
  List.filterMap_append

/-- Reports are not sent. -/
theorem commandsOf_logs (events : List Event) : commandsOf writer (events.map .log) = [] := by
  rw [commandsOf, List.filterMap_map, List.filterMap_eq_nil_iff]
  intro event _
  rfl

theorem commandsOf_reports (events : List Event) :
    commandsOf writer ((events.map Moment.report).flatMap Moment.steps) = [] := by
  have same : (events.map Moment.report).flatMap Moment.steps = events.map .log := by
    rw [List.flatMap_map, List.map_eq_flatMap]
    rfl
  rw [same, commandsOf_logs]

/-- A call of the backend is one command. -/
theorem commandsOf_turn (t : Turn) (more : List Moment) :
    commandsOf writer ((Moment.turn t :: more).flatMap Moment.steps) =
      command writer t.call :: commandsOf writer (more.flatMap Moment.steps) := by
  rw [List.flatMap_cons, commandsOf_append, Moment.steps]
  show command writer t.call :: commandsOf writer (t.events.map .log) ++ _ = _
  rw [commandsOf_logs]
  rfl

end Commands

/-- A fetch is answered with what the client reads out of its reply. -/
theorem bind_answerOf_fetch {σ : Type} (link : Link σ) (key id : String)
    (answer : Except StoreError Reply) :
    answer.bind (answerOf link (.fetch key id)) = (answer.bind link.readNumbers).map singles := by
  cases answer with
  | error e => rfl
  | ok reply => rfl

/-! ## Parts of a search -/

section Search

variable {σ : Type} (link : Link σ) (embedder : String → Except StoreError FeatureVector)
  (ids : Nat → String) (set : VectorSet)

/-- The candidates of the hits are fetched in order, up to the first that fails. -/
theorem leads_reconstructAll_over_link (hits : List Hit) (w : World σ) :
    ∃ moments result v,
      Leads (environment link embedder ids) (set.reconstructAll hits) w moments result v ∧
        Fetches link set.key (hits.filterMap Hit.candidate?) w.state
          (commandsOf link.writer (moments.flatMap Moment.steps)) result v.state := by
  induction hits generalizing w with
  | nil => exact ⟨[], .ok [], w, Program.leads_pure [], .done _⟩
  | cons hit hits ih =>
    rw [VectorSet.reconstructAll, VectorSet.reconstruct_eq]
    cases hc : hit.candidate? with
    | none =>
      obtain ⟨moments, result, v, hrest, hfetches⟩ := ih w
      refine ⟨moments, result.map fun more => [] ++ more, v,
        (Program.leads_pure none).bind (hrest.map _), ?_⟩
      rw [List.filterMap_cons_none hc]
      cases result <;> exact hfetches
    | some c =>
      let call : Call := .fetch set.key c.id
      have hfetch := leads_perform (environment link embedder ids) w call
      rw [List.filterMap_cons_some hc]
      cases hexchange : link.exchange (command link.writer call) w.state with
      | mk answer next =>
        have hanswer : ((environment link embedder ids).backend.answer call w.state) =
            (answer.bind (answerOf link call), next,
              eventsOf call (answer.bind (answerOf link call))) := by
          simp only [environment, backend, hexchange]
        have hnext : (environment link embedder ids).backend.next call w.state = next := by
          rw [Backend.next, hanswer]
        rw [hanswer, hnext, bind_answerOf_fetch] at hfetch
        cases hread : answer.bind link.readNumbers with
        | error e =>
          rw [hread] at hfetch
          refine ⟨_, .error e, _, hfetch.bind_error.bind_error, ?_⟩
          rw [commandsOf_turn]
          exact .failed hexchange hread
        | ok numbers =>
          rw [hread] at hfetch
          obtain ⟨moments, result, v, hrest, hfetches⟩ := ih ⟨next, w.drawn⟩
          refine ⟨_, result.map (c.toMatch (singles numbers) :: ·), v,
            (hfetch.map _).bind (hrest.map _), ?_⟩
          cases answer with
          | error e => cases hread
          | ok reply =>
            rw [List.singleton_append, commandsOf_turn]
            exact .answered hexchange hread hfetches

/-- The search of a query over a link, whose reply comes back as a value. -/
theorem leads_search_over_link {r : SearchRequest} {query : FeatureVector}
    (hquery : r.query = some query) (hvalid : query.validate = .ok ()) (w : World σ) :
    ∃ p, r.Sets p ∧ ∀ reply state,
      link.exchange (searchCommand link.writer set.key query p) w.state = (.ok reply, state) →
      ∃ moments result v sent,
        Leads (environment link embedder ids) (set.search (some r)) w moments result v ∧
          Fetches link set.key (reply.hits.filterMap Hit.candidate?) state sent result v.state ∧
          commandsOf link.writer (moments.flatMap Moment.steps) =
            searchCommand link.writer set.key query p :: sent := by
  have hval : Leads (environment link embedder ids) (Program.ofExcept query.validate) w [] (.ok ())
      w := by
    rw [hvalid]
    exact leads_ofExcept _ w _
  obtain ⟨text?, htext, hiff⟩ :=
    VectorSet.leads_filterText (environment link embedder ids) set r.filter w
  let p : Parameters := ⟨r.maxResults, r.tolerance, text?⟩
  refine ⟨p, SearchRequest.sets_of_filter hiff, fun reply state hexchange => ?_⟩
  let call : Call := .search set.key query p
  have hanswer : (environment link embedder ids).backend.answer call w.state =
      (.ok reply.hits, state, [.serverSearched set.key reply.hits.length]) := by
    have hexchange' : link.exchange (command link.writer call) w.state = (.ok reply, state) :=
      hexchange
    simp only [environment, backend, hexchange', Except.bind, call, answerOf, eventsOf]
  have hnext : (environment link embedder ids).backend.next call w.state = state := by
    rw [Backend.next, hanswer]
  have hsearch := leads_perform (environment link embedder ids) w call
  rw [hanswer, hnext] at hsearch
  obtain ⟨moments, result, v, hrest, hfetches⟩ :=
    leads_reconstructAll_over_link link embedder ids set reply.hits ⟨state, w.drawn⟩
  have hclosed := hrest.closing
    (fun found => .searched set.key reply.hits.length found.length) id
  rw [Except.map_id] at hclosed
  unfold VectorSet.search
  simp only [hquery]
  refine ⟨_, result, v, _, hval.bind (htext.bind (hsearch.bind hclosed)), hfetches, ?_⟩
  -- The reports around the calls are not sent, so that the calls alone are left.
  rw [List.nil_append, List.flatMap_append, commandsOf_append, commandsOf_reports,
    List.nil_append, List.singleton_append, commandsOf_turn, List.flatMap_append,
    commandsOf_append, commandsOf_reports, List.append_nil]
  rfl

/-- Each hit is decoded from its own part of a reply.  So a search over a server whose reply comes
back as a value fetches the vectors of the candidates that the rows of the reply stand for, one
after the other up to the first failure, and of nothing else; it returns that failure, or the
matches of all of them.  With a client that reads doubles and a server that has the vectors there is
no failure. -/
theorem malformed_reply_parts_stay_local (w : World σ) :
    Reply.DecodesLocally ∧
      ∀ (r : SearchRequest) (query : FeatureVector), r.query = some query →
        query.validate = .ok () → ∃ p, r.Sets p ∧ ∀ reply state,
          link.exchange (searchCommand link.writer set.key query p) w.state = (.ok reply, state) →
          ∃ cs sent, Reply.Selects reply.rows cs ∧
            Fetches link set.key cs state sent
              ((set.search (some r)).run (environment link embedder ids) w).result
              ((set.search (some r)).run (environment link embedder ids) w).world.state ∧
            commandsOf link.writer
                ((set.search (some r)).run (environment link embedder ids) w).trace =
              searchCommand link.writer set.key query p :: sent ∧
            ∀ stored, link.ReadsDoubles → link.Serves set.key stored →
              sent = cs.map (fun c => ["VEMB", set.key, c.id]) ∧
                ((set.search (some r)).run (environment link embedder ids) w).result =
                  .ok (cs.map fun c => c.toMatch (singles (stored c.id))) := by
  refine ⟨Reply.decodesLocally, fun r query hquery hvalid => ?_⟩
  obtain ⟨p, hp, hreply⟩ := leads_search_over_link link embedder ids set hquery hvalid w
  refine ⟨p, hp, fun reply state hexchange => ?_⟩
  obtain ⟨moments, result, v, sent, hleads, hfetches, hsent⟩ := hreply reply state hexchange
  refine ⟨reply.hits.filterMap Hit.candidate?, sent, reply.selects_rows, ?_, ?_,
    fun stored hreads hserves => ?_⟩
  · rw [hleads.result, hleads.world]
    exact hfetches
  · rw [Program.trace_run, hleads.dialogue]
    exact hsent
  · rw [hleads.result]
    exact hfetches.eq_of_serves hreads hserves

end Search

/-! ## A reply with malformed parts -/

/-- A row whose attributes are a number, a row whose id is missing, and a row that is cut off. -/
def mixedReply : Reply :=
  .array [.simple "a", .double 0.5, .int 7, .nil, .double 1, .nil, .simple "c"]

/-- The value of a double. -/
def readDouble : Reply → Except StoreError Float
  | .double x => .ok x
  | _ => .error .server

/-- The values of a list of doubles. -/
def readDoubles : Reply → Except StoreError (Option (List Float))
  | .nil => .ok none
  | .array items => some <$> items.mapM readDouble
  | _ => .error .server

/-- A server that replies to searches with the mixed reply and to fetches with one vector. -/
def mixedLink : Link Unit where
  writer := .shortest
  exchange
    | "VSIM" :: _, state => (.ok mixedReply, state)
    | "VEMB" :: _, state => (.ok (.array [.double 0.25]), state)
    | _, state => (.error .server, state)
  readFlag _ := .error .server
  readNumbers := readDoubles

theorem mixedLink_readsDoubles : mixedLink.ReadsDoubles where
  nil := rfl
  doubles xs := by
    have hall : (xs.map Reply.double).mapM readDouble = .ok xs := by
      induction xs with
      | nil => rfl
      | cons x xs ih => rw [List.map_cons, List.mapM_cons, ih]; rfl
    change some <$> (xs.map Reply.double).mapM readDouble = _
    rw [hall]
    rfl

/-- The search of a vector with one component that is answered with the mixed reply. -/
def mixedSearch : Outcome Unit (List Match) :=
  ((VectorSet.mk "k").search (some { query := some ⟨[1]⟩ })).run
    (environment mixedLink (fun _ => .error .server) fun _ => "") ⟨(), 0⟩

/-- Of the rows of the reply only the first stands for a candidate, only its vector is fetched, and
it is found without attributes. -/
theorem mixedSearch_finds :
    mixedSearch.result = .ok [⟨"a", 0.5, ⟨[FloatingPoint.convert (0.25 : Float)]⟩, none⟩] ∧
      (commandsOf .shortest mixedSearch.trace).tail = [["VEMB", "k", "a"]] := by
  have hsound : (FeatureVector.mk [1]).fault? = none := by decide +kernel
  have hvalid : (FeatureVector.mk [1]).validate = .ok () := by
    rw [FeatureVector.validate, hsound]
  obtain ⟨-, hsearch⟩ := malformed_reply_parts_stay_local mixedLink (fun _ => .error .server)
    (fun _ => "") ⟨"k"⟩ ⟨(), 0⟩
  obtain ⟨p, -, hreply⟩ := hsearch { query := some ⟨[1]⟩ } ⟨[1]⟩ rfl hvalid
  obtain ⟨cs, sent, hselects, -, hsent, hfound⟩ := hreply mixedReply () rfl
  have hcs : cs = [⟨"a", 0.5, none⟩] := hselects.eq_filterMap
  obtain ⟨rfl, hresult⟩ := hfound (fun _ => some [0.25]) mixedLink_readsDoubles fun _ _ => rfl
  rw [hcs] at hsent hresult
  exact ⟨hresult, congrArg List.tail hsent⟩

end SimilarityStore.Server
