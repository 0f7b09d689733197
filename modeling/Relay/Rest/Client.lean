import Mathlib.Data.List.DropRight
import Relay.Effect.Trace
import Relay.Json.Print

/-!
A client of Salesforce's REST API: a token, one retry, page after page.

Both clients of the repository are this one at their own values, which say how an
answer is read and what error is made of it. A form and a query string are the
parameters that they encode. Nothing bounds how many pages there are, so the loop
takes fuel: `none` is a loop that has not ended yet.
-/

namespace Relay.Rest

open Relay.Json Relay.Effect Relation

/-- An answer: its status and the document in its body. -/
structure Response where
  status : Nat
  document : Value Json.Token

/-- The body, which is ASCII. -/
def Response.body (response : Response) : List Char := print .python response.document

/-- A status from 200 to 299. -/
def Succeeds (status : Nat) : Prop := 200 ≤ status ∧ status < 300

instance (status : Nat) : Decidable (Succeeds status) := inferInstanceAs (Decidable (_ ∧ _))

/-- A text without the slashes at its end. -/
def trimSlashes (text : String) : String := String.ofList (text.toList.rdropWhile (· = '/'))

/-- What a request is for: a path and the parameters of the query. -/
structure Target where
  path : String
  params : List (String × String)

inductive Call where
  /-- A POST to the token endpoint. -/
  | token (form : List (String × String))
  | get (instanceUrl authorization : String) (target : Target)

/-- An answer, or the error of a request that got none. -/
abbrev Call.Answer : Call → Type := fun _ => Except String Response

abbrev Http (α : Type) := Prog Call.Answer α

/-- What a client reads of a page: its records, and the path of the next page if there is one. -/
structure Page (R : Type) where
  records : List R
  next : Option String

/-- A client: its configuration, and how it reads answers. -/
structure Client (E Tok R : Type) where
  apiVersion : String
  clientId : String
  clientSecret : String
  /-- The error of a token request without an answer. -/
  tokenLost : String → E
  /-- The token that is kept. -/
  readToken : Response → Except E Tok
  /-- The instance and the header of a request. -/
  authorise : Tok → Except E (String × String)
  /-- The error of a page request without an answer. -/
  queryLost : String → E
  readPage : Response → Except E (Page R)

namespace Client

variable {E Tok R : Type} (c : Client E Tok R)

def form : List (String × String) :=
  [("grant_type", "client_credentials"), ("client_id", c.clientId), ("client_secret", c.clientSecret)]

/-- `getToken` and `_access_token`: the cached token, or a new one, and what is cached then. -/
def getToken (cached : Option Tok) (refresh : Bool) : Http (Except E Tok × Option Tok) :=
  match cached, refresh with
  | some tok, false => return (.ok tok, some tok)
  | cached, _ => do
      match ← Prog.perform (Call.token c.form) with
      | .error message => return (.error (c.tokenLost message), cached)
      | .ok response =>
          match c.readToken response with
          | .error err => return (.error err, cached)
          | .ok tok => return (.ok tok, some tok)

/-- One attempt of `getJSON` and `_get`. -/
def attempt (cached : Option Tok) (refresh : Bool) (target : Target) : Http (Except E Response × Option Tok) := do
  match ← c.getToken cached refresh with
  | (.error err, cached) => return (.error err, cached)
  | (.ok tok, cached) =>
      match c.authorise tok with
      | .error err => return (.error err, cached)
      | .ok (instanceUrl, authorization) =>
          match ← Prog.perform (Call.get instanceUrl authorization target) with
          | .error message => return (.error (c.queryLost message), cached)
          | .ok response => return (.ok response, cached)

/-- `getJSON` and `_get`: after a 401 a new token and one more attempt. -/
def getJSON (cached : Option Tok) (target : Target) : Http (Except E (Page R) × Option Tok) := do
  match ← c.attempt cached false target with
  | (.error err, cached) => return (.error err, cached)
  | (.ok response, cached) =>
      if response.status = 401 then
        match ← c.attempt cached true target with
        | (.error err, cached) => return (.error err, cached)
        | (.ok response, cached) => return (c.readPage response, cached)
      else return (c.readPage response, cached)

/-- The loop of `QueryAll` and `query_all`. -/
def pages : (fuel : Nat) → Option Tok → Target → List R → Http (Option (Except E (List R)) × Option Tok)
  | 0, cached, _, _ => return (none, cached)
  | fuel + 1, cached, target, all => do
      match ← c.getJSON cached target with
      | (.error err, cached) => return (some (.error err), cached)
      | (.ok page, cached) =>
          match page.next with
          | none => return (some (.ok (all ++ page.records)), cached)
          | some path => pages fuel cached ⟨path, []⟩ (all ++ page.records)

/-- The first page of a query. -/
def queryTarget (soql : String) : Target := ⟨"/services/data/" ++ c.apiVersion ++ "/query", [("q", soql)]⟩

/-- `QueryAll` and `query_all`. -/
def queryAll (fuel : Nat) (cached : Option Tok) (soql : String) : Http (Option (Except E (List R)) × Option Tok) :=
  c.pages fuel cached (c.queryTarget soql) []

end Client

/-! ### The calls for a page -/

/-- The answer to a token request is a token that the client can use. -/
def Client.Grants {E Tok R : Type} (c : Client E Tok R) (reply : Except String Response) : Prop :=
  ∃ response tok header, reply = .ok response ∧ c.readToken response = .ok tok ∧ c.authorise tok = .ok header

/-- The token can be used. -/
def Client.Usable {E Tok R : Type} (c : Client E Tok R) (cached : Option Tok) : Prop :=
  ∃ tok header, cached = some tok ∧ c.authorise tok = .ok header

/-- The calls before those for a page: a token request if there is no token, or if it is to be renewed. -/
inductive Client.Opens {E Tok R : Type} (c : Client E Tok R) :
    (cached : Option Tok) → (refresh : Bool) → List (Exchange Call.Answer) → Prop where
  | held {tok : Tok} : c.Opens (some tok) false []
  | requests {cached : Option Tok} {refresh : Bool} {reply : Except String Response} :
      cached = none ∨ refresh = true → c.Opens cached refresh [⟨.token c.form, reply⟩]

/-- After these calls the client has a token that it can use. -/
inductive Client.Equipped {E Tok R : Type} (c : Client E Tok R) :
    (cached : Option Tok) → (refresh : Bool) → List (Exchange Call.Answer) → Prop where
  | held {cached : Option Tok} : c.Usable cached → c.Equipped cached false []
  | granted {cached : Option Tok} {refresh : Bool} {reply : Except String Response} :
      cached = none ∨ refresh = true → c.Grants reply → c.Equipped cached refresh [⟨.token c.form, reply⟩]

/-- The calls for one page: one request, or after a 401 one token request, and one more request if it
granted a token. -/
inductive Client.Asks {E Tok R : Type} (c : Client E Tok R) (target : Target) :
    List (Exchange Call.Answer) → Prop where
  | once {instanceUrl authorization : String} {reply : Except String Response} :
      (∀ response, reply = .ok response → response.status ≠ 401) →
      c.Asks target [⟨.get instanceUrl authorization target, reply⟩]
  | refused {instanceUrl authorization : String} {response : Response} {granted : Except String Response} :
      response.status = 401 → ¬ c.Grants granted →
      c.Asks target [⟨.get instanceUrl authorization target, .ok response⟩, ⟨.token c.form, granted⟩]
  | twice {instanceUrl authorization instanceUrl' authorization' : String} {response : Response}
      {granted reply : Except String Response} : response.status = 401 → c.Grants granted →
      c.Asks target [⟨.get instanceUrl authorization target, .ok response⟩, ⟨.token c.form, granted⟩,
        ⟨.get instanceUrl' authorization' target, reply⟩]

/-- The last of the calls served a page. -/
def Served (calls : List (Exchange Call.Answer)) : Prop :=
  ∃ before instanceUrl authorization target response, response.status = 200 ∧
    calls = before ++ [⟨.get instanceUrl authorization target, .ok response⟩]

theorem not_served_token (before : List (Exchange Call.Answer)) {form : List (String × String)}
    {reply : Except String Response} : ¬ Served (before ++ [⟨.token form, reply⟩]) := by
  rintro ⟨before', _, _, _, _, -, same⟩
  cases (List.append_inj' same rfl).2

theorem not_served_lost (before : List (Exchange Call.Answer)) {instanceUrl authorization : String} {target : Target}
    {message : String} : ¬ Served (before ++ [⟨.get instanceUrl authorization target, .error message⟩]) := by
  rintro ⟨before', _, _, _, _, -, same⟩
  cases (List.append_inj' same rfl).2

theorem served_iff {before : List (Exchange Call.Answer)} {instanceUrl authorization : String} {target : Target}
    {response : Response} :
    Served (before ++ [⟨.get instanceUrl authorization target, .ok response⟩]) ↔ response.status = 200 := by
  constructor
  · rintro ⟨before', _, _, _, _, ok, same⟩
    cases (List.append_inj' same rfl).2
    exact ok
  · intro ok
    exact ⟨before, _, _, _, _, ok, rfl⟩

section Runs

variable {E Tok R World : Type} {c : Client E Tok R}
  {answers : (call : Call) → World → Call.Answer call → World → Prop} {env : World → World → Prop}

/-- A request for a target is answered, the world moved to by then. -/
def Answered (answers : (call : Call) → World → Call.Answer call → World → Prop) (env : World → World → Prop)
    (target : Target) (calls : List (Exchange Call.Answer)) (response : Response) (w w' : World) : Prop :=
  ∃ before instanceUrl authorization w₁, calls = before ++ [⟨.get instanceUrl authorization target, .ok response⟩] ∧
    ReflTransGen env w w₁ ∧ answers (.get instanceUrl authorization target) w₁ (.ok response) w'

/-- The token is the cached one, or one request is made for it. -/
theorem getToken_traced (shared : ∀ call w reply w', answers call w reply w' → env w w') {cached cached' : Option Tok}
    {refresh : Bool} {w w' : World} {calls : List (Exchange Call.Answer)} {result : Except E Tok}
    (run : Traced answers env (c.getToken cached refresh) w calls (result, cached') w') :
    ReflTransGen env w w' ∧ (∀ tok, result = .ok tok → cached' = some tok) ∧
      ((∃ tok, cached = some tok ∧ refresh = false ∧ result = .ok tok ∧ calls = []) ∨
        ((cached = none ∨ refresh = true) ∧ ∃ reply, calls = [⟨.token c.form, reply⟩] ∧
          ∀ tok, result = .ok tok ↔ ∃ response, reply = .ok response ∧ c.readToken response = .ok tok)) := by
  have asks : ∀ {cached : Option Tok}, Traced answers env (do
      match ← Prog.perform (Call.token c.form) with
      | .error message => return (.error (c.tokenLost message), cached)
      | .ok response =>
          match c.readToken response with
          | .error err => return (.error err, cached)
          | .ok tok => return (.ok tok, some tok)) w calls (result, cached') w' →
      ReflTransGen env w w' ∧ (∀ tok, result = .ok tok → cached' = some tok) ∧
        ∃ reply, calls = [⟨.token c.form, reply⟩] ∧
          ∀ tok, result = .ok tok ↔ ∃ response, reply = .ok response ∧ c.readToken response = .ok tok := by
    intro cached run
    obtain ⟨w₁, reply, w₂, later, rfl, moves, answered, run⟩ := Traced.of_perform_bind run
    have reached := moves.tail (shared _ _ _ _ answered)
    cases reply with
    | error message =>
        obtain ⟨rfl, same, rfl⟩ := Traced.of_ret run
        cases same
        exact ⟨reached, by simp, _, rfl, by simp⟩
    | ok response =>
        cases read : c.readToken response with
        | error err =>
            simp only [read] at run
            obtain ⟨rfl, same, rfl⟩ := Traced.of_ret run
            cases same
            exact ⟨reached, by simp, _, rfl, by simp [read]⟩
        | ok tok =>
            simp only [read] at run
            obtain ⟨rfl, same, rfl⟩ := Traced.of_ret run
            cases same
            refine ⟨reached, ?_, _, rfl, by simp [read]⟩
            rintro _ ⟨⟩
            rfl
  cases cached with
  | none =>
      obtain ⟨reached, kept, reply, same, gives⟩ := asks run
      exact ⟨reached, kept, .inr ⟨.inl rfl, reply, same, gives⟩⟩
  | some tok =>
      cases refresh with
      | true =>
          obtain ⟨reached, kept, reply, same, gives⟩ := asks run
          exact ⟨reached, kept, .inr ⟨.inr rfl, reply, same, gives⟩⟩
      | false =>
          obtain ⟨rfl, same, rfl⟩ := Traced.of_ret run
          cases same
          refine ⟨.refl, ?_, .inl ⟨tok, rfl, rfl, rfl, rfl⟩⟩
          rintro _ ⟨⟩
          rfl

/-- The client has a token that it can use if and only if the token that it got can be used. -/
theorem equipped_iff {cached : Option Tok} {refresh : Bool} {opening : List (Exchange Call.Answer)}
    {result : Except E Tok}
    (opens : (∃ tok, cached = some tok ∧ refresh = false ∧ result = .ok tok ∧ opening = []) ∨
      ((cached = none ∨ refresh = true) ∧ ∃ reply, opening = [⟨.token c.form, reply⟩] ∧
        ∀ tok, result = .ok tok ↔ ∃ response, reply = .ok response ∧ c.readToken response = .ok tok)) :
    c.Opens cached refresh opening ∧
      (c.Equipped cached refresh opening ↔ ∃ tok header, result = .ok tok ∧ c.authorise tok = .ok header) := by
  rcases opens with ⟨tok, rfl, rfl, rfl, rfl⟩ | ⟨why, reply, rfl, gives⟩
  · refine ⟨.held, ?_, ?_⟩
    · intro equipped
      cases equipped with
      | held usable =>
          obtain ⟨_, header, same, authorised⟩ := usable
          cases same
          exact ⟨tok, header, rfl, authorised⟩
    · rintro ⟨_, header, same, authorised⟩
      cases same
      exact .held ⟨tok, header, rfl, authorised⟩
  · refine ⟨.requests why, ?_, ?_⟩
    · intro equipped
      cases equipped with
      | granted _ grants =>
          obtain ⟨response, tok, header, same, read, authorised⟩ := grants
          exact ⟨tok, header, (gives tok).mpr ⟨response, same, read⟩, authorised⟩
    · rintro ⟨tok, header, same, authorised⟩
      obtain ⟨response, replied, read⟩ := (gives tok).mp same
      exact .granted why ⟨response, tok, header, replied, read, authorised⟩

/-- An attempt stops at its token, or asks for the target. -/
theorem attempt_traced (shared : ∀ call w reply w', answers call w reply w' → env w w') {cached cached' : Option Tok}
    {refresh : Bool} {target : Target} {w w' : World} {calls : List (Exchange Call.Answer)}
    {result : Except E Response} (run : Traced answers env (c.attempt cached refresh target) w calls (result, cached') w') :
    ∃ opening, c.Opens cached refresh opening ∧
      ((calls = opening ∧ (∃ err, result = .error err) ∧ ¬ c.Equipped cached refresh opening) ∨
        c.Equipped cached refresh opening ∧
          ∃ instanceUrl authorization w₁ reply,
            calls = opening ++ [⟨.get instanceUrl authorization target, reply⟩] ∧
            ReflTransGen env w w₁ ∧ answers (.get instanceUrl authorization target) w₁ reply w' ∧
            c.Usable cached' ∧ result = reply.mapError c.queryLost) := by
  obtain ⟨⟨tokResult, cached₁⟩, w₀, opening, after, rfl, tokens, run⟩ := Traced.of_bind run
  obtain ⟨reached, kept, opens⟩ := getToken_traced shared tokens
  obtain ⟨opens, equipped⟩ := equipped_iff opens
  refine ⟨opening, opens, ?_⟩
  rw [equipped]
  cases tokResult with
  | error err =>
      obtain ⟨rfl, same, rfl⟩ := Traced.of_ret run
      cases same
      exact .inl ⟨List.append_nil _, ⟨err, rfl⟩, by simp⟩
  | ok tok =>
      have cachedTok := kept tok rfl
      cases authorised : c.authorise tok with
      | error err =>
          simp only [authorised] at run
          obtain ⟨rfl, same, rfl⟩ := Traced.of_ret run
          cases same
          exact .inl ⟨List.append_nil _, ⟨err, rfl⟩, by simp [authorised]⟩
      | ok header =>
          simp only [authorised] at run
          obtain ⟨w₁, reply, w₂, later, rfl, moves, answered, run⟩ := Traced.of_perform_bind run
          have usable : c.Usable cached₁ := ⟨tok, header, cachedTok, authorised⟩
          refine .inr ⟨⟨tok, header, rfl, authorised⟩, ?_⟩
          cases reply with
          | error message =>
              obtain ⟨rfl, same, rfl⟩ := Traced.of_ret run
              cases same
              exact ⟨_, _, w₁, _, rfl, reached.trans moves, answered, usable, rfl⟩
          | ok response =>
              obtain ⟨rfl, same, rfl⟩ := Traced.of_ret run
              cases same
              exact ⟨_, _, w₁, _, rfl, reached.trans moves, answered, usable, rfl⟩

/-- A token that is renewed is asked for. -/
theorem renewal {cached : Option Tok} {opening : List (Exchange Call.Answer)}
    (opens : c.Opens cached true opening) :
    ∃ granted, opening = [⟨.token c.form, granted⟩] ∧ (c.Equipped cached true opening ↔ c.Grants granted) := by
  cases opens with
  | @requests _ _ granted why =>
      refine ⟨granted, rfl, fun equipped => ?_, fun grants => .granted why grants⟩
      cases equipped with
      | granted _ grants => exact grants

/-- The calls of a page and what becomes of it. -/
theorem getJSON_traced (shared : ∀ call w reply w', answers call w reply w' → env w w') {cached cached' : Option Tok}
    {target : Target} {w w' : World} {calls : List (Exchange Call.Answer)} {result : Except E (Page R)}
    (run : Traced answers env (c.getJSON cached target) w calls (result, cached') w') :
    ∃ opening block, calls = opening ++ block ∧ c.Opens cached false opening ∧
      ((block = [] ∧ (∃ err, result = .error err) ∧ ¬ c.Equipped cached false opening) ∨
        (c.Equipped cached false opening ∧ c.Asks target block) ∧
          ((¬ Served block ∧ ∃ err, result = .error err) ∨
            ∃ response, Answered answers env target block response w w' ∧ c.Usable cached' ∧
              result = c.readPage response)) := by
  obtain ⟨⟨first, cached₁⟩, w₁, calls₁, after, rfl, asked, run⟩ := Traced.of_bind run
  obtain ⟨opening, opens, ⟨rfl, ⟨err, rfl⟩, unequipped⟩ |
    ⟨equipped, instanceUrl, authorization, w₀, reply, rfl, reached, answered, usable, rfl⟩⟩ :=
      attempt_traced shared asked
  · obtain ⟨rfl, same, rfl⟩ := Traced.of_ret run
    cases same
    exact ⟨calls₁, [], rfl, opens, .inl ⟨rfl, ⟨err, rfl⟩, unequipped⟩⟩
  · rw [List.append_assoc]
    cases reply with
    | error message =>
        obtain ⟨rfl, same, rfl⟩ := Traced.of_ret run
        cases same
        exact ⟨opening, _, rfl, opens, .inr ⟨⟨equipped, .once (by simp)⟩, .inl ⟨not_served_lost [], _, rfl⟩⟩⟩
    | ok response =>
        simp only [Except.mapError] at run
        by_cases rejected : response.status = 401
        · -- the second attempt has a new token
          rw [if_pos rejected] at run
          obtain ⟨⟨second, cached₂⟩, w₂, calls₂, after, rfl, again, last⟩ := Traced.of_bind run
          obtain ⟨renews, reopens, outcome⟩ := attempt_traced shared again
          obtain ⟨granted, rfl, grants⟩ := renewal reopens
          rw [grants] at outcome
          rcases outcome with ⟨rfl, ⟨err, rfl⟩, ungranted⟩ |
            ⟨usable, instanceUrl', authorization', w₃, reply, rfl, reached', answered', usable', rfl⟩
          · obtain ⟨rfl, same, rfl⟩ := Traced.of_ret last
            cases same
            refine ⟨opening, _, rfl, opens, .inr ⟨⟨equipped, .refused rejected ungranted⟩, .inl ⟨?_, err, rfl⟩⟩⟩
            exact not_served_token [_]
          · have reached₂ := (reached.tail (shared _ _ _ _ answered)).trans reached'
            cases reply with
            | error message =>
                obtain ⟨rfl, same, rfl⟩ := Traced.of_ret last
                cases same
                refine ⟨opening, _, rfl, opens, .inr ⟨⟨equipped, .twice rejected usable⟩, .inl ⟨?_, _, rfl⟩⟩⟩
                exact not_served_lost [_, _]
            | ok response' =>
                obtain ⟨rfl, same, rfl⟩ := Traced.of_ret last
                cases same
                exact ⟨opening, _, rfl, opens, .inr ⟨⟨equipped, .twice rejected usable⟩, .inr ⟨response',
                  ⟨[_, _], _, _, w₃, rfl, reached₂, answered'⟩, usable', rfl⟩⟩⟩
        · rw [if_neg rejected] at run
          obtain ⟨rfl, same, rfl⟩ := Traced.of_ret run
          cases same
          have only : ∀ response', (Except.ok response : Except String Response) = .ok response' →
              response'.status ≠ 401 := by
            rintro _ ⟨⟩
            exact rejected
          exact ⟨opening, _, rfl, opens, .inr ⟨⟨equipped, .once only⟩, .inr ⟨response,
            ⟨[], _, _, w₀, rfl, reached, answered⟩, usable, rfl⟩⟩⟩

end Runs

end Relay.Rest
