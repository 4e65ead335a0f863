/-
What the connectors say to the target systems: each dispatch files one ticket at
most, and closes the GLPI session it has opened, whatever it is answered.
-/
import Servcat.Connectors.Http

namespace Servcat

open Atomic Keyed Http

/-- The body of an answer, unless the target system has refused. -/
def HttpReply.accepted (deps : HttpDeps) :
    HttpReply → Except ConnectorError JsonValue
  | .failed text => .error (.transport text)
  | .answered status json =>
      if isSuccess status then .ok (json.getD .null)
      else .error (rejected deps status (json.getD .null))

/-- The session that GLPI grants with an answer. -/
def HttpReply.granted? (deps : HttpDeps) (reply : HttpReply) : Option String :=
  match reply.accepted deps with
  | .ok body => body.getStr? "session_token"
  | .error _ => none

namespace Connector

/-- The ticket that the body of an answer tells of.  A webhook may leave its
identifier open. -/
def ticket (uuid : Uuid) :
    Connector → JsonValue → Except ConnectorError DispatchResult
  | .webhook _, body =>
      .ok ⟨(body.getStr? "id").getD uuid.toString, body.getStr? "url"⟩
  | .jira c, body => match body.getStr? "key" with
    | some key => .ok ⟨key, some s!"{c.baseUrl}/browse/{key}"⟩
    | none => .error (.unexpectedResponse "missing 'key' in Jira response")
  | .glpi c, body => match body.getU64? "id" with
    | some id =>
        .ok ⟨toString id, some s!"{c.baseUrl}/front/ticket.form.php?id={id}"⟩
    | none => .error (.unexpectedResponse "missing 'id' in GLPI response")

/-- What is answered when the request for a ticket comes to this. -/
def answer (deps : HttpDeps) (uuid : Uuid) (c : Connector) (reply : HttpReply) :
    Except ConnectorError DispatchResult :=
  reply.accepted deps >>= c.ticket uuid

variable {deps : HttpDeps} {uuid : Uuid} {c : Connector} {reply : HttpReply}

theorem answer_refused {e : ConnectorError}
    (h : reply.accepted deps = .error e) :
    c.answer deps uuid reply = .error e := by
  rw [answer, h]
  rfl

theorem answer_accepted {body : JsonValue}
    (h : reply.accepted deps = .ok body) :
    c.answer deps uuid reply = c.ticket uuid body := by
  rw [answer, h]
  rfl

end Connector

/-- What a dispatch may have said so far. -/
inductive Talk (deps : HttpDeps) (payload : JsonValue) :
    Connector → List HttpExchange → Prop
  | silent (c : Connector) : Talk deps payload c []
  | webhook (c : WebhookConnector) (r : HttpReply) :
      Talk deps payload (.webhook c) [(c.ticketRequest payload, r)]
  | jira (c : JiraConnector) (r : HttpReply) :
      Talk deps payload (.jira c) [(c.ticketRequest deps payload, r)]
  | opened (c : GlpiConnector) (r : HttpReply) :
      Talk deps payload (.glpi c) [(c.initRequest, r)]
  | filed (c : GlpiConnector) {r r' : HttpReply} {token : String}
      (htoken : r.granted? deps = some token) :
      Talk deps payload (.glpi c)
        [(c.initRequest, r), (c.ticketRequest token payload, r')]
  | closed (c : GlpiConnector) {r r' r'' : HttpReply} {token : String}
      (htoken : r.granted? deps = some token) :
      Talk deps payload (.glpi c)
        [(c.initRequest, r), (c.ticketRequest token payload, r'),
        (c.killRequest token, r'')]

/-- What a dispatch has said when it ends. -/
inductive Ended (deps : HttpDeps) (payload : JsonValue) :
    Connector → List HttpExchange → Exit ConnectorError DispatchResult → Prop
  | webhook {c : WebhookConnector} {r : HttpReply}
      {x : Exit ConnectorError DispatchResult} (uuid : Uuid)
      (hx : .ofExcept ((Connector.webhook c).answer deps uuid r) = x) :
      Ended deps payload (.webhook c) [(c.ticketRequest payload, r)] x
  | jira {c : JiraConnector} {r : HttpReply}
      {x : Exit ConnectorError DispatchResult} (uuid : Uuid)
      (hx : .ofExcept ((Connector.jira c).answer deps uuid r) = x) :
      Ended deps payload (.jira c) [(c.ticketRequest deps payload, r)] x
  | unopened {c : GlpiConnector} {r : HttpReply} {e : ConnectorError}
      (htoken : r.granted? deps = none) :
      Ended deps payload (.glpi c) [(c.initRequest, r)] (.error e)
  | closed {c : GlpiConnector} {r r' r'' : HttpReply} {token : String}
      {x : Exit ConnectorError DispatchResult} (uuid : Uuid)
      (htoken : r.granted? deps = some token)
      (hx : .ofExcept ((Connector.glpi c).answer deps uuid r') = x) :
      Ended deps payload (.glpi c)
        [(c.initRequest, r), (c.ticketRequest token payload, r'),
        (c.killRequest token, r'')] x

/-- A dispatch and what it has said. -/
structure Speech where
  connector : Connector
  payload : JsonValue
  talk : List HttpExchange

namespace Speech

/-- A step of thread `n` says the next thing, or nothing. -/
inductive Move (deps : HttpDeps) (n : Nat) :
    Speech → HttpLog → Speech → HttpLog → Prop
  | idle {φ : Speech} {log : HttpLog} : Move deps n φ log φ log
  | speaks {connector : Connector} {payload : JsonValue}
      {talk : List HttpExchange} {e : HttpExchange} {log : HttpLog}
      (htalk : Talk deps payload connector (talk ++ [e])) :
      Move deps n ⟨connector, payload, talk⟩ log
        ⟨connector, payload, talk ++ [e]⟩ (log ++ [(n, e)])

section Follows

variable {deps : HttpDeps} {n : Nat} {connector : Connector}
  {payload : JsonValue} {talk : List HttpExchange} {ε α : Type}

def conduct (deps : HttpDeps) (n : Nat) : Automaton HttpInput HttpLog Speech :=
  ⟨fun _ i _ => i.thread = n, Move deps n⟩

theorem follows_send {request : HttpRequest}
    {k : UInt16 × JsonValue → HttpAsync ConnectorError α}
    {post : Exit ConnectorError α → Speech → Prop}
    (hsay : ∀ reply, Talk deps payload connector (talk ++ [(request, reply)]))
    (hfailed : ∀ text, post (.error (.transport text))
      ⟨connector, payload, talk ++ [(request, .failed text)]⟩)
    (hanswered : ∀ status json,
      Follows (conduct deps n) post (k (status, json.getD .null))
      ⟨connector, payload, talk ++ [(request, .answered status json)]⟩) :
    Follows (conduct deps n) post
      (send request >>= k) ⟨connector, payload, talk⟩ := by
  refine (follows_bind _ _ _ _).mpr ((follows_atomic _ _).mpr ?_)
  rintro i log rfl
  refine ⟨_, .speaks (hsay i.reply), ?_⟩
  cases i.reply with
  | failed text => exact hfailed text
  | answered status json => exact hanswered status json

/-- A request whose answer is checked for success. -/
theorem follows_checked {request : HttpRequest}
    {k : UInt16 × JsonValue → HttpAsync ConnectorError α}
    {rest : JsonValue → HttpAsync ConnectorError α}
    {post : Exit ConnectorError α → Speech → Prop}
    (hk : ∀ status body, k (status, body) =
      if !isSuccess status then .throw (rejected deps status body)
      else rest body)
    (hsay : ∀ reply, Talk deps payload connector (talk ++ [(request, reply)]))
    (hrefused : ∀ reply e, reply.accepted deps = .error e →
      post (.error e) ⟨connector, payload, talk ++ [(request, reply)]⟩)
    (haccepted : ∀ reply body, reply.accepted deps = .ok body →
      Follows (conduct deps n) post (rest body)
        ⟨connector, payload, talk ++ [(request, reply)]⟩) :
    Follows (conduct deps n) post
      (send request >>= k) ⟨connector, payload, talk⟩ := by
  refine follows_send hsay (fun text => hrefused _ _ rfl) fun status json => ?_
  rw [hk]
  cases h : isSuccess status with
  | false => exact hrefused _ _ (by simp [HttpReply.accepted, h])
  | true => exact haccepted _ _ (by simp [HttpReply.accepted, h])

/-- What a dispatch leaves when it ends. -/
def post (deps : HttpDeps) (label : Connector × JsonValue)
    (x : Exit ConnectorError DispatchResult) (φ : Speech) : Prop :=
  φ.connector = label.1 ∧ φ.payload = label.2 ∧
    Ended deps label.2 label.1 φ.talk x

theorem webhook_follows (c : WebhookConnector) :
    Follows (conduct deps n) (post deps (.webhook c, payload))
      (c.dispatch deps payload) ⟨.webhook c, payload, []⟩ := by
  refine follows_checked (fun _ _ => rfl) ?_ (fun r e he => ?_)
    fun r body hbody => ?_
  · exact fun r => .webhook c r
  · exact ⟨rfl, rfl, .webhook ⟨0⟩ (by rw [Connector.answer_refused he]; rfl)⟩
  · split
    · rename_i id hid
      refine ⟨rfl, rfl, .webhook ⟨0⟩ ?_⟩
      rw [Connector.answer_accepted hbody, Connector.ticket, hid]
      rfl
    · rename_i hid
      refine (follows_bind _ _ _ _).mpr ((follows_atomic _ _).mpr ?_)
      rintro i log rfl
      refine ⟨_, .idle, rfl, rfl, .webhook i.uuid ?_⟩
      rw [Connector.answer_accepted hbody, Connector.ticket, hid]
      rfl

theorem jira_follows (c : JiraConnector) :
    Follows (conduct deps n) (post deps (.jira c, payload))
      (c.dispatch deps payload) ⟨.jira c, payload, []⟩ := by
  refine follows_checked (fun _ _ => rfl) ?_ (fun r e he => ?_)
    fun r body hbody => ?_
  · exact fun r => .jira c r
  · exact ⟨rfl, rfl, .jira ⟨0⟩ (by rw [Connector.answer_refused he]; rfl)⟩
  · cases hkey : body.getStr? "key" with
    | none =>
        refine ⟨rfl, rfl, .jira ⟨0⟩ ?_⟩
        rw [Connector.answer_accepted hbody, Connector.ticket, hkey]
        rfl
    | some key =>
        refine ⟨rfl, rfl, .jira ⟨0⟩ ?_⟩
        rw [Connector.answer_accepted hbody, Connector.ticket, hkey]
        rfl

theorem initSession_follows (c : GlpiConnector) :
    Follows (conduct deps n)
      (fun x φ => ∃ r, φ = ⟨.glpi c, payload, [(c.initRequest, r)]⟩ ∧
        match x with
        | .ok token => r.granted? deps = some token
        | .error _ => r.granted? deps = none
        | .panicked => False)
      (c.initSession deps) ⟨.glpi c, payload, []⟩ := by
  refine follows_checked (fun _ _ => rfl) ?_ (fun r e he => ?_)
    fun r body hbody => ?_
  · exact fun r => .opened c r
  · exact ⟨r, rfl, by simp [HttpReply.granted?, he]⟩
  · have hgranted : r.granted? deps = body.getStr? "session_token" := by
      simp [HttpReply.granted?, hbody]
    cases htoken : body.getStr? "session_token" with
    | none => exact ⟨r, rfl, hgranted.trans htoken⟩
    | some token => exact ⟨r, rfl, hgranted.trans htoken⟩

theorem createTicket_follows (c : GlpiConnector) {r : HttpReply}
    {token : String} (htoken : r.granted? deps = some token) :
    Follows (conduct deps n)
      (fun x φ => ∃ r', φ = ⟨.glpi c, payload,
          [(c.initRequest, r), (c.ticketRequest token payload, r')]⟩ ∧
        .ofExcept ((Connector.glpi c).answer deps ⟨0⟩ r') = x)
      (c.createTicket deps token payload)
        ⟨.glpi c, payload, [(c.initRequest, r)]⟩ := by
  refine follows_checked (fun _ _ => rfl) ?_ (fun r' e he => ?_)
    fun r' body hbody => ?_
  · exact fun r' => .filed c htoken
  · exact ⟨r', rfl, by rw [Connector.answer_refused he]; rfl⟩
  · cases hid : body.getU64? "id" with
    | none =>
        refine ⟨r', rfl, ?_⟩
        rw [Connector.answer_accepted hbody, Connector.ticket, hid]
        rfl
    | some id =>
        refine ⟨r', rfl, ?_⟩
        rw [Connector.answer_accepted hbody, Connector.ticket, hid]
        rfl

/-- Whatever comes of closing the session, the dispatch goes on. -/
theorem killSession_follows (c : GlpiConnector) {token : String}
    (hsay : ∀ r,
      Talk deps payload (.glpi c) (talk ++ [(c.killRequest token, r)])) :
    Follows (conduct deps n)
      (fun x φ => x = .ok () ∧ ∃ r,
        φ = ⟨.glpi c, payload, talk ++ [(c.killRequest token, r)]⟩)
      (c.killSession token) ⟨.glpi c, payload, talk⟩ := by
  refine (follows_bind _ _ _ _).mpr
    ((follows_attempt _ _ _).mpr ((follows_atomic _ _).mpr ?_))
  rintro i log rfl
  refine ⟨_, .speaks (hsay i.reply), ?_⟩
  cases i.reply with
  | failed text => exact ⟨rfl, _, rfl⟩
  | answered status json => exact ⟨rfl, _, rfl⟩

theorem glpi_follows (c : GlpiConnector) :
    Follows (conduct deps n) (post deps (.glpi c, payload))
      (c.dispatch deps payload) ⟨.glpi c, payload, []⟩ := by
  refine (follows_bind _ _ _ _).mpr ((initSession_follows c).mono ?_)
  rintro (token | e | _) φ ⟨r, rfl, htoken⟩
  · refine (follows_bind _ _ _ _).mpr ((follows_attempt _ _ _).mpr
      ((createTicket_follows c htoken).mono ?_))
    rintro _ φ ⟨r', rfl, rfl⟩
    generalize hanswer : (Connector.glpi c).answer deps ⟨0⟩ r' = answer
    have hattempt : (Exit.ofExcept answer).attempt =
        (.ok answer : Exit ConnectorError _) := by
      cases answer <;> rfl
    rw [hattempt]
    refine (follows_bind _ _ _ _).mpr
      ((killSession_follows c fun r => .closed c htoken).mono ?_)
    rintro _ φ ⟨rfl, r'', rfl⟩
    exact ⟨rfl, rfl, .closed ⟨0⟩ htoken (congrArg Exit.ofExcept hanswer)⟩
  · exact ⟨rfl, rfl, .unopened htoken⟩
  · cases htoken

theorem dispatch_follows (n : Nat) (label : Connector × JsonValue) :
    Follows (conduct deps n) (post deps label) (label.1.dispatch deps label.2)
      ⟨label.1, label.2, []⟩ := by
  obtain ⟨connector, payload⟩ := label
  cases connector with
  | webhook c => exact webhook_follows c
  | jira c => exact jira_follows c
  | glpi c => exact glpi_follows c

end Follows

def cover (deps : HttpDeps) : Cover (dispatches deps) Speech where
  move := Move deps
  entry label := ⟨label.1, label.2, []⟩
  post := post deps
  follows := dispatch_follows

variable {deps : HttpDeps} {config : ConnectorsConfig} {n m : Nat}
  {φ φ' ψ : Speech} {log log' : HttpLog}

/-- What thread `n` has said is in the log, and nothing else of it. -/
structure Holds (deps : HttpDeps) (config : ConnectorsConfig) (n : Nat)
    (φ : Speech) (log : HttpLog) : Prop where
  own : log.own n = φ.talk
  talk : Talk deps φ.payload φ.connector φ.talk
  deployed : config.connector? φ.connector.targetSystem = some φ.connector

theorem Move.holds (h : Move deps n φ log φ' log')
    (hφ : Holds deps config n φ log) : Holds deps config n φ' log' := by
  cases h with
  | idle => exact hφ
  | speaks htalk =>
      exact ⟨by rw [Journal.own_append_self, hφ.own], htalk, hφ.deployed⟩

theorem Move.own_other (h : Move deps n φ log φ' log') (hm : m ≠ n) :
    log'.own m = log.own m := by
  cases h with
  | idle => rfl
  | speaks htalk => exact Journal.own_append_other hm _ _

def outline (deps : HttpDeps) (config : ConnectorsConfig) :
    Outline (cover deps) config.deployed where
  inv _ := True
  holds := Holds deps config
  absent n log := log.own n = []
  grow _ _ := True
  grow_refl _ := trivial
  grow_trans _ _ := trivial
  entry n label log hl _ h := ⟨h, .silent _, hl⟩
  drift log log' _ h := by
    obtain rfl : log = log' := h
    exact ⟨trivial, trivial, fun n => ⟨id, fun φ => id⟩⟩
  step n φ φ' log log' _ hφ hmove _ := by
    refine ⟨trivial, trivial, Move.holds hmove hφ, fun m hm => ?_⟩
    have hown := Move.own_other hmove hm
    exact ⟨fun h => hown.trans h,
      fun ψ hψ => ⟨hown.trans hψ.own, hψ.talk, hψ.deployed⟩⟩

end Speech

/-- GLPI grants this session with this exchange. -/
def GlpiConnector.opens (deps : HttpDeps) (c : GlpiConnector) (token : String)
    (e : HttpExchange) : Bool :=
  e.1 == c.initRequest && e.2.granted? deps == some token

/-- GLPI is asked with this exchange to close this session. -/
def GlpiConnector.closes (c : GlpiConnector) (token : String)
    (e : HttpExchange) : Bool :=
  e.1 == c.killRequest token

def HttpRequest.isPost (request : HttpRequest) : Bool :=
  request.method == .post

/-- What thread `n` has posted. -/
def posts (n : Nat) (log : HttpLog) : List HttpExchange :=
  (log.own n).filter fun e => e.1.isPost

/-- The requests by which a connector files this ticket. -/
def Connector.Files (deps : HttpDeps) (payload : JsonValue)
    (request : HttpRequest) : Connector → Prop
  | .webhook c => request = c.ticketRequest payload
  | .jira c => request = c.ticketRequest deps payload
  | .glpi c => ∃ token, request = c.ticketRequest token payload

section Counts

variable {deps : HttpDeps} {payload : JsonValue} {connector : Connector}
  {talk : List HttpExchange} {x : Exit ConnectorError DispatchResult}
  {g : GlpiConnector} {token token' : String} {r : HttpReply}

@[simp] theorem isPost_webhook (c : WebhookConnector) :
    (c.ticketRequest payload).isPost = true := by
  simp [HttpRequest.isPost, WebhookConnector.ticketRequest]

@[simp] theorem isPost_jira (c : JiraConnector) :
    (c.ticketRequest deps payload).isPost = true := by
  simp [HttpRequest.isPost, JiraConnector.ticketRequest]

@[simp] theorem isPost_glpi :
    (g.ticketRequest token payload).isPost = true := by
  simp [HttpRequest.isPost, GlpiConnector.ticketRequest]

@[simp] theorem isPost_initRequest : g.initRequest.isPost = false :=
  rfl

@[simp] theorem isPost_killRequest : (g.killRequest token).isPost = false :=
  rfl

@[simp] theorem opens_initRequest :
    g.opens deps token (g.initRequest, r) =
      (r.granted? deps == some token) := by
  simp [GlpiConnector.opens]

@[simp] theorem opens_killRequest :
    g.opens deps token (g.killRequest token', r) = false := by
  simp [GlpiConnector.opens, GlpiConnector.initRequest,
    GlpiConnector.killRequest]

@[simp] theorem closes_initRequest :
    g.closes token (g.initRequest, r) = false := by
  simp [GlpiConnector.closes, GlpiConnector.initRequest,
    GlpiConnector.killRequest]

@[simp] theorem closes_killRequest :
    g.closes token (g.killRequest token', r) = (token' == token) := by
  simp [GlpiConnector.closes, GlpiConnector.killRequest]

theorem opens_post {request : HttpRequest} (h : request.isPost = true) :
    g.opens deps token (request, r) = false := by
  have hne : request ≠ g.initRequest := by
    rintro rfl
    cases h
  simp [GlpiConnector.opens, hne]

theorem closes_post {request : HttpRequest} (h : request.isPost = true) :
    g.closes token (request, r) = false := by
  have hne : request ≠ g.killRequest token := by
    rintro rfl
    cases h
  simp [GlpiConnector.closes, hne]

/-- A session is closed only after it was granted. -/
theorem Talk.closes_le (h : Talk deps payload connector talk)
    (hg : ∀ c, connector = .glpi c → c = g) :
    talk.countP (g.closes token) ≤ talk.countP (g.opens deps token) := by
  cases h with
  | silent => rfl
  | webhook | jira => simp [closes_post]
  | opened c =>
      obtain rfl := hg c rfl
      simp [List.countP_cons]
  | filed c htoken =>
      obtain rfl := hg c rfl
      simp [List.countP_cons, closes_post]
  | closed c htoken =>
      obtain rfl := hg c rfl
      simp [List.countP_cons, closes_post, opens_post, htoken]

/-- A dispatch that has ended has closed what it was granted. -/
theorem Ended.closes_eq (h : Ended deps payload connector talk x)
    (hg : ∀ c, connector = .glpi c → c = g) :
    talk.countP (g.closes token) = talk.countP (g.opens deps token) := by
  cases h with
  | webhook | jira => simp [closes_post, opens_post]
  | unopened htoken =>
      obtain rfl := hg _ rfl
      simp [htoken]
  | closed uuid htoken hx =>
      obtain rfl := hg _ rfl
      simp [List.countP_cons, closes_post, opens_post, htoken]

theorem Talk.posts_le (h : Talk deps payload connector talk) :
    (talk.filter fun e => e.1.isPost).length ≤ 1 := by
  cases h with
  | silent | webhook | jira | opened | filed | closed => simp

/-- What comes of a dispatch is what comes of the ticket it has posted. -/
theorem Ended.answers (h : Ended deps payload connector talk x) :
    ((talk.filter fun e => e.1.isPost) = [] ∧ ∃ e, x = .error e) ∨
      ∃ request reply uuid,
        (talk.filter fun e => e.1.isPost) = [(request, reply)] ∧
        connector.Files deps payload request ∧
        x = .ofExcept (connector.answer deps uuid reply) := by
  cases h with
  | webhook uuid hx => exact .inr ⟨_, _, uuid, by simp, rfl, hx.symm⟩
  | jira uuid hx => exact .inr ⟨_, _, uuid, by simp, rfl, hx.symm⟩
  | unopened htoken => exact .inl ⟨by simp, _, rfl⟩
  | @closed c _ r' _ token _ uuid htoken hx =>
      exact .inr ⟨c.ticketRequest token payload, r', uuid, by simp,
        ⟨token, rfl⟩, hx.symm⟩

end Counts

section Runs

variable {deps : HttpDeps} {config : ConnectorsConfig} {g : GlpiConnector}
  {c : Config HttpInput HttpLog (Connector × JsonValue) ConnectorError
    DispatchResult}

theorem Speech.at_reaches
    (hrun : Reaches (dispatches deps) config.deployed ⟨[], []⟩ c) :
    (Speech.outline deps config).At c :=
  ((Speech.outline deps config).at_reaches
    ((Speech.outline deps config).at_nil (s := []) trivial fun _ => rfl) hrun).1

theorem Speech.Holds.connector_eq {n : Nat} {φ : Speech} {log : HttpLog}
    (hφ : Speech.Holds deps config n φ log)
    (hg : config.connector? .glpi = some (.glpi g)) (c : GlpiConnector)
    (hc : φ.connector = .glpi c) : c = g := by
  have hdeployed := hφ.deployed
  rw [hc, Connector.targetSystem, hg] at hdeployed
  cases hdeployed
  rfl

/-- Only threads that have arrived have said anything. -/
theorem Speech.lt_length (hc : (Speech.outline deps config).At c) :
    ∀ e ∈ c.state, e.1 < c.threads.length := by
  intro e he
  by_contra hge
  have hempty : c.state.own e.1 = [] := hc.absent e.1 (Nat.le_of_not_lt hge)
  have hmem : e.2 ∈ c.state.own e.1 := Journal.mem_own.mpr he
  rw [hempty] at hmem
  cases hmem

namespace Sample

def http : HttpDeps where
  jsonText _ := ""
  basicAuth user password := user ++ password

def glpiConfig : ConnectorsConfig :=
  ⟨none, none, none, none, none, some "https://glpi.example.org", some "app",
    some "user"⟩

def glpi : GlpiConnector :=
  .new "https://glpi.example.org" "app" "user"

/-- GLPI grants a session. -/
def grant (thread : Nat) (token : String) : HttpInput :=
  ⟨thread, .answered 200
    (some (.object [("session_token", .string token)])), ⟨0⟩⟩

def reply (thread : Nat) (status : UInt16)
    (json : Option JsonValue) : HttpInput :=
  ⟨thread, .answered status json, ⟨0⟩⟩

/-- Two dispatches at a time: one ticket is filed and one is refused. -/
def dispatched : Option
    (Config HttpInput HttpLog (Connector × JsonValue) ConnectorError
      DispatchResult) :=
  (dispatches http).play glpiConfig.deployed ⟨[], []⟩
    [.arrive (.glpi glpi, .object []), .run 0 (grant 0 "first"),
      .arrive (.glpi glpi, .null), .run 1 (grant 1 "second"),
      .run 1 (reply 1 400 none),
      .run 0 (reply 0 201 (some (.object [("id", .number (.posInt 7))]))),
      .run 1 (reply 1 200 none), .run 0 (reply 0 500 none)]

end Sample

/-- However dispatches interleave and whatever GLPI answers: no session is
closed that was not granted, and once all dispatches have ended each session has
been closed as often as it was granted. -/
theorem sessions_closed
    (hrun : Reaches (dispatches deps) config.deployed ⟨[], []⟩ c)
    (hg : config.connector? .glpi = some (.glpi g)) (token : String) :
    c.state.countP (fun e => g.closes token e.2) ≤
        c.state.countP (fun e => g.opens deps token e.2) ∧
      ((∀ thread ∈ c.threads, ∃ x, thread.2 = .exit x) →
        c.state.countP (fun e => g.closes token e.2) =
          c.state.countP (fun e => g.opens deps token e.2)) := by
  have hc := Speech.at_reaches hrun
  have hlt := Speech.lt_length hc
  have hle : c.state.countP (fun e => g.closes token e.2) ≤
      c.state.countP (fun e => g.opens deps token e.2) := by
    refine Journal.countP_le_countP hlt fun n hn => ?_
    obtain ⟨φ, hφ, -⟩ := hc.thread n _ _ (List.getElem?_eq_getElem hn)
    rw [hφ.own]
    exact hφ.talk.closes_le (hφ.connector_eq hg)
  refine ⟨hle, fun hended => hle.antisymm
    (Journal.countP_le_countP hlt fun n hn => ?_)⟩
  obtain ⟨l, p, hn⟩ : ∃ l p, c.threads[n]? = some (l, p) :=
    ⟨_, _, List.getElem?_eq_getElem hn⟩
  obtain ⟨x, rfl⟩ := hended (l, p) (List.mem_of_getElem? hn)
  obtain ⟨φ, hφ, hconnector, -, hx⟩ := hc.thread n _ _ hn
  rw [hφ.own]
  exact (hx.closes_eq (hconnector ▸ hφ.connector_eq hg)).ge

theorem sessions_closed_dispatched :
    let c := Sample.dispatched.get rfl
    c.state.countP (fun e => Sample.glpi.closes "first" e.2) ≤
        c.state.countP (fun e => Sample.glpi.opens Sample.http "first" e.2) ∧
      c.state.countP (fun e => Sample.glpi.closes "first" e.2) =
        c.state.countP (fun e => Sample.glpi.opens Sample.http "first"
          e.2) := by
  have h :=
    sessions_closed (System.play_reaches (d := Sample.dispatched.get rfl)
      (Option.some_get _).symm) (g := Sample.glpi) rfl "first"
  refine ⟨h.1, h.2 ?_⟩
  rintro thread (_ | ⟨_, _ | ⟨_, ⟨⟩⟩⟩)
  · exact ⟨_, rfl⟩
  · exact ⟨_, rfl⟩

/-- However dispatches interleave: each posts one ticket at most, with its
payload, and returns what that was answered; without it, it fails. -/
theorem tickets_posted_once
    (hrun : Reaches (dispatches deps) config.deployed ⟨[], []⟩ c) {n : Nat}
    {connector : Connector} {payload : JsonValue}
    {p : HttpAsync ConnectorError DispatchResult}
    (hn : c.threads[n]? = some ((connector, payload), p)) :
    (posts n c.state).length ≤ 1 ∧ ∀ x, p = .exit x →
      (posts n c.state = [] ∧ ∃ e, x = .error e) ∨
        ∃ request reply uuid, posts n c.state = [(request, reply)] ∧
          connector.Files deps payload request ∧
          x = .ofExcept (connector.answer deps uuid reply) := by
  obtain ⟨φ, hφ, hfollows⟩ := (Speech.at_reaches hrun).thread n _ _ hn
  rw [posts, hφ.own]
  refine ⟨hφ.talk.posts_le, ?_⟩
  rintro x rfl
  exact hfollows.2.2.answers

theorem tickets_posted_once_dispatched :
    let c := Sample.dispatched.get rfl
    let x : Exit ConnectorError DispatchResult :=
      .ok ⟨"7", some "https://glpi.example.org/front/ticket.form.php?id=7"⟩
    (posts 0 c.state).length ≤ 1 ∧
      ((posts 0 c.state = [] ∧ ∃ e, x = .error e) ∨
        ∃ request reply uuid, posts 0 c.state = [(request, reply)] ∧
          (Connector.glpi Sample.glpi).Files Sample.http (.object []) request ∧
          x = .ofExcept ((Connector.glpi Sample.glpi).answer Sample.http uuid
            reply)) := by
  have h :=
    tickets_posted_once (System.play_reaches (d := Sample.dispatched.get rfl)
      (Option.some_get _).symm) (n := 0) rfl
  exact ⟨h.1, h.2 _ rfl⟩

end Runs

end Servcat
