/-
The connectors as they talk to the target systems: one request after the other,
each of which may fail or be answered with anything.
-/
import Servcat.Accounts.Auth
import Servcat.Keyed.Journal

namespace Servcat

open Atomic

inductive HttpMethod where
  | get
  | post
deriving DecidableEq, Repr

structure HttpRequest where
  method : HttpMethod
  url : String
  headers : List (String × String)
  json : Option JsonValue
deriving DecidableEq, Repr

/-- What comes of a request; there is no `json` in a body that is not JSON. -/
inductive HttpReply where
  | failed (text : String)
  | answered (status : UInt16) (json : Option JsonValue)
deriving DecidableEq, Repr

abbrev HttpExchange := HttpRequest × HttpReply

/-- What a step is given from outside. -/
structure HttpInput where
  thread : Nat
  reply : HttpReply
  uuid : Uuid
deriving DecidableEq, Repr

/-- All requests with what came of them, each in the name of its thread. -/
abbrev HttpLog := Keyed.Journal HttpExchange

/-- What the connectors use of other crates: the text of a JSON value, and the
header of basic authentication. -/
structure HttpDeps where
  jsonText : JsonValue → String
  basicAuth : (user password : String) → String

/-- `StatusCode::is_success`. -/
def isSuccess (status : UInt16) : Bool :=
  200 ≤ status && status < 300

/-- `Value::get` and `Value::as_str`. -/
def JsonValue.getStr? (v : JsonValue) (key : String) : Option String :=
  match v.asObject.bind (JsonMap.get? · key) with
  | some (.string s) => some s
  | _ => none

/-- `Value::get` and `Value::as_u64`. -/
def JsonValue.getU64? (v : JsonValue) (key : String) : Option UInt64 :=
  match v.asObject.bind (JsonMap.get? · key) with
  | some (.number (.posInt n)) => some n
  | _ => none

namespace Http

abbrev HttpAsync (ε α : Type) := Program HttpInput HttpLog ε α

/-- Send a request; a body that cannot be read counts as null. -/
def send (request : HttpRequest) :
    HttpAsync ConnectorError (UInt16 × JsonValue) :=
  .atomic fun i log =>
    (match i.reply with
      | .failed text => .error (.transport text)
      | .answered status json => .ok (status, json.getD .null),
      log ++ [(i.thread, request, i.reply)])

/-- `Uuid::new_v4`. -/
def newUuid {ε : Type} : HttpAsync ε Uuid :=
  .atomic fun i log => (.ok i.uuid, log)

end Http

open Http

def rejected (deps : HttpDeps) (status : UInt16)
    (body : JsonValue) : ConnectorError :=
  .rejectedByTarget status (deps.jsonText body)

structure WebhookConnector where
  url : String
  bearerToken : Option String
deriving DecidableEq, Repr

structure JiraConnector where
  baseUrl : String
  email : String
  apiToken : String
deriving DecidableEq, Repr

structure GlpiConnector where
  baseUrl : String
  appToken : String
  userToken : String
deriving DecidableEq, Repr

namespace WebhookConnector

def ticketRequest (c : WebhookConnector)
    (payload : JsonValue) : HttpRequest where
  method := .post
  url := c.url
  headers :=
    (c.bearerToken.map fun token =>
      ("Authorization", s!"Bearer {token}")).toList
  json := some payload

/-- Any success will do; the identifier is made up where there is none. -/
def dispatch (deps : HttpDeps) (c : WebhookConnector) (payload : JsonValue) :
    HttpAsync ConnectorError DispatchResult := do
  let (status, body) ← send (c.ticketRequest payload)
  if !isSuccess status then .throw (rejected deps status body)
  else
    match body.getStr? "id" with
    | some id => return ⟨id, body.getStr? "url"⟩
    | none => do
        let id ← newUuid
        return ⟨id.toString, body.getStr? "url"⟩

end WebhookConnector

namespace JiraConnector

def new (baseUrl email apiToken : String) : JiraConnector :=
  ⟨Accounts.trimEndSlashes baseUrl, email, apiToken⟩

def ticketRequest (deps : HttpDeps) (c : JiraConnector) (payload : JsonValue) :
    HttpRequest where
  method := .post
  url := s!"{c.baseUrl}/rest/api/3/issue"
  headers := [("Authorization", deps.basicAuth c.email c.apiToken)]
  json := some (.object [("fields", payload)])

def dispatch (deps : HttpDeps) (c : JiraConnector) (payload : JsonValue) :
    HttpAsync ConnectorError DispatchResult := do
  let (status, body) ← send (c.ticketRequest deps payload)
  if !isSuccess status then .throw (rejected deps status body)
  else do
    let key ← .okOr (.unexpectedResponse "missing 'key' in Jira response")
      (body.getStr? "key")
    return ⟨key, some s!"{c.baseUrl}/browse/{key}"⟩

end JiraConnector

namespace GlpiConnector

def new (baseUrl appToken userToken : String) : GlpiConnector :=
  ⟨Accounts.trimEndSlashes baseUrl, appToken, userToken⟩

def apiUrl (c : GlpiConnector) (path : String) : String :=
  s!"{c.baseUrl}/apirest.php/{path}"

def initRequest (c : GlpiConnector) : HttpRequest where
  method := .get
  url := c.apiUrl "initSession"
  headers :=
    [("App-Token", c.appToken), ("Authorization", s!"user_token {c.userToken}")]
  json := none

def killRequest (c : GlpiConnector) (sessionToken : String) : HttpRequest where
  method := .get
  url := c.apiUrl "killSession"
  headers := [("App-Token", c.appToken), ("Session-Token", sessionToken)]
  json := none

def ticketRequest (c : GlpiConnector) (sessionToken : String)
    (payload : JsonValue) :
    HttpRequest where
  method := .post
  url := c.apiUrl "Ticket"
  headers := [("App-Token", c.appToken), ("Session-Token", sessionToken)]
  json := some (.object [("input", payload)])

def initSession (deps : HttpDeps) (c : GlpiConnector) :
    HttpAsync ConnectorError String := do
  let (status, body) ← send c.initRequest
  if !isSuccess status then .throw (rejected deps status body)
  else
    .okOr (.unexpectedResponse "missing 'session_token' in GLPI response")
      (body.getStr? "session_token")

/-- That a session could not be closed is only logged. -/
def killSession (c : GlpiConnector) (sessionToken : String) :
    HttpAsync ConnectorError Unit := do
  let _ ← ((send (c.killRequest sessionToken)).attempt :
    HttpAsync ConnectorError (Except ConnectorError (UInt16 × JsonValue)))
  return ()

/-- The `async` block of `dispatch`. -/
def createTicket (deps : HttpDeps) (c : GlpiConnector) (sessionToken : String)
    (payload : JsonValue) : HttpAsync ConnectorError DispatchResult := do
  let (status, body) ← send (c.ticketRequest sessionToken payload)
  if !isSuccess status then .throw (rejected deps status body)
  else do
    let id ← .okOr (.unexpectedResponse "missing 'id' in GLPI response")
      (body.getU64? "id")
    return ⟨toString id, some s!"{c.baseUrl}/front/ticket.form.php?id={id}"⟩

def dispatch (deps : HttpDeps) (c : GlpiConnector) (payload : JsonValue) :
    HttpAsync ConnectorError DispatchResult := do
  let sessionToken ← c.initSession deps
  let result ← (c.createTicket deps sessionToken payload).attempt
  c.killSession sessionToken
  .liftExcept result

end GlpiConnector

inductive Connector where
  | webhook (c : WebhookConnector)
  | jira (c : JiraConnector)
  | glpi (c : GlpiConnector)
deriving DecidableEq, Repr

namespace Connector

def targetSystem : Connector → TargetSystem
  | .webhook _ => .webhook
  | .jira _ => .jira
  | .glpi _ => .glpi

def dispatch (deps : HttpDeps) :
    Connector → JsonValue → HttpAsync ConnectorError DispatchResult
  | .webhook c => c.dispatch deps
  | .jira c => c.dispatch deps
  | .glpi c => c.dispatch deps

end Connector

structure ConnectorsConfig where
  webhookUrl : Option String
  webhookBearerToken : Option String
  jiraBaseUrl : Option String
  jiraEmail : Option String
  jiraApiToken : Option String
  glpiBaseUrl : Option String
  glpiAppToken : Option String
  glpiUserToken : Option String
deriving DecidableEq, Repr

/-- `ConnectorRegistry::from_config`, and `get` from it: a target system has a
connector if all its credentials are there, and Freshservice never has. -/
def ConnectorsConfig.connector? (config : ConnectorsConfig) :
    TargetSystem → Option Connector
  | .webhook =>
      config.webhookUrl.map fun url => .webhook ⟨url, config.webhookBearerToken⟩
  | .jira => do
      some (.jira (.new (← config.jiraBaseUrl) (← config.jiraEmail)
        (← config.jiraApiToken)))
  | .glpi => do
      some (.glpi (.new (← config.glpiBaseUrl) (← config.glpiAppToken)
        (← config.glpiUserToken)))
  | .freshservice => none

/-- Any number of dispatches, interleaved request by request. -/
def dispatches (deps : HttpDeps) :
    System HttpInput HttpLog
      (Connector × JsonValue) ConnectorError DispatchResult where
  code label := label.1.dispatch deps label.2
  input n i := i.thread = n
  drift := Eq

instance (deps : HttpDeps) (n : Nat) (i : HttpInput) :
    Decidable ((dispatches deps).input n i) :=
  inferInstanceAs (Decidable (_ = _))

/-- Only the connectors of one deployment are used. -/
def ConnectorsConfig.deployed (config : ConnectorsConfig) :
    Regime HttpLog (Connector × JsonValue) where
  arrives label := config.connector? label.1.targetSystem = some label.1
  allowed _ _ _ := True

instance (config : ConnectorsConfig) : config.deployed.Checked where
  arrives _ := inferInstanceAs (Decidable (_ = _))
  allowed _ _ _ := isTrue trivial

end Servcat
