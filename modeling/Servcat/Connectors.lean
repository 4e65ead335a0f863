/-
Rendering of a ticket payload, and the connectors a deployment has.
-/
import Servcat.Model.Errors

namespace Servcat

/-- What a field-mapping template may refer to. -/
structure TemplateContext where
  answers : JsonValue
  requesterEmail : String
  requesterDisplayName : String
  instanceId : String
  catalogItemName : String
deriving Repr

/-- `Tera::one_off` without escaping: the text of a template, or the text of an
error. -/
abbrev OneOff := String → TemplateContext → Except String String

inductive RenderError where
  | template (targetField source : String)
deriving DecidableEq, Repr

/-- `str::split` at dots: never empty. -/
def splitDots (path : String) : List String :=
  (path.toList.splitOn '.').map String.ofList

/-- Inner segments are objects; anything else in their place is replaced. -/
def setSegments (root : JsonMap) (value : JsonValue) : List String → JsonMap
  | [] => root
  | [last] => root.insert last value
  | segment :: rest =>
      let inner := match root.get? segment with
        | some (.object entries) => entries
        | _ => []
      root.insert segment (.object (setSegments inner value rest))

def setDotPath (root : JsonMap) (path : String) (value : JsonValue) : JsonMap :=
  setSegments root value (splitDots path)

/-- The loop of `renderFieldMapping`. -/
def renderInto (oneOff : OneOff) (context : TemplateContext) (root : JsonMap) :
    FieldMapping → Except RenderError JsonMap
  | [] => .ok root
  | (targetField, template) :: rest =>
      match oneOff template context with
      | .error source => .error (.template targetField source)
      | .ok rendered =>
          renderInto oneOff context
            (setDotPath root targetField (.string rendered)) rest

def renderFieldMapping (oneOff : OneOff) (mapping : FieldMapping)
    (context : TemplateContext) : Except RenderError JsonValue :=
  (renderInto oneOff context [] mapping).map .object

structure DispatchResult where
  externalTicketId : String
  externalTicketUrl : Option String
deriving DecidableEq, Repr

/-- A target system.  Its answer may depend on the payload and on how many
tickets the connectors were asked to file before. -/
abbrev TicketConnector := Nat → JsonValue → Except ConnectorError DispatchResult

/-- What a deployment is built from: a connector for each configured target
system, the template engine, and the order in which the database sorts names. -/
structure Deps where
  connectors : TargetSystem → Option TicketConnector
  oneOff : OneOff
  collation : String → String → Bool

end Servcat
