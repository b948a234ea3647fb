import AppTopology.Change
import AppTopology.Json

namespace AppTopology

open Json

def ChangeKind.ofJson? (json : Json) : Option ChangeKind := json.case? >>= ofName?

def Direction.ofJson? : Json → Option Direction
  | object [(noun, object [])] => ofNoun? noun
  | json => json.case? >>= ofNoun?

namespace ChangeDetails

def toJson : ChangeDetails → Json
  | none => object [("type", text "none")]
  | field name before after =>
    object [("type", text "field"), ("field", text name), ("before", Json.ofOption text before),
      ("after", Json.ofOption text after)]
  | boundary direction added removed =>
    object [("type", text "boundary"), ("direction", text direction.noun),
      ("added", Json.ofNames added), ("removed", Json.ofNames removed)]

def ofJson? (json : Json) : Option ChangeDetails := do
  let (form, json) ← json.tagged? "type"
  match form with
  | "none" => if json matches array (_ :: _) then failure else return none
  | "field" =>
    let record ← json.record? ["field", "before", "after"] 3
    return field (← record.required "field" text?)
      (← record.field "before" Option.none (nullable? text?))
      (← record.field "after" Option.none (nullable? text?))
  | "boundary" =>
    let record ← json.record? ["direction", "added", "removed"] 3
    return boundary (← record.required "direction" Direction.ofJson?)
      (← record.required "added" names?) (← record.required "removed" names?)
  | _ => failure

end ChangeDetails

namespace Change

def toJson (change : Change) : Json :=
  object [("kind", text change.kind.name), ("path", text change.path),
    ("details", change.details.toJson)]

def ofJson? (json : Json) : Option Change := do
  let record ← json.record? ["kind", "path", "details"] 2
  return {
    kind := ← record.required "kind" ChangeKind.ofJson?
    path := ← record.required "path" text?
    details := ← record.field "details" .none ChangeDetails.ofJson? }

end Change

namespace Changelog

def toJson (log : Changelog) : Json := Json.ofList Change.toJson log

def ofJson? : Json → Option Changelog := list? Change.ofJson?

end Changelog

end AppTopology
