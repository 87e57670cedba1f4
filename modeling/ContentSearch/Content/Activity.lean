import ContentSearch.Config.Basic
import ContentSearch.Field.Searchable

/-!
Professional activities, such as talks and certifications.
-/

namespace ContentSearch

structure Activity where
  id : Text
  title : Text
  description : Text
  /-- What sort of activity it is. -/
  kind : Text
  organization : Option Text
  skills : List Text
  date : Option Date

namespace Activity

/-- The default configuration for activities: titles count most, then skills, organizations and
descriptions; types can be filtered on. -/
def config {α : Type} [Scalar α] : Config α :=
  { Config.default with
    fields := [
      ⟨"title".toList, Scalar.ofNat 2, true⟩,
      ⟨"skills".toList, Scalar.ofNat 3 / Scalar.ofNat 2, true⟩,
      ⟨"organization".toList, Scalar.ofNat 1, true⟩,
      ⟨"description".toList, Scalar.ofNat 4 / Scalar.ofNat 5, true⟩]
    filterFields := ["type".toList]
    historyKey := "activity-search-history".toList }

instance : Searchable Activity where
  attribute? a name :=
    match String.ofList name with
    | "id" => some (.text a.id)
    | "title" => some (.text a.title)
    | "description" => some (.text a.description)
    | "type" | "kind" => some (.text a.kind)
    | "organization" => some (.ofOption .text a.organization)
    | "skills" => some (.list a.skills)
    | "date" => some (.ofOption (fun d => .text (Date.text d)) a.date)
    | _ => none

def ofTree? (t : JsonTree) : Option Activity := do
  let names := ["id", "title", "description", "type", "organization", "skills", "date"]
  match ← t.fields? (names.map String.toList) with
  | [id, title, description, kind, organization, skills, date] =>
    return {
      id := ← JsonTree.required? JsonTree.text? id
      title := ← JsonTree.required? JsonTree.text? title
      description := ← JsonTree.optional? JsonTree.text? [] description
      kind := ← JsonTree.required? JsonTree.text? kind
      organization := ← JsonTree.optional? (JsonTree.nullable? JsonTree.text?) none organization
      skills := ← JsonTree.optional? (JsonTree.list? JsonTree.text?) [] skills
      date := ← JsonTree.optional?
        (JsonTree.nullable? fun t => t.text?.bind Date.read?) none date }
  | _ => none

def toJson (a : Activity) : Json :=
  .object [
    ("id".toList, .string a.id),
    ("title".toList, .string a.title),
    ("description".toList, .string a.description),
    ("type".toList, .string a.kind),
    ("organization".toList, .ofOption (a.organization.map .string)),
    ("skills".toList, .strings a.skills),
    ("date".toList, .ofOption (a.date.map fun d => .string d.text))]

end Activity
end ContentSearch
