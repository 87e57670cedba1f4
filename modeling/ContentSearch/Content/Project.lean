import ContentSearch.Config.Basic
import ContentSearch.Field.Searchable

/-!
Portfolio projects.
-/

namespace ContentSearch

structure Project where
  id : Text
  name : Text
  description : Text
  technologies : List Text
  tags : List Text
  status : Option Text
  url : Option Text

namespace Project

/-- The default configuration for projects: names count most, then technologies, which match
without tolerance, tags and descriptions; statuses can be filtered on. -/
def config {α : Type} [Scalar α] : Config α :=
  { Config.default with
    fields := [
      ⟨"name".toList, Scalar.ofNat 2, true⟩,
      ⟨"technologies".toList, Scalar.ofNat 3 / Scalar.ofNat 2, false⟩,
      ⟨"tags".toList, Scalar.ofNat 6 / Scalar.ofNat 5, true⟩,
      ⟨"description".toList, Scalar.ofNat 1, true⟩]
    filterFields := ["status".toList]
    historyKey := "project-search-history".toList }

instance : Searchable Project where
  attribute? p name :=
    match String.ofList name with
    | "id" => some (.text p.id)
    | "name" | "title" => some (.text p.name)
    | "description" => some (.text p.description)
    | "technologies" | "tech" => some (.list p.technologies)
    | "tags" => some (.list p.tags)
    | "status" => some (.ofOption .text p.status)
    | "url" => some (.ofOption .text p.url)
    | _ => none

def ofTree? (t : JsonTree) : Option Project := do
  let names := ["id", "name", "description", "technologies", "tags", "status", "url"]
  match ← t.fields? (names.map String.toList) with
  | [id, name, description, technologies, tags, status, url] =>
    return {
      id := ← JsonTree.required? JsonTree.text? id
      name := ← JsonTree.required? JsonTree.text? name
      description := ← JsonTree.optional? JsonTree.text? [] description
      technologies := ← JsonTree.optional? (JsonTree.list? JsonTree.text?) [] technologies
      tags := ← JsonTree.optional? (JsonTree.list? JsonTree.text?) [] tags
      status := ← JsonTree.optional? (JsonTree.nullable? JsonTree.text?) none status
      url := ← JsonTree.optional? (JsonTree.nullable? JsonTree.text?) none url }
  | _ => none

def toJson (p : Project) : Json :=
  .object [
    ("id".toList, .string p.id),
    ("name".toList, .string p.name),
    ("description".toList, .string p.description),
    ("technologies".toList, .strings p.technologies),
    ("tags".toList, .strings p.tags),
    ("status".toList, .ofOption (p.status.map .string)),
    ("url".toList, .ofOption (p.url.map .string))]

end Project
end ContentSearch
