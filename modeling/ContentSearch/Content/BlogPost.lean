import ContentSearch.Config.Basic
import ContentSearch.Field.Searchable

/-!
Blog posts.
-/

namespace ContentSearch

structure BlogPost where
  slug : Text
  title : Text
  excerpt : Text
  content : Text
  tags : List Text
  category : Option Text
  publishedAt : Option Instant

namespace BlogPost

/-- The default configuration for blog posts: titles count most, then tags, excerpts and content;
categories and slugs can be filtered on. -/
def config {α : Type} [Scalar α] : Config α :=
  { Config.default with
    fields := [
      ⟨"title".toList, Scalar.ofNat 2, true⟩,
      ⟨"tags".toList, Scalar.ofNat 3 / Scalar.ofNat 2, true⟩,
      ⟨"excerpt".toList, Scalar.ofNat 1, true⟩,
      ⟨"content".toList, Scalar.ofNat 1 / Scalar.ofNat 2, true⟩]
    idField := "slug".toList
    filterFields := ["category".toList, "slug".toList]
    historyKey := "blog-search-history".toList }

instance : Searchable BlogPost where
  attribute? p name :=
    match String.ofList name with
    | "slug" => some (.text p.slug)
    | "title" => some (.text p.title)
    | "excerpt" => some (.text p.excerpt)
    | "content" => some (.text p.content)
    | "tags" => some (.list p.tags)
    | "category" => some (.ofOption .text p.category)
    | "publishedAt" | "published_at" => some (.ofOption .instant p.publishedAt)
    | _ => none

def ofTree? (t : JsonTree) : Option BlogPost := do
  let names := ["slug", "title", "excerpt", "content", "tags", "category", "publishedAt"]
  match ← t.fields? (names.map String.toList) with
  | [slug, title, excerpt, content, tags, category, publishedAt] =>
    return {
      slug := ← JsonTree.required? JsonTree.text? slug
      title := ← JsonTree.required? JsonTree.text? title
      excerpt := ← JsonTree.optional? JsonTree.text? [] excerpt
      content := ← JsonTree.optional? JsonTree.text? [] content
      tags := ← JsonTree.optional? (JsonTree.list? JsonTree.text?) [] tags
      category := ← JsonTree.optional? (JsonTree.nullable? JsonTree.text?) none category
      publishedAt := ← JsonTree.optional?
        (JsonTree.nullable? fun t => t.text?.bind Instant.read?) none publishedAt }
  | _ => none

def toJson (p : BlogPost) : Json :=
  .object [
    ("slug".toList, .string p.slug),
    ("title".toList, .string p.title),
    ("excerpt".toList, .string p.excerpt),
    ("content".toList, .string p.content),
    ("tags".toList, .strings p.tags),
    ("category".toList, .ofOption (p.category.map .string)),
    ("publishedAt".toList, .ofOption (p.publishedAt.map fun i => .string i.preciseText))]

end BlogPost
end ContentSearch
