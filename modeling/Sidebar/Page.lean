import Sidebar.Document
import Sidebar.Markup.Hidden
import Sidebar.Markup.Tag
import Sidebar.Text.Entity

namespace Sidebar.Page

/-- What a tag amounts to when its classes name a category. -/
inductive Finding where
  | element (e : Element)
  /-- An element that cannot be addressed, for want of an id. -/
  | withoutId (category : Category)
deriving DecidableEq, Repr

/-- The first category that a `class` attribute names. -/
def category? (value : List Char) : Option Category :=
  (words value).findSome? fun word => Category.ofName? (String.ofList word)

def label? (content : List Char) : Option String :=
  let text := Entity.decode (trim content)
  if text.isEmpty then none else some (String.ofList text)

def finding? (t : Markup.Tag) : Option Finding := do
  let category ← (t.attribute? .className).bind category?
  match t.attribute? .id with
  | none | some [] => return .withoutId category
  | some id => return .element { id := String.ofList id, category, label := label? t.content }

def findings (html : String) : List Finding :=
  (Markup.tags (Markup.visible html.toList)).filterMap finding?

def Finding.element? : Finding → Option Element
  | element e => some e
  | withoutId _ => none

def elements (html : String) : List Element := (findings html).filterMap Finding.element?

def read (html : String) : Document := .ofElements (elements html)

def notices (html : String) : List Notice :=
  go .empty (findings html)
where
  go (d : Document) : List Finding → List Notice
    | [] => []
    | .withoutId c :: rest => .withoutId c :: go d rest
    | .element e :: rest => d.pushNotices e ++ go (d.push e) rest

def renderElement (e : Element) : List Char :=
  "<div class=\"".toList ++ e.category.name.toList ++ "\" id=\"".toList ++ e.id.toList ++
    "\">".toList ++ Entity.encode (e.label.getD "").toList ++ "</div>\n".toList

def render (es : List Element) : String := String.ofList (es.flatMap renderElement)

end Sidebar.Page
