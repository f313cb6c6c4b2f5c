import PageBuilder.Dom.Document

/-!
# Rendering

A node is rendered by its start tag, its content and its end tag. `outer` renders a node, `inner`
its children, and `page` a whole document below its doctype line.

* A void element has neither content nor end tag.
* In a raw element the texts are written as they are, and elements are left out.
* An element with a selected index gets ` selected` on the option at that position
  (`markSelected`), unless the option has such an attribute already.
* An indented layout breaks the line before the start tag of every element below the top, and
  before the end tag of every element that has an element child. Nothing else depends on the layout.
-/

namespace PageBuilder.Markup

open Dom

/-! ## Escaped text

Text and attribute values are written so that none of their characters reads as markup: the
characters that could are replaced by entities, one by one, and every other stands for itself.
-/

/-- How a character is written in text. -/
def textForm : Char → String
  | '&' => "&amp;"
  | '<' => "&lt;"
  | '>' => "&gt;"
  | c => String.singleton c

/-- How a character is written in an attribute value, which a quote would end. -/
def valueForm : Char → String
  | '"' => "&quot;"
  | c => textForm c

/-- Text as it is written between tags. -/
def escapeText (s : String) : String := String.join (s.toList.map textForm)

/-- An attribute value as it is written between quotes. -/
def escapeValue (s : String) : String := String.join (s.toList.map valueForm)

/-- Writes the forms of characters one by one, each at the end of what is there already. -/
def appendEscaped (form : Char → String) (buffer s : String) : String :=
  s.toList.foldl (fun written c => written ++ form c) buffer

/-! ## Pages and layouts -/

/-- The line with which every page begins. -/
def doctype : String := "<!DOCTYPE html>\n"

/-- Elements that have no content and no end tag. -/
def voidTags : List String :=
  ["area", "base", "br", "col", "embed", "hr", "img", "input", "link", "meta", "param", "source",
    "track", "wbr"]

/-- Elements whose text is written as it is. -/
def rawTags : List String := ["script", "style"]

/-- How a rendering is laid out. -/
inductive Layout where
  /-- Everything on one line. -/
  | compact
  /-- Elements on lines of their own, each level indented by one more `unit`. -/
  | indented (unit : String)
deriving DecidableEq, Repr

namespace Layout

/-- The indentation of a layout that names none. -/
def defaultUnit : String := "  "

/-- A line break in front of a tag at some depth. -/
def lineBreak : Layout → Nat → String
  | compact, _ => ""
  | indented unit, depth => "\n" ++ String.join (List.replicate depth unit)

/-- What follows the last tag of a page. -/
def ending : Layout → String
  | compact => ""
  | indented _ => "\n"

end Layout

/-! ## Tags -/

/-- An attribute as it is written in a start tag; an empty value is left out. -/
def attributeText (name value : String) : String :=
  " " ++ name ++ if value = "" then "" else "=\"" ++ escapeValue value ++ "\""

/-- The start tag of an element. -/
def startTag (names : NameTable) (e : Element) (selected : Bool) : String :=
  let tag := names.name e.name
  let marked := selected && ((names.find? "selected").bind e.attribute?).isNone
  "<" ++ tag
    ++ String.join (e.attributes.map fun a => attributeText (names.name a.name) a.value)
    ++ (if marked then " selected" else "")
    ++ (if voidTags.contains tag then " />" else ">")

/-- The end tag of an element. -/
def endTag (tag : String) : String := "</" ++ tag ++ ">"

/-! ## Nodes -/

/-- The children of a select control, each with whether it starts selected: the option with the
given position among the options. -/
def markSelected (t : Tree) : Option Nat → List NodeId → List (NodeId × Bool)
  | _, [] => []
  | none, c :: rest => (c, false) :: markSelected t none rest
  | some k, c :: rest =>
    if t.tag? c = some "option" then
      (c, k == 0) :: markSelected t (if k = 0 then none else some (k - 1)) rest
    else
      (c, false) :: markSelected t (some k) rest

/-- The texts directly below a node, as they are. -/
def rawContent (t : Tree) (n : NodeId) : String :=
  String.join ((t.children n).map fun c => ((t.get? c).bind Node.text?).getD "")

/-- A node at some depth, rendered as deep as a number of levels. -/
def renderWithin (layout : Layout) (t : Tree) : Nat → Nat → Bool → NodeId → String
  | 0, _, _, _ => ""
  | levels + 1, depth, selected, n =>
    match (t.get? n).map Node.content with
    | none => ""
    | some .document =>
      String.join ((t.children n).map fun c => renderWithin layout t levels depth false c)
    | some (.text s) => escapeText s
    | some (.element e) =>
      let tag := t.names.name e.name
      let start := (if depth = 0 then "" else layout.lineBreak depth) ++ startTag t.names e selected
      if voidTags.contains tag then
        start
      else
        let content :=
          if rawTags.contains tag then
            rawContent t n
          else
            String.join ((markSelected t e.selectedIndex (t.children n)).map fun (c, selected) =>
              renderWithin layout t levels (depth + 1) selected c)
        let ending := if t.hasElementChild n then layout.lineBreak depth else ""
        start ++ content ++ ending ++ endTag tag

/-- A node with all that is below it. -/
def outer (layout : Layout) (t : Tree) (n : NodeId) : String :=
  renderWithin layout t t.size 0 false n

/-- What is below a node. -/
def inner (layout : Layout) (t : Tree) (n : NodeId) : String :=
  String.join ((t.children n).map (outer layout t))

/-- A whole document. -/
def page (layout : Layout) (d : Document) : String :=
  doctype ++ outer layout d.tree d.html ++ layout.ending

end PageBuilder.Markup
