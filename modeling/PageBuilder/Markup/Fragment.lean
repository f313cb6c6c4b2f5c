import PageBuilder.Dom.View
import PageBuilder.Markup.Render

/-!
# Reading markup back

A `Fragment` is what markup shows: a text, or an element with attributes and content.
`Fragment.readPage?` reads a compact page back, and `Fragment.ofRose` says what a node of a tree
looks like once it is written: a selected option carries the attribute, and a text without
characters leaves no trace.
-/

namespace PageBuilder.Markup

open Dom

/-! ## Entities -/

/-- What is written for a character that could be markup. -/
structure Entity where
  written : String
  char : Char
deriving DecidableEq, Repr

/-- Whether characters begin with an entity. -/
def Entity.begins (cs : List Char) (e : Entity) : Bool := e.written.toList.isPrefixOf cs

/-- The entities of texts. -/
def textEntities : List Entity := [⟨"&amp;", '&'⟩, ⟨"&lt;", '<'⟩, ⟨"&gt;", '>'⟩]

/-- The entities of attribute values. -/
def valueEntities : List Entity := textEntities ++ [⟨"&quot;", '"'⟩]

/-- Replaces the entities of a table by the characters they stand for, once and from left to
right. -/
def decodeWith (entities : List Entity) : List Char → List Char
  | [] => []
  | c :: rest =>
    match entities.find? (Entity.begins (c :: rest)) with
    | some e => e.char :: decodeWith entities (rest.drop (e.written.length - 1))
    | none => c :: decodeWith entities rest
termination_by cs => cs.length

/-- A text that is written with entities. -/
def decodedText (cs : List Char) : String := String.ofList (decodeWith valueEntities cs)

/-! ## Fragments -/

/-- What markup shows. -/
inductive Fragment where
  | element (tag : String) (attributes : List (String × String)) (content : List Fragment)
  | text (s : String)

namespace Fragment

/-! ## Tags -/

/-- Whether a character cannot be part of an attribute name. -/
def endsName (c : Char) : Bool := c == ' ' || c == '=' || c == '/' || c == '>'

/-- The attributes of a start tag, and the characters from its closing on. -/
def readAttributes? : Nat → List Char → Option (List (String × String) × List Char)
  | 0, _ => none
  | steps + 1, ' ' :: rest =>
    match rest.takeWhile (!endsName ·), rest.dropWhile (!endsName ·) with
    | [], _ => some ([], ' ' :: rest)
    | name, '=' :: '"' :: rest =>
      match rest.dropWhile (· != '"') with
      | [] => none
      | _ :: after =>
        (readAttributes? steps after).map fun (more, after) =>
          ((String.ofList name, decodedText (rest.takeWhile (· != '"'))) :: more, after)
    | name, rest =>
      (readAttributes? steps rest).map fun (more, after) =>
        ((String.ofList name, "") :: more, after)
  | _, cs => some ([], cs)

/-- The characters after an end tag. -/
def readEndTag? (tag : String) (cs : List Char) : Option (List Char) :=
  let written := (endTag tag).toList
  if cs.take written.length = written then some (cs.drop written.length) else none

/-! ## Raw text -/

/-- Whether an end tag for styles begins here: its name in letters of either case, and what can
follow a name in a tag. -/
def startsStyleEnd (cs : List Char) : Bool :=
  (cs.take 7).map Char.toLower == "</style".toList &&
    match cs.drop 7 with
    | [] => false
    | c :: _ => [' ', '\t', '\n', '\x0c', '\r', '/', '>'].contains c

/-- The characters before the first end tag for styles, and those from there on. -/
def splitStyle : List Char → List Char × List Char
  | [] => ([], [])
  | c :: rest =>
    if startsStyleEnd (c :: rest) then ([], c :: rest)
    else ((c :: (splitStyle rest).1), (splitStyle rest).2)

/-- A text, unless it has no characters. -/
def ofText (s : String) : List Fragment := if s = "" then [] else [.text s]

/-! ## Content -/

mutual

/-- An element after its opening bracket, and the characters after it. -/
def readElement? : Nat → List Char → Option (Fragment × List Char)
  | 0, _ => none
  | steps + 1, cs =>
    let tag := String.ofList (cs.takeWhile (!endsName ·))
    match readAttributes? steps (cs.dropWhile (!endsName ·)) with
    | some (attributes, ' ' :: '/' :: '>' :: rest) =>
      if voidTags.contains tag then some (.element tag attributes [], rest) else none
    | some (attributes, '>' :: rest) =>
      if tag = "style" then
        let (raw, rest) := splitStyle rest
        (readEndTag? tag rest).map fun rest =>
          (.element tag attributes (ofText (String.ofList raw)), rest)
      else
        match readContent? steps rest with
        | some (content, rest) =>
          (readEndTag? tag rest).map fun rest => (.element tag attributes content, rest)
        | none => none
    | _ => none

/-- Texts and elements up to an end tag or the end, and the characters from there on. -/
def readContent? : Nat → List Char → Option (List Fragment × List Char)
  | 0, _ => none
  | _, [] => some ([], [])
  | _, '<' :: '/' :: rest => some ([], '<' :: '/' :: rest)
  | steps + 1, '<' :: rest =>
    match readElement? steps rest with
    | some (e, rest) => (readContent? steps rest).map fun (more, rest) => (e :: more, rest)
    | none => none
  | steps + 1, cs =>
    (readContent? steps (cs.dropWhile (· != '<'))).map fun (more, rest) =>
      (.text (decodedText (cs.takeWhile (· != '<'))) :: more, rest)

end

/-- The element that a page holds below its doctype line. -/
def readPage? (page : String) : Option Fragment :=
  let cs := page.toList
  let start := doctype.toList ++ ['<']
  if cs.take start.length = start then
    match readElement? cs.length (cs.drop start.length) with
    | some (e, []) => some e
    | _ => none
  else none

/-! ## What is written of a node -/

/-- Gives an attribute without a value to an element that does not have it yet. -/
def withMark (name : String) : Fragment → Fragment
  | .element tag attributes content =>
    if name ∈ attributes.map (·.1) then .element tag attributes content
    else .element tag (attributes ++ [(name, "")]) content
  | .text s => .text s

/-- Marks the option at a position among the options. -/
def markOption : Option Nat → List Fragment → List Fragment
  | _, [] => []
  | none, fs => fs
  | some k, .element "option" attributes content :: rest =>
    if k = 0 then (Fragment.element "option" attributes content).withMark "selected" :: rest
    else .element "option" attributes content :: markOption (some (k - 1)) rest
  | some k, f :: rest => f :: markOption (some k) rest

mutual

/-- What is written of a node, if everything in it is. A document shows what it holds. -/
def ofRose : Rose → List Fragment
  | .document children => ofRoses children
  | .element tag attributes selectedIndex children =>
    [.element tag attributes (markOption selectedIndex (ofRoses children))]
  | .text s => ofText s

/-- What is written of nodes side by side. -/
def ofRoses : List Rose → List Fragment
  | [] => []
  | r :: rest => ofRose r ++ ofRoses rest

end

end Fragment

end PageBuilder.Markup
