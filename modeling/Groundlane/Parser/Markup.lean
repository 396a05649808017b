import Groundlane.Text.Utf16

/-!
# Elements

What the XML library delivers of a document, in document order, and the selectors with which the
parsers of packages look for elements.
-/

namespace Groundlane.Parser

open Utf16

/-- A text, or an element with its attributes and what is in it. -/
inductive Node where
  | text (content : Text)
  | element (name : Text) (attributes : List (Text × Text)) (children : List Node)

namespace Node

/-- `attr(name)`. -/
def attr (name : Text) : Node → Option Text
  | text _ => none
  | element _ attributes _ => attributes.lookup name

def children : Node → List Node
  | text _ => []
  | element _ _ children => children

/-- The node is an element of the name. -/
def isNamed (name : Text) : Node → Bool
  | text _ => false
  | element found _ _ => found = name

mutual

/-- `text()`. -/
def textOf : Node → Text
  | text content => content
  | element _ _ children => textOfAll children

/-- `text()` of several nodes. -/
def textOfAll : List Node → Text
  | [] => []
  | node :: rest => textOf node ++ textOfAll rest

end

mutual

/-- The element and those in it, with the names of the elements that are around them. -/
def elements (around : List Text) : Node → List (List Text × Node)
  | text _ => []
  | element name attributes children =>
    (around, element name attributes children) :: elementsOfAll (name :: around) children

def elementsOfAll (around : List Text) : List Node → List (List Text × Node)
  | [] => []
  | node :: rest => elements around node ++ elementsOfAll around rest

end

/-- The elements of a name. -/
def select (name : Text) (nodes : List Node) : List Node :=
  ((elementsOfAll [] nodes).map Prod.snd).filter (isNamed name)

/-- `find(name)`. -/
def find (name : Text) (node : Node) : List Node := select name node.children

/-- `find("outer name")`. -/
def findIn (outer name : Text) (node : Node) : List Node :=
  ((elementsOfAll [] node.children).filter fun found =>
    found.1.contains outer && found.2.isNamed name).map Prod.snd

/-- The values of an attribute. -/
def attributeValues (name : Text) (nodes : List Node) : List Text :=
  (elementsOfAll [] nodes).filterMap fun found => found.2.attr name

end Node

end Groundlane.Parser
