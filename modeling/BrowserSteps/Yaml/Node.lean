import BrowserSteps.Yaml.Tag

/-!
The nodes of a document. An alias is the node that it stands for; only inside that node
itself it is left open.
-/

namespace BrowserSteps.Yaml

inductive Node where
  | scalar (tag : Tag) (text : String) (place : Place)
  | sequence (tag : Tag) (items : List Node) (place : Place)
  | mapping (tag : Tag) (pairs : List (Node × Node)) (place : Place)
  /-- An alias inside the sequence or the mapping that it stands for. -/
  | recursive (isMapping : Bool) (place : Place)
  deriving Inhabited, Repr

namespace Node

def place : Node → Place
  | scalar _ _ place | sequence _ _ place | mapping _ _ place | recursive _ place => place

mutual

/-- How many nodes lie one inside the other. -/
def depth : Node → Nat
  | scalar .. | recursive .. => 1
  | sequence _ items _ => depthOfItems items + 1
  | mapping _ pairs _ => depthOfPairs pairs + 1

def depthOfItems : List Node → Nat
  | [] => 0
  | item :: rest => max item.depth (depthOfItems rest)

def depthOfPairs : List (Node × Node) → Nat
  | [] => 0
  | (key, value) :: rest => max (max key.depth value.depth) (depthOfPairs rest)

end

end Node

end BrowserSteps.Yaml
