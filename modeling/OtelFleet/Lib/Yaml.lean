import OtelFleet.Lib.Assoc
import Mathlib.Data.String.Basic

namespace Yaml

-- A node of a YAML document. The type of a plain scalar is resolved from its text, whereas `str` is
-- a scalar tagged as a string. The keys of a mapping are untagged scalars.
inductive Node where
  | plain (text : String)
  | str (s : String)
  | seq (flow : Bool) (items : List Node)
  | map (entries : List (String × Node))

abbrev Entries := List (String × Node)

namespace Node

def entries : Node → Entries
  | map es => es
  | _ => []

def items : Node → List Node
  | seq _ ns => ns
  | _ => []

def get? (n : Node) (key : String) : Option Node :=
  n.entries.lookup key

def section? (n : Node) (key : String) : Entries :=
  (n.get? key).elim [] entries

def str? : Node → Option String
  | str s => some s
  | _ => none

def strings (n : Node) (key : String) : List String :=
  (n.get? key).elim [] fun l => l.items.filterMap str?

def ofStrings (ss : List String) : Node :=
  seq true (ss.map str)

@[simp]
theorem filterMap_str? (ss : List String) : (ofStrings ss).items.filterMap str? = ss := by
  simp only [ofStrings, items, List.filterMap_map]
  exact List.filterMap_some

end Node
end Yaml
