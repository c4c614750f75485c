import ThermalLabel.Json.Basic
import ThermalLabel.Number.Written
import ThermalLabel.Text.Quoted
/-!
# Values in messages

Messages that refuse a value show it as a literal: texts quoted, the constants capitalised, null
as `None`, and lists and objects with their parts as literals.
-/

namespace ThermalLabel.Json

mutual

/-- A value as a literal. -/
def literal : Json → String
  | null => "None"
  | bool true => "True"
  | bool false => "False"
  | num (.int n) => toString n
  | num (.float x) => shortestText x
  | str s => quoted s
  | bytes data => quotedBytes data.data.toList
  | arr items => "[" ++ literalItems items ++ "]"
  | obj members => "\x7b" ++ literalMembers members ++ "\x7d"

def literalItems : List Json → String
  | [] => ""
  | [v] => literal v
  | v :: rest => literal v ++ ", " ++ literalItems rest

def literalMembers : List (String × Json) → String
  | [] => ""
  | [(k, v)] => quoted k ++ ": " ++ literal v
  | (k, v) :: rest => quoted k ++ ": " ++ literal v ++ ", " ++ literalMembers rest

end

/-- A value in the running text of a message: a text stands for itself. -/
def plainText : Json → Text
  | str s => s
  | v => literal v

end ThermalLabel.Json
