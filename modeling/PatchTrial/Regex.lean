import PatchTrial.Regex.Parser
import PatchTrial.Regex.Starts

/-!
Patterns as they are used: a text that was read once and is matched against lines. A match answers
with the texts of its groups.
-/
namespace PatchTrial

/-- A pattern: its text and the tree the text stands for. -/
structure Regex where
  text : String
  node : Regex.Node
  read : Regex.Node.ofText? text = some node

namespace Regex

/-- Reads a pattern; `Node.ofText?` says which texts are patterns. -/
def ofText? (text : String) : Option Regex :=
  match read : Node.ofText? text with
  | some node => some ⟨text, node, read⟩
  | none => none

def groupCount (r : Regex) : Nat := r.node.groupCount

structure Captures where
  groups : Groups

/-- The text of a group, if it took part in the match. -/
def Captures.get? (c : Captures) (index : Nat) : Option String :=
  (c.groups.lookup index).map fun s => String.ofList s.text

def captures? (r : Regex) (line : String) : Option Captures :=
  (r.node.search line.toList).map Captures.mk

theorem ofText?_text {text : String} {r : Regex} (h : ofText? text = some r) : r.text = text := by
  unfold ofText? at h
  split at h
  · cases h; rfl
  · cases h

end Regex
end PatchTrial
