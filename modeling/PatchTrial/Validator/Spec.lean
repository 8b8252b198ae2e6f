import PatchTrial.Text.Quoted
import PatchTrial.Validator.Table

/-!
Descriptions of tables, and which of them are well formed. A shape is well formed when its pattern
can be read and has every group its checks name, or when it has neither pattern nor checks; a list
of shapes is when all of them are and no two have the same start.
-/
namespace PatchTrial.Validator

structure ShapeSpec where
  start : String
  pattern : Option String := none
  checks : List Check := []
  deriving DecidableEq, Repr

/-- What is wrong with a description. -/
inductive SpecError
  /-- The pattern of a shape cannot be read. -/
  | badPattern (start : String)
  /-- A check names a group its pattern does not have. -/
  | noSuchGroup (start : String) (group : Nat) (pattern : String) (groups : Nat)
  /-- A shape has checks and no pattern. -/
  | checksWithoutPattern (start : String)
  /-- Two shapes have the same start. -/
  | duplicateStart (start : String)
  /-- A preset is named beside shapes or requirements. -/
  | mixedPreset (name : String)
  /-- There are neither a preset nor shapes. -/
  | empty
  /-- There is no preset of that name. -/
  | unknownPreset (name : String) (known : List String)
  deriving DecidableEq, Repr

/-- What stands for the reason why a pattern cannot be read. -/
def patternProblem : String := "<regex error>"

/-- The words for what is wrong with a description. -/
def SpecError.message : SpecError → String
  | badPattern start =>
    "invalid pattern for prefix " ++ Text.quoted start ++ ": " ++ patternProblem
  | noSuchGroup start group pattern groups =>
    "check on prefix " ++ Text.quoted start ++ " references capture group " ++ toString group ++
      ", pattern " ++ Text.quoted pattern ++ " has " ++ toString groups
  | checksWithoutPattern start =>
    "shape " ++ Text.quoted start ++ " has checks but no pattern to capture from"
  | duplicateStart start => "duplicate line shape prefix " ++ Text.quoted start
  | mixedPreset name =>
    "preset " ++ Text.quoted name ++ " cannot be combined with shapes or require"
  | empty => "validator declares neither a preset nor any shapes"
  | unknownPreset name known =>
    "unknown validator preset " ++ Text.quoted name ++ " (expected one of " ++
      ", ".intercalate known ++ ")"

/-- The first group of a list that a pattern with `count` groups does not have. -/
def foreignGroup? (count : Nat) (groups : List Nat) : Option Nat :=
  groups.find? fun g => g < 1 || count < g

theorem within_of_foreignGroup? {count : Nat} {checks : List Check}
    (h : foreignGroup? count (checks.flatMap Check.groups) = none) :
    ∀ c ∈ checks, ∀ g ∈ c.groups, 1 ≤ g ∧ g ≤ count := by
  intro c hc g hg
  have := List.find?_eq_none.1 h g (List.mem_flatMap.2 ⟨c, hc, hg⟩)
  simp at this
  omega

def ShapeSpec.compile (s : ShapeSpec) : Except SpecError Shape :=
  match s.pattern with
  | some text =>
    match Regex.ofText? text with
    | none => .error (.badPattern s.start)
    | some pattern =>
      match h : foreignGroup? pattern.groupCount (s.checks.flatMap Check.groups) with
      | some group => .error (.noSuchGroup s.start group text pattern.groupCount)
      | none => .ok ⟨s.start, some ⟨pattern, s.checks, within_of_foreignGroup? h⟩⟩
  | none =>
    match s.checks with
    | [] => .ok ⟨s.start, none⟩
    | _ :: _ => .error (.checksWithoutPattern s.start)

/-- The shapes of descriptions, in their order; the first bad one is the problem. -/
def compileShapes : List ShapeSpec → Except SpecError (List Shape)
  | [] => .ok []
  | s :: rest =>
    match s.compile with
    | .error e => .error e
    | .ok shape => (compileShapes rest).map (shape :: ·)

/-- The first text that also stands earlier in a list, `before` being the texts before it. -/
def firstRepeat? (before : List String) : List String → Option String
  | [] => none
  | s :: rest => if s ∈ before then some s else firstRepeat? (s :: before) rest

theorem nodup_of_firstRepeat? {before texts : List String} (h : firstRepeat? before texts = none) :
    texts.Nodup ∧ ∀ s ∈ texts, s ∉ before := by
  induction texts generalizing before with
  | nil => simp
  | cons s rest ih =>
    simp only [firstRepeat?] at h
    split at h
    · cases h
    · rename_i notBefore
      have ⟨nodup, apart⟩ := ih h
      refine ⟨List.nodup_cons.2 ⟨fun mem => apart s mem (by simp), nodup⟩, ?_⟩
      intro t mem
      rcases List.mem_cons.1 mem with rfl | mem
      · exact notBefore
      · exact fun inBefore => apart t mem (List.mem_cons_of_mem _ inBefore)

/-- The table of shapes, unless two have the same start. -/
def Table.ofShapes (shapes : List Shape) (requirements : List Requirement) :
    Except SpecError Table :=
  match h : firstRepeat? [] (shapes.map Shape.start) with
  | some start => .error (.duplicateStart start)
  | none => .ok ⟨shapes, requirements, (nodup_of_firstRepeat? h).1⟩

def Table.ofSpecs (shapes : List ShapeSpec) (requirements : List Requirement) :
    Except SpecError Table := do
  Table.ofShapes (← compileShapes shapes) requirements

end PatchTrial.Validator
