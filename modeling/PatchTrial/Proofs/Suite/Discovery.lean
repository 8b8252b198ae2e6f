import PatchTrial.Proofs.Path
import PatchTrial.Proofs.Plan.Runs
import PatchTrial.Proofs.Text.Codec
import PatchTrial.Proofs.Trial.Untroubled
import PatchTrial.Suite.Discovery

/-!
Which scenarios are found. A folder lists its entries in some order; an entry is a file, a folder or
something else, or a link to one of these or to nothing.

What is proved:
  1. `nameLe_trans`, `nameLe_total`, `nameLe_antisymm`: names are in one order, so a set of them is
     sorted in one way.
  2. `Listing.play_scenariosIn`: the scenarios in a folder are what leads to a folder under a name
     that begins as those of scenarios do.
  3. `Listing.discovery_complete`: those and no others are found, each once and in order, however the
     folder is listed; the default suite has the scenarios of real programs after them.
-/
namespace PatchTrial.Suite

/-! ## The order of names -/

theorem nameLe_cons (x y : UInt8) (a b : Bytes) :
    nameLe (x :: a) (y :: b) = true ↔ x < y ∨ x = y ∧ nameLe a b = true := by
  rw [nameLe]
  by_cases h : x = y
  · subst h
    simp
  · simp [h]

theorem nameLe_trans (a b c : Bytes) (hab : nameLe a b = true) (hbc : nameLe b c = true) :
    nameLe a c = true := by
  induction a generalizing b c with
  | nil => rfl
  | cons x a ih =>
    cases b with
    | nil => cases hab
    | cons y b =>
      cases c with
      | nil => cases hbc
      | cons z c =>
        rw [nameLe_cons] at hab hbc ⊢
        rcases hab with hxy | ⟨rfl, hab⟩
        · rcases hbc with hyz | ⟨rfl, -⟩
          · exact .inl (UInt8.lt_trans hxy hyz)
          · exact .inl hxy
        · rcases hbc with hxz | ⟨rfl, hbc⟩
          · exact .inl hxz
          · exact .inr ⟨rfl, ih b c hab hbc⟩

theorem nameLe_total (a b : Bytes) : (nameLe a b || nameLe b a) = true := by
  rw [Bool.or_eq_true]
  induction a generalizing b with
  | nil => exact .inl rfl
  | cons x a ih =>
    cases b with
    | nil => exact .inr rfl
    | cons y b =>
      rw [nameLe_cons, nameLe_cons]
      by_cases same : x = y
      · subst same
        exact (ih b).imp (fun h => .inr ⟨rfl, h⟩) fun h => .inr ⟨rfl, h⟩
      · exact (UInt8.lt_or_lt_of_ne same).imp .inl .inl

theorem nameLe_antisymm (a b : Bytes) (hab : nameLe a b = true) (hba : nameLe b a = true) :
    a = b := by
  induction a generalizing b with
  | nil =>
    cases b with
    | nil => rfl
    | cons y b => cases hba
  | cons x a ih =>
    cases b with
    | nil => cases hab
    | cons y b =>
      rw [nameLe_cons] at hab hba
      rcases hab with hxy | ⟨rfl, hab⟩
      · rcases hba with hyx | ⟨rfl, -⟩
        · exact absurd hyx (UInt8.lt_asymm hxy)
        · exact absurd hxy (UInt8.lt_irrefl y)
      · rcases hba with hxx | ⟨-, hba⟩
        · exact absurd hxx (UInt8.lt_irrefl x)
        · rw [ih b hab hba]

/-- Of different names in order the first is less, byte by byte. -/
theorem lex_of_nameLe {a b : Bytes} (h : nameLe a b = true) (hne : a ≠ b) :
    List.Lex (· < ·) a b := by
  induction a generalizing b with
  | nil =>
    cases b with
    | nil => exact absurd rfl hne
    | cons y b => exact .nil
  | cons x a ih =>
    cases b with
    | nil => cases h
    | cons y b =>
      rcases (nameLe_cons x y a b).1 h with less | ⟨rfl, later⟩
      · exact .rel less
      · exact .cons (ih later fun same => hne (congrArg (x :: ·) same))

theorem pairwise_mergeSort_nameLe (names : List Bytes) :
    (names.mergeSort nameLe).Pairwise fun a b => nameLe a b = true :=
  List.pairwise_mergeSort nameLe_trans nameLe_total names

/-- Names are sorted in one way, in whatever order they come. -/
theorem mergeSort_nameLe_perm {names names' : List Bytes} (h : names.Perm names') :
    names.mergeSort nameLe = names'.mergeSort nameLe := by
  have sorted := pairwise_mergeSort_nameLe names
  have sorted' := pairwise_mergeSort_nameLe names'
  have perm : (names.mergeSort nameLe).Perm (names'.mergeSort nameLe) :=
    (names.mergeSort_perm nameLe).trans (h.trans (names'.mergeSort_perm nameLe).symm)
  exact perm.eq_of_pairwise (fun a b _ _ => nameLe_antisymm a b) sorted sorted'

/-- Sorting different names leaves each less than those after it. -/
theorem lex_mergeSort_nameLe {names : List Bytes} (h : names.Nodup) :
    (names.mergeSort nameLe).Pairwise (List.Lex (· < ·)) := by
  have apart : (names.mergeSort nameLe).Nodup := (names.mergeSort_perm nameLe).nodup_iff.2 h
  exact ((pairwise_mergeSort_nameLe names).and apart).imp fun h => lex_of_nameLe h.1 h.2

/-! ## A folder and what is in it -/

/-- What an entry of a folder is. -/
inductive Item
  | plain (kind : PathKind)
  /-- A link, with what it leads to if it leads to anything. -/
  | link (target : Option PathKind)
  deriving DecidableEq, Repr

def Item.kind? : Item → Option PathKind
  | plain kind => some kind
  | link target => target

/-- The entries of a folder, in the order in which they are listed. -/
structure Listing where
  names : List Bytes
  item : Bytes → Item
  nodup : names.Nodup
  /-- A name is one piece of a path. -/
  piece : ∀ name ∈ names, Path.slash ∉ name

namespace Listing

/-- An environment replies with the names and with what they lead to, whenever it is asked. -/
structure ShownBy (l : Listing) (folder : Path) (env : Environment) : Prop where
  list : ∀ past, env past (.list folder) = .ok l.names
  kind : ∀ past, ∀ name ∈ l.names, env past (.kind (folder.join ⟨name⟩)) = (l.item name).kind?

/-- An entry is a folder or a link to one, and its name as it is read begins as those of scenarios
do. -/
structure Holds (l : Listing) (name : Bytes) : Prop where
  listed : name ∈ l.names
  leads : l.item name = .plain .folder ∨ l.item name = .link (some .folder)
  begins : ['t'] <+: (Utf8.decodeLossy name).toList

/-- One scenario for each such entry and none for anything else, in the order of their names. Each
goes by its own name and has the overrides. -/
def Yields (l : Listing) (folder : Path) (o : Overrides) (entries : List Entry) : Prop :=
  ∃ names : List Bytes, names.Pairwise (List.Lex (· < ·)) ∧ (∀ name, name ∈ names ↔ l.Holds name) ∧
    entries = names.map fun name => ⟨folder.join ⟨name⟩, Utf8.decodeLossy name, o⟩

variable (l : Listing)

/-- Whether an entry leads to a folder. -/
def leadsToFolder (name : Bytes) : Bool := (l.item name).kind? == some .folder

def scenarios : List Bytes :=
  ((l.names.filter isScenarioName).filter l.leadsToFolder).mergeSort nameLe

theorem isScenarioName_iff (name : Bytes) :
    isScenarioName name = true ↔ ['t'] <+: (Utf8.decodeLossy name).toList := by
  rw [isScenarioName, beq_iff_eq, List.head?_eq_some_iff]
  exact exists_congr fun rest => eq_comm

theorem leadsToFolder_iff (name : Bytes) :
    l.leadsToFolder name = true ↔
      l.item name = .plain .folder ∨ l.item name = .link (some .folder) := by
  rw [leadsToFolder, beq_iff_eq]
  cases l.item name <;> simp [Item.kind?]

theorem mem_scenarios (name : Bytes) : name ∈ l.scenarios ↔ l.Holds name := by
  rw [scenarios, List.mem_mergeSort, List.mem_filter, List.mem_filter, l.leadsToFolder_iff,
    isScenarioName_iff]
  constructor
  · intro h
    obtain ⟨⟨listed, begins⟩, leads⟩ := h
    exact ⟨listed, leads, begins⟩
  · intro h
    exact ⟨⟨h.listed, h.begins⟩, h.leads⟩

theorem lex_scenarios : l.scenarios.Pairwise (List.Lex (· < ·)) :=
  lex_mergeSort_nameLe ((l.nodup.filter isScenarioName).filter l.leadsToFolder)

/-- Neither the order of the entries nor what is told apart about them beyond where they lead
matters. -/
theorem scenarios_congr {l' : Listing} (names : l.names.Perm l'.names)
    (items : ∀ name ∈ l.names, l.item name = l'.item name) : l.scenarios = l'.scenarios := by
  have same : (l.names.filter isScenarioName).filter l.leadsToFolder =
      (l.names.filter isScenarioName).filter l'.leadsToFolder := by
    refine List.filter_congr fun name hm => ?_
    rw [leadsToFolder, leadsToFolder, items name (List.mem_filter.1 hm).1]
  rw [scenarios, scenarios, same]
  exact mergeSort_nameLe_perm ((names.filter isScenarioName).filter l'.leadsToFolder)

/-- What is in a folder under a name that begins as those of scenarios do goes by that name. -/
theorem label_join (folder : Path) {name : Bytes} (piece : Path.slash ∉ name)
    (begins : ['t'] <+: (Utf8.decodeLossy name).toList) :
    (folder.join ⟨name⟩).label = Utf8.decodeLossy name := by
  -- a name that leads nowhere or upwards is plain text and begins otherwise
  have other (s : String) (h : ¬ ['t'] <+: s.toList) : name ≠ Utf8.encode s := by
    intro same
    rw [same, Utf8.decodeLossy_encode] at begins
    exact h begins
  have nonempty : name ≠ [] := other "" (by decide)
  have not_stop : name ≠ [Path.stop] := other "." (by decide)
  have not_up : name ≠ [Path.stop, Path.stop] := other ".." (by decide)
  rw [Path.label, Path.fileName?_join folder piece nonempty not_stop not_up]

def entries (folder : Path) (o : Overrides) : List Entry :=
  l.scenarios.map fun name => Entry.of (folder.join ⟨name⟩) o

theorem yields_entries (folder : Path) (o : Overrides) : l.Yields folder o (l.entries folder o) := by
  refine ⟨l.scenarios, l.lex_scenarios, l.mem_scenarios, List.map_congr_left fun name hm => ?_⟩
  have holds := (l.mem_scenarios name).1 hm
  rw [Entry.of, label_join folder (l.piece name holds.listed) holds.begins]

/-! ## Looking for them -/

/-- Under an environment an attempt comes to a list of entries, whatever went before. -/
def Finds (env : Environment) (x : Attempt Refusal (List Entry)) (found : List Entry) : Prop :=
  ∀ past, (x.outcome.play env past).1 = .ok found

section Looking
variable {l} {folder : Path} {env : Environment} (h : l.ShownBy folder env)
include h

theorem play_isFolder {name : Bytes} (listed : name ∈ l.names) (past : Trace) :
    ((Plan.isFolder (folder.join ⟨name⟩)).play env past).1 = l.leadsToFolder name := by
  show (env past (.kind (folder.join ⟨name⟩)) == some .folder) = _
  rw [h.kind past name listed, leadsToFolder]

theorem play_folderNames {names : List Bytes} (listed : ∀ name ∈ names, name ∈ l.names)
    (past : Trace) :
    ((folderNames folder names).play env past).1 = names.filter l.leadsToFolder := by
  induction names generalizing past with
  | nil => rfl
  | cons name rest ih =>
    rw [folderNames, Plan.play_bind, play_isFolder h (listed name List.mem_cons_self),
      Plan.play_bind, ih fun other hm => listed other (List.mem_cons_of_mem name hm)]
    by_cases leads : l.leadsToFolder name = true
    · rw [List.filter_cons_of_pos leads, leads]
      rfl
    · rw [List.filter_cons_of_neg leads, eq_false_of_ne_true leads]
      rfl

/-- The scenarios in a folder that is read are found. -/
theorem play_scenariosIn (o : Overrides) : Finds env (scenariosIn folder o) (l.entries folder o) := by
  intro past
  have listing : ((Plan.request (.list folder)).play env past).1 = .ok l.names := h.list past
  have within : ∀ name ∈ l.names.filter isScenarioName, name ∈ l.names :=
    fun name hm => (List.mem_filter.1 hm).1
  have folders (past : Trace) :
      ((liftM (folderNames folder (l.names.filter isScenarioName)) :
        Attempt Refusal (List Bytes)).outcome.play env past).1 =
        .ok ((l.names.filter isScenarioName).filter l.leadsToFolder) := by
    rw [Attempt.play_lift, play_folderNames h within]
  rw [scenariosIn, Attempt.play_bind (Attempt.play_of listing), Attempt.play_bind (folders _)]
  rfl

theorem play_discover_directory {a : Arguments} (asked : a.scenario = some folder)
    (directory : a.directory = true) :
    Finds env (discover a) (l.entries folder (Overrides.ofArguments a)) := by
  intro past
  rw [discover, asked, directory]
  exact play_scenariosIn h _ past

/-- In the default suite the scenarios of real programs come after those of the folder. -/
theorem play_discover_default {a : Arguments} (asked : a.scenario = none)
    (place : a.root.child "tests" = folder) :
    Finds env (discover a) (l.entries folder (Overrides.ofArguments a) ++
      realScenarios.map fun (place, execName) =>
        Entry.of (a.root.child place) ((Overrides.ofArguments a).withExecName execName)) := by
  intro past
  subst place
  rw [discover, asked]
  dsimp only [defaultFolder]
  rw [Attempt.play_bind (play_scenariosIn h (Overrides.ofArguments a) past)]
  rfl

end Looking

theorem label_apache (root : Path) : (root.child "real_tests/apache").label = "apache" := by
  have relative : (Path.ofString "real_tests/apache").isAbsolute = false := by decide
  have named : (Path.ofString "real_tests/apache").names =
      [Utf8.encode "real_tests", Utf8.encode "apache"] := by decide
  have last : (root.child "real_tests/apache").fileName? = some (Utf8.encode "apache") := by
    rw [Path.fileName?, Path.child, Path.names_join relative, named, List.getLast?_append]
    rfl
  rw [Path.label, last]
  exact Utf8.decodeLossy_encode "apache"

/-- Two readings of a folder that list the same entries, in whatever order, find the same scenarios:
one for each folder or link to a folder whose name begins with the letter of scenarios, in the order
of the names. The default suite has them too, and after them the scenarios of real programs, each with
its executable. -/
theorem discovery_complete {l l' : Listing} {folder : Path} {env env' : Environment}
    (shown : l.ShownBy folder env) (shown' : l'.ShownBy folder env')
    (reordered : l.names.Perm l'.names) (items : ∀ name ∈ l.names, l.item name = l'.item name) :
    (∀ o, ∃ found, l.Yields folder o found ∧
      Finds env (scenariosIn folder o) found ∧ Finds env' (scenariosIn folder o) found) ∧
    ∀ a : Arguments, ∃ found, l.Yields folder (Overrides.ofArguments a) found ∧
      (a.scenario = some folder → a.directory = true →
        Finds env (discover a) found ∧ Finds env' (discover a) found) ∧
      (a.scenario = none → a.root.child "tests" = folder →
        let suite := found ++ [⟨a.root.child "real_tests/apache", "apache",
          { Overrides.ofArguments a with execName := some "httpd" }⟩]
        Finds env (discover a) suite ∧ Finds env' (discover a) suite) := by
  have same (o : Overrides) : l'.entries folder o = l.entries folder o := by
    rw [entries, entries, l.scenarios_congr reordered items]
  constructor
  · intro o
    refine ⟨l.entries folder o, l.yields_entries folder o, play_scenariosIn shown o, ?_⟩
    rw [← same o]
    exact play_scenariosIn shown' o
  · intro a
    let o := Overrides.ofArguments a
    refine ⟨l.entries folder o, l.yields_entries folder o, fun asked directory => ?_,
      fun asked place => ?_⟩
    · refine ⟨play_discover_directory shown asked directory, ?_⟩
      rw [← same o]
      exact play_discover_directory shown' asked directory
    -- the default suite has one scenario more, that of a real program
    · have real : realScenarios.map (fun (place, execName) =>
            Entry.of (a.root.child place) (o.withExecName execName)) =
          [⟨a.root.child "real_tests/apache", "apache", { o with execName := some "httpd" }⟩] := by
        rw [← label_apache a.root]
        rfl
      have suite := play_discover_default shown asked place
      have suite' := play_discover_default shown' asked place
      rw [real] at suite suite'
      rw [same] at suite'
      exact ⟨suite, suite'⟩

/-! ## A machine with one folder -/

variable (l : Listing)

/-- The replies of a machine that has this folder and on which nothing else is wrong. -/
def replies (folder : Path) : Environment
  | _, .list path => if path = folder then .ok l.names else .error .notFound
  | _, .kind path =>
    (l.names.find? fun name => folder.join ⟨name⟩ = path).elim none fun name => (l.item name).kind?
  | past, r => Trial.untroubled (fun _ _ => false) (fun _ => []) past r

theorem shownBy_replies (folder : Path) : l.ShownBy folder (l.replies folder) where
  list _ := if_pos rfl
  kind past name listed := by
    rw [replies]
    cases found : l.names.find? fun other => folder.join ⟨other⟩ = folder.join ⟨name⟩ with
    | none =>
      have missed := List.find?_eq_none.1 found name listed
      exact absurd (decide_eq_true rfl) missed
    | some other =>
      have same : decide (folder.join ⟨other⟩ = folder.join ⟨name⟩) = true :=
        List.find?_some (p := fun other => decide (folder.join ⟨other⟩ = folder.join ⟨name⟩)) found
      have alike := Path.join_cancel
        (Path.isAbsolute_of_notMem (l.piece other (List.mem_of_find?_eq_some found)))
        (Path.isAbsolute_of_notMem (l.piece name listed)) (of_decide_eq_true same)
      obtain rfl : other = name := congrArg Path.bytes alike
      rfl

/-- The same entries, listed from the last one on. -/
def reversed : Listing where
  names := l.names.reverse
  item := l.item
  nodup := (List.reverse_perm l.names).nodup_iff.2 l.nodup
  piece name hm := l.piece name (List.mem_reverse.1 hm)

/-- Entries of many kinds: a name that is no text, a file, a folder with another name, and links to a
folder and to nothing. -/
def mixed : Listing where
  names := [[116, 255], Utf8.encode "t2", Utf8.encode "notes", Utf8.encode "t.log",
    Utf8.encode "t1", Utf8.encode "t0"]
  item name :=
    if name = Utf8.encode "t.log" then .plain .file
    else if name = Utf8.encode "t1" then .link (some .folder)
    else if name = Utf8.encode "t0" then .link none
    else .plain .folder
  nodup := by decide
  piece := by decide

/-- Listed forwards and backwards, the folder gives one suite. -/
theorem mixed_found :
    let a : Arguments := { root := .ofString "r" }
    let folder := a.root.child "tests"
    mixed.names.Perm mixed.reversed.names ∧
      ∃ found, mixed.Yields folder (Overrides.ofArguments a) found ∧
        Finds (mixed.replies folder) (discover a) (found ++ [⟨a.root.child "real_tests/apache",
          "apache", { Overrides.ofArguments a with execName := some "httpd" }⟩]) ∧
        Finds (mixed.reversed.replies folder) (discover a) (found ++
          [⟨a.root.child "real_tests/apache", "apache",
            { Overrides.ofArguments a with execName := some "httpd" }⟩]) := by
  intro a folder
  have reordered : mixed.names.Perm mixed.reversed.names := (List.reverse_perm mixed.names).symm
  obtain ⟨-, suites⟩ := discovery_complete (mixed.shownBy_replies folder)
    (mixed.reversed.shownBy_replies folder) reordered fun _ _ => rfl
  obtain ⟨found, yields, -, suite⟩ := suites a
  exact ⟨reordered, found, yields, suite rfl rfl⟩

end Listing
end PatchTrial.Suite
