import PatchTrial.Machine.Trials

/-!
Starting a program on a machine. The path of the program is walked name by name, and a program that
is found there and may be run is started under the next number.

What is proved:
  1. `walk_into`: a name that is no link leads to its node, and the walk goes on from there.
  2. `start_of_load`: a program that can be loaded is started, and nobody is killed by that.
  3. `unmanned_starts`: it is so for the only executable of a machine on which nothing runs.
-/
namespace PatchTrial.Machine

theorem walk_into {fs : Files} {follow : Bool} {links folder parent id : Nat} {slashed : Bool}
    {entries : List (Bytes × Nat)} {name : Bytes} {rest : List Bytes}
    (held : fs.content? folder = some (.folder parent entries))
    (ordinary : name ∉ [[Path.stop], [Path.stop, Path.stop]])
    (short : name.length ≤ Files.nameLimit) (found : entries.lookup name = some id)
    (noLink : ∀ target, fs.content? id ≠ some (.link target)) :
    fs.walk follow links folder slashed (name :: rest) =
      if rest.isEmpty then .ok ⟨folder, name, some id, slashed⟩
      else fs.walk follow links id slashed rest := by
  simp only [List.mem_cons, List.not_mem_nil, or_false, not_or] at ordinary
  rw [Files.walk, held]
  simp only [if_neg ordinary.1, if_neg ordinary.2, if_neg (Nat.not_lt.2 short), found]

theorem killed_openNull (m : Machine) : m.openNull.2.killed = m.killed := by
  rw [openNull]
  split <;> rfl

/-- A program that can be loaded is started under the next number. -/
theorem start_of_load {m : Machine} {argv : List String} {loaded : Text × Program}
    (plain : (argv.any fun w => w.toList.contains '\x00') = false)
    (load : loadByName m.files m.here (argv.map Text.ofString) m.environment = .ok loaded)
    (leads : Bool) (out err : Option Handle) :
    ∃ m', m.start argv leads out err = (.ok m.nextPid, m') ∧ m'.killed = m.killed := by
  rw [start, plain, load]
  exact ⟨_, rfl, killed_openNull m⟩

/-! ## A machine with one executable -/

/-- The files of a scenario `t` that has only its executable, which is the shell. -/
def bareScenario : Files where
  nodes := (((({} : Std.TreeMap Nat Node).insert Files.top
      ⟨.folder Files.top [(Files.name "t", 1)], 0o755⟩).insert 1
    ⟨.folder Files.top [(Files.name "v0", 2)], 0o755⟩).insert 2
    ⟨.folder 1 [(Files.name "test", 3)], 0o755⟩).insert 3 ⟨.program "sh", 0o755⟩
  next := 4

/-- A machine on which interrupts are guarded and nothing runs. -/
def unmanned : Machine where
  files := bareScenario
  nextPid := 7
  self := 2
  here := Files.top
  environment := []
  guarded := true

def executablePath : Text := Text.ofString "t/v0/test"

theorem find_executable :
    bareScenario.find Files.top true (Text.toBytes executablePath) = .ok 3 := by
  have top : bareScenario.content? Files.top =
      some (.folder Files.top [(Files.name "t", 1)]) := by decide +kernel
  have scenario : bareScenario.content? 1 =
      some (.folder Files.top [(Files.name "v0", 2)]) := by decide +kernel
  have tree : bareScenario.content? 2 = some (.folder 1 [(Files.name "test", 3)]) := by
    decide +kernel
  have executable : bareScenario.content? 3 = some (.program "sh") := by decide +kernel
  -- the walk goes through three folders, and no name on it is a link
  have walked (links : Nat) : bareScenario.walk true links Files.top false
      [Files.name "t", Files.name "v0", Files.name "test"] =
        .ok ⟨2, Files.name "test", some 3, false⟩ := by
    rw [walk_into top (by decide +kernel) (by decide +kernel) rfl (by simp [scenario]),
      if_neg (by decide),
      walk_into scenario (by decide +kernel) (by decide +kernel) rfl (by simp [tree]),
      if_neg (by decide),
      walk_into tree (by decide +kernel) (by decide +kernel) rfl (by simp [executable])]
    rfl
  have relative : (Text.toBytes executablePath).head? ≠ some Path.slash ∧
      (Text.toBytes executablePath).getLast? ≠ some Path.slash := by decide +kernel
  have short : (Text.toBytes executablePath).isEmpty = false ∧
      ¬ Files.pathLimit < (Text.toBytes executablePath).length := by decide +kernel
  have names : Files.steps (Text.toBytes executablePath) =
      [Files.name "t", Files.name "v0", Files.name "test"] := by decide +kernel
  rw [Files.find, Files.locate]
  simp [relative, short, names, walked]
  rfl

theorem programIn_executable : ∃ p,
    programIn bareScenario Files.top [] interpreterLimit executablePath [executablePath] = .ok p := by
  have content : bareScenario.content? 3 = some (.program "sh") := by decide +kernel
  have mayRun : bareScenario.mayRun 3 = true := by decide +kernel
  have bytes : bareScenario.bytes 3 = .ok (programMark :: Files.name "sh") := by
    rw [Files.bytes, content]
    rfl
  have name : Text.shown (Text.ofBytes (Files.name "sh")) = "sh" := by decide +kernel
  rw [interpreterLimit, programIn, find_executable]
  simp [bind, Except.bind, pure, Except.pure, content, mayRun, bytes, name, systemProgram?,
    shellNames]

/-- Its executable can be started there. -/
theorem unmanned_starts (out err : Handle) : ∃ m,
    unmanned.answer (.spawn ["t/v0/test"] out err) = (.ok 7, m) ∧ m.killed = none := by
  obtain ⟨p, read⟩ := programIn_executable
  have named : '/' ∈ executablePath := by decide +kernel
  -- a word with a slash is not searched for in other folders
  have load : loadByName unmanned.files unmanned.here (["t/v0/test"].map Text.ofString)
      unmanned.environment = .ok ((Text.baseName executablePath).take commLimit, p) := by
    have nonempty : executablePath ≠ [] := List.ne_nil_of_mem named
    have one : candidates [] executablePath = [executablePath] := by simp [candidates, named]
    have argv : ["t/v0/test"].map Text.ofString = [executablePath] := rfl
    rw [argv]
    simp [unmanned, loadByName, loadByName.go, nonempty, one, Machine.load, read, bind, Except.bind,
      pure, Except.pure]
  exact start_of_load (by decide +kernel) load true (some out) (some err)

end PatchTrial.Machine
