import ChatStory.Command.Source
import ChatStory.Proofs.Files.Path
import ChatStory.Scenario.Source

/-!
Two readers of one directory. A command takes the files whose paths end in `.twee`, and puts them in the order
of these paths as texts; a scenario takes the files with the extension `twee`, in the order of a walk by
name. A file that is called `.twee` has no extension, and a name can go on with a character that comes before
the slash, so both have to be ruled out for the readers to agree.
-/
namespace ChatStory

namespace FileTree

/-- What the file of a path holds. -/
def contentOf (t : FileTree) (path : String) : String := (t.read path).toOption.getD ""

/-- The files below a directory that pass a test, with what they hold, in the order of a walk. -/
def textsBelow (t : FileTree) (directory : String) (test : String → Bool) : List (String × String) :=
  ((t.filesBelow directory).filter test).map fun file => (file, t.contentOf file)

/-- Every file below a directory can be read as text. -/
def TextsOnly (t : FileTree) (directory : String) : Prop :=
  ∀ file ∈ t.filesBelow directory, ∃ content, t.read file = .ok content

/-- The path ends like that of a script. -/
def endsInTwee (path : String) : Bool := Command.scriptEnding.toList.isSuffixOf path.toList

/-- The path has the extension of a script. -/
def hasTwee (path : String) : Bool := Path.extension? path = some "twee"

/-- The files that a command joins. -/
def commandFiles (t : FileTree) (directory : String) : List (String × String) :=
  Command.inPathOrder directory (t.textsBelow directory endsInTwee)

/-- The files that a scenario joins. -/
def scenarioFiles (t : FileTree) (directory : String) : List (String × String) :=
  t.textsBelow directory hasTwee

/-- Files as one script, unless there are none. -/
def joined? : List (String × String) → Option String
  | [] => none
  | file :: rest => some ("\n".intercalate ((file :: rest).map (·.2)))

variable {t : FileTree} {directory : String}

/- One step of a program, from what it gives and leaves. -/
theorem bind_of_run {α β : Type} {x : StateM FileTree α} {a : α} {u : FileTree} (run : x t = (a, u))
    (rest : α → StateM FileTree β) : (x >>= rest) t = rest a u := by
  change (let (a, u) := x t; rest a u) = _
  rw [run]

theorem mergeSort_pair {α : Type} (before : α → α → Bool) (a b : α) :
    [a, b].mergeSort before = if before a b then [a, b] else [b, a] := by
  simp [List.mergeSort, List.merge]

theorem readAll_of_texts {paths : List String}
    (texts : ∀ path ∈ paths, ∃ content, t.read path = .ok content) :
    Files.readAll (m := StateM FileTree) paths t = (.ok (paths.map t.contentOf), t) := by
  induction paths with
  | nil => rfl
  | cons path rest ih =>
    obtain ⟨⟨content, here⟩, others⟩ := List.forall_mem_cons.1 texts
    have own : t.contentOf path = content := by rw [contentOf, here]; rfl
    have read : Files.read (m := StateM FileTree) path t = (.ok content, t) := by
      change (t.read path, t) = _
      rw [here]
    rw [Files.readAll, bind_of_run read]
    dsimp only
    rw [bind_of_run (ih others), List.map_cons, own]
    rfl

theorem TextsOnly.filter (texts : t.TextsOnly directory) (test : String → Bool) :
    ∀ file ∈ (t.filesBelow directory).filter test, ∃ content, t.read file = .ok content :=
  fun file member => texts file (List.mem_filter.1 member).1

theorem readSource_of_texts (texts : t.TextsOnly directory) :
    (Scenario.readSource (m := StateM FileTree) directory t).1 =
      match joined? (t.scenarioFiles directory) with
      | some source => .ok source
      | none => .error (.noScripts directory) := by
  have walk : Files.filesBelow (m := StateM FileTree) directory t = (t.filesBelow directory, t) := rfl
  have read : Files.readAll (m := StateM FileTree)
      ((t.filesBelow directory).filter fun path => Path.extension? path = some "twee") t = _ :=
    readAll_of_texts (texts.filter hasTwee)
  have files : t.scenarioFiles directory =
    ((t.filesBelow directory).filter fun path => Path.extension? path = some "twee").map
      fun file => (file, t.contentOf file) := rfl
  rw [Scenario.readSource, bind_of_run walk, bind_of_run read, files]
  cases (t.filesBelow directory).filter fun path => Path.extension? path = some "twee" with
  | nil => rfl
  | cons file rest =>
    rw [List.map_cons, List.map_cons, joined?, List.map_cons, List.map_map]
    rfl

/- The order of the paths does not add or drop files. -/
theorem readDirectory_of_texts (texts : t.TextsOnly directory) :
    Command.readDirectory (m := StateM FileTree) directory t =
      (match joined? (t.commandFiles directory) with
        | some source => .ok source
        | none => .error (.emptyScript directory), t) := by
  have walk : Files.filesBelow (m := StateM FileTree) directory t = (t.filesBelow directory, t) := rfl
  have read : Files.readAll (m := StateM FileTree)
      ((t.filesBelow directory).filter fun path => Command.scriptEnding.toList.isSuffixOf path.toList) t =
        _ := readAll_of_texts (texts.filter endsInTwee)
  have files : t.commandFiles directory = Command.inPathOrder directory
    (((t.filesBelow directory).filter fun path => Command.scriptEnding.toList.isSuffixOf path.toList).map
      fun file => (file, t.contentOf file)) := rfl
  rw [Command.readDirectory, bind_of_run walk, bind_of_run read, files]
  generalize (t.filesBelow directory).filter (fun path =>
    Command.scriptEnding.toList.isSuffixOf path.toList) = paths
  have pairs : paths.zip (paths.map t.contentOf) = paths.map fun file => (file, t.contentOf file) :=
    List.map_prod_left_eq_zip.symm
  dsimp only
  rw [pairs, List.isEmpty_map]
  have same := List.mergeSort_perm (paths.map fun file => (file, t.contentOf file)) fun a b =>
    (compare (String.ofList (Command.relativePath directory a.1))
      (String.ofList (Command.relativePath directory b.1))).isLE
  change (Command.inPathOrder directory _).Perm _ at same
  cases listed : Command.inPathOrder directory (paths.map fun file => (file, t.contentOf file)) with
  | nil =>
    rw [listed] at same
    have none := List.map_eq_nil_iff.1 same.nil_eq.symm
    rw [none]
    rfl
  | cons file rest =>
    have some : paths.isEmpty = false := by
      rw [List.isEmpty_eq_false_iff]
      rintro rfl
      rw [listed] at same
      exact List.cons_ne_nil file rest same.eq_nil
    rw [some]
    rfl

theorem readScript_of_texts {script : String} {place : List String} (found : t.find (t.absolute script) = .ok place)
    (below : t.isDirectoryAt place = true) (texts : t.TextsOnly (t.absolute script)) :
    (Command.readScript (m := StateM FileTree) script t).1 =
      match joined? (t.commandFiles (t.absolute script)) with
      | some source => .ok ⟨t.absolute script, source⟩
      | none => .error (.emptyScript (t.absolute script)) := by
  have there : (t.find (t.absolute script)).isOk = true := by rw [found]; rfl
  have folder : (t.find (t.absolute script)).toOption.any t.isDirectoryAt = true := by
    rw [found]
    exact below
  have absolute : Files.absolute (m := StateM FileTree) script t = (t.absolute script, t) := rfl
  have present : Files.isPresent (m := StateM FileTree) (t.absolute script) t = (true, t) := by
    rw [← there]
    rfl
  have directory : Files.isDirectory (m := StateM FileTree) (t.absolute script) t = (true, t) := by
    rw [← folder]
    rfl
  rw [Command.readScript, bind_of_run absolute, bind_of_run present, Bool.not_true,
    if_neg Bool.false_ne_true, bind_of_run directory, if_pos rfl, bind_of_run (readDirectory_of_texts texts)]
  cases joined? (t.commandFiles (t.absolute script)) <;> rfl

/- A scenario takes the files that a command takes, but for those that have no name before the point. -/
theorem hasTwee_iff (texts : t.TextsOnly directory) {file : String} (below : file ∈ t.filesBelow directory) :
    hasTwee file = true ↔ endsInTwee file = true ∧ Path.fileName file ≠ Command.scriptEnding := by
  obtain ⟨content, read⟩ := texts file below
  have parts := Path.extension_iff (proper_of_read read) (show '/' ∉ "twee".toList by decide)
    (show '.' ∉ "twee".toList by decide)
  rw [hasTwee, endsInTwee, decide_eq_true_eq, List.isSuffixOf_iff_suffix]
  exact parts

/-- The order of files by their paths as texts. -/
def spelledBefore (directory : String) (a b : String × String) : Bool :=
  (compare (String.ofList (Command.relativePath directory a.1))
    (String.ofList (Command.relativePath directory b.1))).isLE

theorem spelledBefore_trans (directory : String) (a b c : String × String)
    (first : spelledBefore directory a b = true) (second : spelledBefore directory b c = true) :
    spelledBefore directory a c = true :=
  Std.TransCmp.isLE_trans first second

theorem spelledBefore_total (directory : String) (a b : String × String) :
    (spelledBefore directory a b || spelledBefore directory b a) = true := by
  unfold spelledBefore
  have swap : compare (String.ofList (Command.relativePath directory b.1))
      (String.ofList (Command.relativePath directory a.1)) =
      (compare (String.ofList (Command.relativePath directory a.1))
        (String.ofList (Command.relativePath directory b.1))).swap := Std.OrientedCmp.eq_swap
  rw [swap]
  cases compare (String.ofList (Command.relativePath directory a.1))
    (String.ofList (Command.relativePath directory b.1)) <;> rfl

/- A file that is called `.twee` ends like a script. -/
theorem endsInTwee_of_fileName (texts : t.TextsOnly directory) {file : String}
    (below : file ∈ t.filesBelow directory) (named : Path.fileName file = Command.scriptEnding) :
    endsInTwee file = true := by
  obtain ⟨content, read⟩ := texts file below
  rw [Path.fileName_of_proper (proper_of_read read)] at named
  have whole : Command.scriptEnding.toList = Path.lastPart file.toList := by
    rw [← named, String.toList_ofList]
  rw [endsInTwee, List.isSuffixOf_iff_suffix, Path.suffix_lastPart (by decide)]
  exact ⟨[], whole⟩

/- The same files are joined in the same order exactly if no file has the ending alone for a name, and the walk
   comes to the scripts in the order of their paths as texts. -/
theorem commandFiles_eq_iff (texts : t.TextsOnly directory) :
    t.commandFiles directory = t.scenarioFiles directory ↔
      (∀ file ∈ t.filesBelow directory, Path.fileName file ≠ Command.scriptEnding) ∧
        (t.scenarioFiles directory).Pairwise fun a b => spelledBefore directory a b = true := by
  have parts : (t.filesBelow directory).filter hasTwee =
      ((t.filesBelow directory).filter endsInTwee).filter fun file =>
        decide (Path.fileName file ≠ Command.scriptEnding) := by
    rw [List.filter_filter]
    refine List.filter_congr fun file below => ?_
    rw [Bool.eq_iff_iff, hasTwee_iff texts below, Bool.and_eq_true, decide_eq_true_eq, and_comm]
  constructor
  · intro same
    have lengths : ((t.filesBelow directory).filter endsInTwee).length =
        ((t.filesBelow directory).filter hasTwee).length := by
      have sorted := congrArg List.length same
      rw [commandFiles, Command.inPathOrder, List.length_mergeSort, scenarioFiles, textsBelow, textsBelow,
        List.length_map, List.length_map] at sorted
      exact sorted
    rw [parts] at lengths
    have named := List.length_filter_eq_length_iff.1 lengths.symm
    refine ⟨fun file below called => ?_, ?_⟩
    · have ends := endsInTwee_of_fileName texts below called
      exact of_decide_eq_true (named file (List.mem_filter.2 ⟨below, ends⟩)) called
    · rw [← same]
      exact List.pairwise_mergeSort (spelledBefore_trans directory) (spelledBefore_total directory) _
  · rintro ⟨named, ordered⟩
    have all : (t.filesBelow directory).filter endsInTwee = (t.filesBelow directory).filter hasTwee := by
      rw [parts]
      refine (List.filter_eq_self.2 fun file member => ?_).symm
      exact decide_eq_true (named file (List.mem_filter.1 member).1)
    have files : t.textsBelow directory endsInTwee = t.scenarioFiles directory := by
      rw [scenarioFiles, textsBelow, textsBelow, all]
    rw [commandFiles, files]
    exact List.mergeSort_of_pairwise ordered

/- What the two readers make of a directory of texts: each joins its files, or finds none; and they are the
   same files in the same order exactly if no file has the ending alone for a name, and the walk comes to
   the scripts in the order of their paths as texts. -/
theorem readers_agree_iff {script : String} {place : List String}
    (found : t.find (t.absolute script) = .ok place) (below : t.isDirectoryAt place = true)
    (texts : t.TextsOnly (t.absolute script)) :
    (Command.readScript (m := StateM FileTree) script t).1 =
        (match joined? (t.commandFiles (t.absolute script)) with
          | some source => .ok ⟨t.absolute script, source⟩
          | none => .error (.emptyScript (t.absolute script))) ∧
      (Scenario.readSource (m := StateM FileTree) (t.absolute script) t).1 =
        (match joined? (t.scenarioFiles (t.absolute script)) with
          | some source => .ok source
          | none => .error (.noScripts (t.absolute script))) ∧
      (t.commandFiles (t.absolute script) = t.scenarioFiles (t.absolute script) ↔
        (∀ file ∈ t.filesBelow (t.absolute script), Path.fileName file ≠ Command.scriptEnding) ∧
          (t.scenarioFiles (t.absolute script)).Pairwise fun a b =>
            spelledBefore (t.absolute script) a b = true) :=
  ⟨readScript_of_texts found below texts, readSource_of_texts texts, commandFiles_eq_iff texts⟩

theorem textsOnly_of_all (texts : ((t.filesBelow directory).all fun file => (t.read file).isOk) = true) :
    t.TextsOnly directory := by
  intro file below
  have readable := List.all_eq_true.1 texts file below
  cases read : t.read file with
  | ok content => exact ⟨content, rfl⟩
  | error obstacle =>
    rw [read] at readable
    cases readable

/-- A story in parts, one of which lies in a folder. -/
def inParts : FileTree := ⟨"/story", Table.ofList [(["1-a.twee"], .text ":: A-Round-1 [initial_contact]\nHi\n"),
  (["2-b"], .directory), (["2-b", "b.twee"], .text ":: B-Round-1 [chat]\nHello.\n")]⟩

/- The equivalence, for a story on which the readers agree. -/
theorem readers_agree_inParts : ∃ place, inParts.find (inParts.absolute ".") = .ok place ∧
    inParts.isDirectoryAt place = true ∧ inParts.TextsOnly (inParts.absolute ".") ∧
    (Command.readScript (m := StateM FileTree) "." inParts).1.toOption.map (·.source) =
      (Scenario.readSource (m := StateM FileTree) (inParts.absolute ".") inParts).1.toOption ∧
    (Scenario.readSource (m := StateM FileTree) (inParts.absolute ".") inParts).1.toOption =
      some ":: A-Round-1 [initial_contact]\nHi\n\n:: B-Round-1 [chat]\nHello.\n" := by
  have found : inParts.find (inParts.absolute ".") = .ok [] := rfl
  have below : inParts.isDirectoryAt [] = true := by decide
  have texts : inParts.TextsOnly (inParts.absolute ".") := textsOnly_of_all (by decide +kernel)
  have walked : (Scenario.readSource (m := StateM FileTree) (inParts.absolute ".") inParts).1.toOption =
      some ":: A-Round-1 [initial_contact]\nHi\n\n:: B-Round-1 [chat]\nHello.\n" := by decide +kernel
  obtain ⟨command, scenario, agree⟩ := readers_agree_iff found below texts
  have same := agree.2 (by decide +kernel)
  refine ⟨[], found, below, texts, ?_, walked⟩
  rw [command, scenario, same]
  cases joined? (inParts.scenarioFiles (inParts.absolute ".")) <;> rfl

/-- A story with a script beside a folder of the same name. -/
def besideFolder : FileTree := ⟨"/story", Table.ofList [
  (["a.twee"], .text ":: B-Round-1 [initial_contact]\nB here.\n"), (["a"], .directory),
  (["a", "x.twee"], .text ":: A-Round-1 [initial_contact]\nA here.\n")]⟩

/- The walk comes to the folder first, as its name is the shorter one; but a point comes before a slash. So
   the command puts the script first that the scenario puts last, and another contact opens the story. -/
theorem readers_differ_besideFolder :
    (Command.readScript (m := StateM FileTree) "." besideFolder).1.toOption.map (·.source) =
      some (":: B-Round-1 [initial_contact]\nB here.\n\n" ++ ":: A-Round-1 [initial_contact]\nA here.\n") ∧
    (Scenario.readSource (m := StateM FileTree) (besideFolder.absolute ".") besideFolder).1.toOption =
      some (":: A-Round-1 [initial_contact]\nA here.\n\n" ++ ":: B-Round-1 [initial_contact]\nB here.\n") := by
  have found : besideFolder.find (besideFolder.absolute ".") = .ok [] := rfl
  have texts : besideFolder.TextsOnly (besideFolder.absolute ".") := textsOnly_of_all (by decide +kernel)
  have files : besideFolder.textsBelow (besideFolder.absolute ".") endsInTwee =
    [("/story/./a/x.twee", ":: A-Round-1 [initial_contact]\nA here.\n"),
      ("/story/./a.twee", ":: B-Round-1 [initial_contact]\nB here.\n")] := by decide +kernel
  have sorted : besideFolder.commandFiles (besideFolder.absolute ".") =
    [("/story/./a.twee", ":: B-Round-1 [initial_contact]\nB here.\n"),
      ("/story/./a/x.twee", ":: A-Round-1 [initial_contact]\nA here.\n")] := by
    have behind : spelledBefore (besideFolder.absolute ".")
        ("/story/./a/x.twee", ":: A-Round-1 [initial_contact]\nA here.\n")
        ("/story/./a.twee", ":: B-Round-1 [initial_contact]\nB here.\n") = false := by decide +kernel
    rw [commandFiles, files, Command.inPathOrder]
    change [_, _].mergeSort (spelledBefore _) = _
    rw [mergeSort_pair, behind]
    rfl
  constructor
  · rw [readScript_of_texts found (by decide) texts, sorted]
    rfl
  · decide +kernel

end FileTree
end ChatStory
