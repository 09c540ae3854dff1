import ChatStory.Proofs.Files.Script
import Mathlib.Data.List.Pairwise

/-!
The order of a walk and the order of paths as texts. Both go by the first name in which two paths differ, with
one exception: where one of the names goes on from the other one, which is that of a folder, a walk comes to the
folder first, and in a text the slash behind it is compared with the character that goes on.
-/
namespace ChatStory

namespace Path

/-- Where a walk comes to one path before another one, and the texts are the other way round: the name of a folder
on the way to the first goes on in the name beside it, with a character before the slash. -/
def Crosses (a b : List String) : Prop :=
  ∃ front x y rest others c more, a = front ++ x :: rest ∧ rest ≠ [] ∧ b = front ++ y :: others ∧
    y.toList = x.toList ++ c :: more ∧ c < '/'

/-- Names that go into paths as they are. -/
def Plain (names : List String) : Prop :=
  ∀ name ∈ names, name ≠ "" ∧ '/' ∉ name.toList ∧ '\\' ∉ name.toList

/-- Names as one text. -/
def spell (names : List String) : List Char := ['/'].intercalate (names.map String.toList)

theorem compare_lt_iff (x y : String) : compare x y = .lt ↔ x.toList < y.toList := by
  change compareOfLessAndEq x y = .lt ↔ _
  unfold compareOfLessAndEq
  split
  · rename_i less
    exact iff_of_true rfl less
  · rename_i less
    split <;> exact iff_of_false nofun less

theorem compare_cons (x y : String) (r s : List String) :
    compare (x :: r) (y :: s) = (compare x y).then (compare r s) := by
  rw [List.compare_eq_compareLex, List.compareLex_cons_cons]

/- A text before another one is the front of it, or has a lesser character where they differ first. -/
theorem front_or_differ {x y : List Char} (before : x < y) : (∃ c more, y = x ++ c :: more) ∨
    ∃ front p xs q ys, x = front ++ p :: xs ∧ y = front ++ q :: ys ∧ p < q := by
  induction x generalizing y with
  | nil =>
    cases y with
    | nil => exact absurd before (List.not_lt_nil _)
    | cons c more => exact .inl ⟨c, more, rfl⟩
  | cons p xs ih =>
    cases y with
    | nil => exact absurd before (List.not_lt_nil _)
    | cons q ys =>
      rcases List.cons_lt_cons_iff.1 before with less | ⟨rfl, rest⟩
      · exact .inr ⟨[], p, xs, q, ys, rfl, rfl, less⟩
      · rcases ih rest with ⟨c, more, rfl⟩ | ⟨front, a, as, b, bs, rfl, rfl, less⟩
        · exact .inl ⟨c, more, rfl⟩
        · exact .inr ⟨p :: front, a, as, b, bs, rfl, rfl, less⟩

theorem append_lt_iff (front : List Char) {a b : List Char} : front ++ a < front ++ b ↔ a < b := by
  induction front with
  | nil => rfl
  | cons c rest ih => simp [ih]

theorem not_lt_of_differ (front : List Char) {p q : Char} (less : p < q) (xs ys : List Char) :
    ¬front ++ q :: ys < front ++ p :: xs := by
  rw [append_lt_iff, List.cons_lt_cons_iff]
  rintro (other | ⟨same, _⟩)
  · exact Char.lt_asymm less other
  · exact Char.lt_irrefl _ (same ▸ less)

theorem spell_cons (x : String) {rest : List String} (more : rest ≠ []) :
    spell (x :: rest) = x.toList ++ '/' :: spell rest := by
  obtain ⟨y, others, rfl⟩ := List.exists_cons_of_ne_nil more
  simp [spell, List.intercalate_cons_cons]

theorem spell_single (x : String) : spell [x] = x.toList := by
  simp [spell]

/- What is behind the first name. -/
theorem exists_spell_cons (x : String) (rest : List String) : ∃ tail, spell (x :: rest) = x.toList ++ tail := by
  by_cases more : rest = []
  · rw [more, spell_single]
    exact ⟨[], (List.append_nil _).symm⟩
  · exact ⟨_, spell_cons x more⟩

theorem mem_spell {names : List String} {c : Char} (member : c ∈ spell names) :
    c = '/' ∨ ∃ name ∈ names, c ∈ name.toList := by
  induction names with
  | nil => cases member
  | cons x rest ih =>
    by_cases none : rest = []
    · rw [none, spell_single] at member
      exact .inr ⟨x, List.mem_cons_self, member⟩
    · rw [spell_cons x none] at member
      rcases List.mem_append.1 member with first | behind
      · exact .inr ⟨x, List.mem_cons_self, first⟩
      · rcases List.mem_cons.1 behind with slash | later
        · exact .inl slash
        · refine (ih later).imp_right ?_
          rintro ⟨name, within, own⟩
          exact ⟨name, List.mem_cons_of_mem x within, own⟩

theorem crosses_cons (x : String) (r s : List String) : Crosses (x :: r) (x :: s) ↔ Crosses r s := by
  constructor
  · rintro ⟨front, y, z, rest, others, c, more, first, some, second, goes, less⟩
    cases front with
    | nil =>
      obtain ⟨rfl, rfl⟩ := List.cons.inj first
      obtain ⟨rfl, rfl⟩ := List.cons.inj second
      have lengths := congrArg List.length goes
      simp only [List.length_append, List.length_cons] at lengths
      omega
    | cons w front =>
      exact ⟨front, y, z, rest, others, c, more, (List.cons.inj first).2, some, (List.cons.inj second).2, goes,
        less⟩
  · rintro ⟨front, y, z, rest, others, c, more, rfl, some, rfl, goes, less⟩
    exact ⟨x :: front, y, z, rest, others, c, more, rfl, some, rfl, goes, less⟩

theorem crosses_of_ne {x y : String} (differ : x ≠ y) (r s : List String) : Crosses (x :: r) (y :: s) ↔
    r ≠ [] ∧ ∃ c more, y.toList = x.toList ++ c :: more ∧ c < '/' := by
  constructor
  · rintro ⟨front, v, w, rest, others, c, more, first, some, second, goes, less⟩
    cases front with
    | nil =>
      obtain ⟨rfl, rfl⟩ := List.cons.inj first
      obtain ⟨rfl, rfl⟩ := List.cons.inj second
      exact ⟨some, c, more, goes, less⟩
    | cons z front => exact absurd ((List.cons.inj first).1.trans (List.cons.inj second).1.symm) differ
  · rintro ⟨some, c, more, goes, less⟩
    exact ⟨[], x, y, r, s, c, more, rfl, some, rfl, goes, less⟩

/- Where one name comes before another one, it depends on these names how the paths are spelled. -/
theorem spell_lt_of_names {x y : String} (names : x.toList < y.toList) (slashless : '/' ∉ y.toList)
    (r s : List String) : spell (y :: s) < spell (x :: r) ↔ Crosses (x :: r) (y :: s) := by
  have differ : x ≠ y := by
    rintro rfl
    exact List.lt_irrefl _ names
  obtain ⟨tail, second⟩ := exists_spell_cons y s
  rw [crosses_of_ne differ, second]
  rcases front_or_differ names with ⟨c, more, goes⟩ | ⟨front, p, xs, q, ys, first, other, less⟩
  · rw [goes, List.append_assoc]
    by_cases none : r = []
    · rw [none, spell_single]
      refine iff_of_false (fun shorter => ?_) fun some => some.1 rfl
      rw [← List.append_nil x.toList, List.append_assoc, append_lt_iff] at shorter
      exact List.not_lt_nil _ shorter
    · have noslash : c ≠ '/' := by
        rintro rfl
        exact slashless (goes ▸ List.mem_append_right _ List.mem_cons_self)
      rw [spell_cons x none, append_lt_iff, List.cons_append, List.cons_lt_cons_iff]
      constructor
      · rintro (less | ⟨same, _⟩)
        · exact ⟨none, c, more, rfl, less⟩
        · exact absurd same noslash
      · rintro ⟨_, d, rest, same, less⟩
        rw [(List.cons.inj (List.append_cancel_left same)).1]
        exact .inl less
  · obtain ⟨behind, whole⟩ := exists_spell_cons x r
    rw [whole, first, other, List.append_assoc, List.append_assoc]
    refine iff_of_false (not_lt_of_differ front less _ _) ?_
    rintro ⟨_, c, more, same, _⟩
    rw [List.append_assoc] at same
    exact Char.lt_irrefl _ ((List.cons.inj (List.append_cancel_left same)).1 ▸ less)

theorem compare_of_crosses {a b : List String} (crosses : Crosses a b) : compare a b = .lt := by
  obtain ⟨front, x, y, rest, others, c, more, rfl, _, rfl, goes, _⟩ := crosses
  induction front with
  | nil =>
    have names : compare x y = .lt := by
      rw [compare_lt_iff, goes]
      have shorter : x.toList ++ [] < x.toList ++ c :: more := List.append_left_lt (List.nil_lt_cons c more)
      rw [List.append_nil] at shorter
      exact shorter
    rw [List.nil_append, List.nil_append, compare_cons, names]
    rfl
  | cons z front ih =>
    have same : compare z z = .eq := Std.ReflCmp.compare_self
    rw [List.cons_append, List.cons_append, compare_cons, same]
    exact ih

/- Of two paths of which a walk comes to the first before, the second comes before as a text exactly where
   they cross. -/
theorem spell_lt_iff {a b : List String} (walked : compare a b = .lt) (plain : Plain b) :
    spell b < spell a ↔ Crosses a b := by
  induction a generalizing b with
  | nil =>
    refine iff_of_false (List.not_lt_nil _) ?_
    rintro ⟨front, x, y, rest, others, c, more, none, _⟩
    exact List.append_ne_nil_of_right_ne_nil front (List.cons_ne_nil x rest) none.symm
  | cons x r ih =>
    cases b with
    | nil => cases walked
    | cons y s =>
      obtain ⟨⟨_, slashless, _⟩, others⟩ := List.forall_mem_cons.1 plain
      rw [compare_cons] at walked
      cases names : compare x y with
      | gt =>
        rw [names] at walked
        cases walked
      | eq =>
        obtain rfl := Std.LawfulEqCmp.eq_of_compare names
        rw [names] at walked
        have rests : compare r s = .lt := walked
        rw [crosses_cons, ← ih rests others]
        have some : s ≠ [] := by
          rintro rfl
          cases r <;> cases rests
        by_cases none : r = []
        · subst none
          rw [spell_single, spell_cons x some]
          refine iff_of_false (fun shorter => ?_) (List.not_lt_nil _)
          rw [← List.append_nil x.toList, List.append_assoc, append_lt_iff] at shorter
          exact List.not_lt_nil _ shorter
        · rw [spell_cons x none, spell_cons x some, append_lt_iff, List.cons_lt_cons_iff]
          simp
      | lt => exact spell_lt_of_names ((compare_lt_iff x y).1 names) slashless r s

example : Crosses ["a", "x.twee"] ["a.twee"] :=
  ⟨[], "a", "a.twee", ["x.twee"], [], '.', "twee".toList, rfl, nofun, rfl, rfl, by decide⟩

/- Below a directory, a path is spelled as its names are. -/
theorem relativePath_join (directory : String) {names : List String} (some : names ≠ [])
    (plain : Plain names) :
    Command.relativePath directory (join directory ("/".intercalate names)) = spell names := by
  obtain ⟨name, rest, rfl⟩ := List.exists_cons_of_ne_nil some
  have spelled : ("/".intercalate (name :: rest)).toList = spell (name :: rest) := String.toList_intercalate
  obtain ⟨tail, first⟩ := exists_spell_cons name rest
  obtain ⟨⟨named, slashless, _⟩, _⟩ := List.forall_mem_cons.1 plain
  obtain ⟨c, more, begins⟩ : ∃ c more, name.toList = c :: more :=
    List.exists_cons_of_ne_nil fun empty => named (String.toList_inj.1 empty)
  have other : c ≠ '/' := by
    rintro rfl
    exact slashless (begins ▸ List.mem_cons_self)
  have head : spell (name :: rest) = c :: (more ++ tail) := by rw [first, begins, List.cons_append]
  have straight : ∀ d ∈ spell (name :: rest), (if d == '\\' then '/' else d) = d := by
    intro d member
    refine if_neg fun back => ?_
    rw [beq_iff_eq] at back
    subst back
    rcases mem_spell member with slash | ⟨other, within, own⟩
    · cases slash
    · exact (plain other within).2.2 own
  have same : (spell (name :: rest)).map (fun d => if d == '\\' then '/' else d) = spell (name :: rest) :=
    (List.map_congr_left straight).trans (List.map_id _)
  have stops : (c :: (more ++ tail)).dropWhile (· == '/') = c :: (more ++ tail) :=
    List.dropWhile_cons_of_neg (by simpa using other)
  unfold Command.relativePath join
  rw [spelled, head, List.head?_cons, if_neg (by simpa using other)]
  rw [head] at spelled same
  split
  · rw [String.toList_append, spelled, ← String.length_toList, List.drop_left, stops]
    exact same
  · rw [String.toList_append, String.toList_append, spelled, ← String.length_toList, List.append_assoc,
      List.drop_left]
    change List.map _ (List.dropWhile _ ('/' :: c :: (more ++ tail))) = _
    rw [List.dropWhile_cons_of_pos rfl, stops]
    exact same

end Path

namespace FileTree

open ChatStory.Path (Crosses Plain)

variable {t : FileTree} {directory : String} {place : List String}

/-- The names that lead from a place to the files below it, in the order of a walk. -/
def namesBelow (t : FileTree) (place : List String) : List (List String) :=
  t.nodes.toList.filterMap fun (key, node) =>
    if place.isPrefixOf key && node != .directory then some (key.drop place.length) else none

theorem filesBelow_eq (found : t.find directory = .ok place) (below : t.isDirectoryAt place = true) :
    t.filesBelow directory =
      (t.namesBelow place).map fun names => Path.join directory ("/".intercalate names) := by
  unfold filesBelow namesBelow
  rw [found, List.map_filterMap]
  dsimp only
  rw [if_pos below]
  congr 1
  funext ⟨key, node⟩
  dsimp only
  split <;> rfl

theorem compare_append (front a b : List String) : compare (front ++ a) (front ++ b) = compare a b := by
  induction front with
  | nil => rfl
  | cons x rest ih =>
    have same : compare x x = .eq := Std.ReflCmp.compare_self
    rw [List.cons_append, List.cons_append, Path.compare_cons, same]
    exact ih

theorem namesBelow_ascending (t : FileTree) (place : List String) :
    (t.namesBelow place).Pairwise fun a b => compare a b = .lt := by
  have split : ∀ {key a : List String} {node : FileNode},
      (if place.isPrefixOf key && node != .directory then some (key.drop place.length) else none) = some a →
      key = place ++ a := by
    intro key a node found
    split at found
    · rename_i both
      obtain ⟨rest, rfl⟩ := List.isPrefixOf_iff_prefix.1 (Bool.and_eq_true_iff.1 both).1
      rw [List.drop_left] at found
      cases found
      rfl
    · cases found
  refine List.pairwise_filterMap.2 (t.nodes.ascending.imp ?_)
  rintro ⟨key, node⟩ ⟨other, last⟩ walked a first b second
  rw [split first, split second, compare_append] at walked
  exact walked

/-- The names that lead to the scripts of a scenario. -/
def scriptNames (t : FileTree) (directory : String) (place : List String) : List (List String) :=
  (t.namesBelow place).filter fun names => hasTwee (Path.join directory ("/".intercalate names))

theorem spelledBefore_iff {a b : List String} (first : a ≠ [] ∧ Plain a) (second : b ≠ [] ∧ Plain b)
    (walked : compare a b = .lt) (x y : String) :
    spelledBefore directory (Path.join directory ("/".intercalate a), x)
      (Path.join directory ("/".intercalate b), y) = true ↔ ¬Crosses a b := by
  have swap : compare (String.ofList (Path.spell a)) (String.ofList (Path.spell b)) =
      (compare (String.ofList (Path.spell b)) (String.ofList (Path.spell a))).swap := Std.OrientedCmp.eq_swap
  have texts := Path.compare_lt_iff (String.ofList (Path.spell b)) (String.ofList (Path.spell a))
  rw [String.toList_ofList, String.toList_ofList, Path.spell_lt_iff walked second.2] at texts
  rw [spelledBefore, Path.relativePath_join directory first.1 first.2,
    Path.relativePath_join directory second.1 second.2, swap, ← texts]
  cases compare (String.ofList (Path.spell b)) (String.ofList (Path.spell a)) <;> decide

/- Where names have no slashes in them, the readers agree on a directory exactly if no file has the ending alone
   for a name, and no folder on the way to a script goes on, beside it, in a name on the way to another script
   with a character that comes before the slash. -/
theorem commandFiles_eq_iff_of_plain (found : t.find directory = .ok place)
    (below : t.isDirectoryAt place = true) (texts : t.TextsOnly directory)
    (plain : ∀ names ∈ t.namesBelow place, names ≠ [] ∧ Plain names) :
    t.commandFiles directory = t.scenarioFiles directory ↔
      (∀ file ∈ t.filesBelow directory, Path.fileName file ≠ Command.scriptEnding) ∧
        ∀ a ∈ t.scriptNames directory place, ∀ b ∈ t.scriptNames directory place, ¬Crosses a b := by
  have files : t.scenarioFiles directory = (t.scriptNames directory place).map fun names =>
      (Path.join directory ("/".intercalate names),
        t.contentOf (Path.join directory ("/".intercalate names))) := by
    unfold scenarioFiles textsBelow scriptNames
    rw [filesBelow_eq found below, List.filter_map, List.map_map]
    simp only [Function.comp_def]
  have ascending : (t.scriptNames directory place).Pairwise fun a b => compare a b = .lt :=
    (namesBelow_ascending t place).filter _
  have named : ∀ names ∈ t.scriptNames directory place, names ≠ [] ∧ Plain names :=
    fun names member => plain names (List.mem_filter.1 member).1
  rw [commandFiles_eq_iff texts, files, List.pairwise_map]
  refine and_congr_right fun _ => ⟨fun ordered => ?_, fun apart => ?_⟩
  · have both : (t.scriptNames directory place).Pairwise fun a b => ¬Crosses a b ∧ ¬Crosses b a := by
      refine (ascending.and ordered).imp_of_mem fun {a b} first second ⟨walked, before⟩ => ⟨?_, fun back => ?_⟩
      · exact (spelledBefore_iff (named a first) (named b second) walked _ _).1 before
      · have again : compare b a = .lt := Path.compare_of_crosses back
        have swap : compare b a = (compare a b).swap := Std.OrientedCmp.eq_swap
        rw [swap, walked] at again
        cases again
    have alone : ∀ a, ¬Crosses a a := by
      intro a crosses
      have walked := Path.compare_of_crosses crosses
      have same : compare a a = .eq := Std.ReflCmp.compare_self
      rw [same] at walked
      cases walked
    have symm : Std.Symm fun a b : List String => ¬Crosses a b ∧ ¬Crosses b a := ⟨fun _ _ => And.symm⟩
    intro a first b second
    exact (both.forall_of_forall (fun a _ => ⟨alone a, alone a⟩) first second).1
  · refine ascending.imp_of_mem fun {a b} first second walked => ?_
    exact (spelledBefore_iff (named a first) (named b second) walked _ _).2 (apart a first b second)

end FileTree
end ChatStory
