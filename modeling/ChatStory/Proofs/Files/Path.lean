import ChatStory.Files.Tree
import ChatStory.Proofs.Separators

/-!
The last component of a path. A file that can be read has a last component of its own, so its name and its
extension are those of the path as it is spelled.
-/
namespace ChatStory

namespace Path

/-- What stands behind the last slash. -/
def lastPart (cs : List Char) : List Char := ((Text.cutLast ['/'] cs).map (·.2)).getD cs

theorem lastPart_of_absent {cs : List Char} (absent : '/' ∉ cs) : lastPart cs = cs := by
  rw [lastPart, Text.cutLast_of_absent absent]
  rfl

theorem lastPart_append (before : List Char) {after : List Char} (absent : '/' ∉ after) :
    lastPart (before ++ '/' :: after) = after := by
  rw [lastPart, Text.cutLast_append before absent]
  rfl

/- What stands before a slash does not matter. -/
theorem lastPart_behind (before after : List Char) : lastPart (before ++ '/' :: after) = lastPart after := by
  rcases Text.exists_last '/' after with absent | ⟨front, last, rfl, absent⟩
  · rw [lastPart_append before absent, lastPart_of_absent absent]
  · rw [lastPart_append front absent, ← List.cons_append, ← List.append_assoc,
      lastPart_append _ absent]

theorem splitAt_eq_concat (cs : List Char) : ∃ front, Text.splitAt '/' cs = front ++ [lastPart cs] := by
  rcases Text.exists_last '/' cs with absent | ⟨before, after, rfl, absent⟩
  · exact ⟨[], by rw [Text.splitAt_of_absent absent, lastPart_of_absent absent, List.nil_append]⟩
  · exact ⟨Text.splitAt '/' before, by
      rw [Text.splitAt_append, Text.splitAt_of_absent absent, lastPart_append before absent]⟩

/- A text without slashes stands at the end of a path if it stands at the end of the last component. -/
theorem suffix_lastPart {ending cs : List Char} (plain : '/' ∉ ending) :
    ending <:+ cs ↔ ending <:+ lastPart cs := by
  rcases Text.exists_last '/' cs with absent | ⟨before, after, rfl, absent⟩
  · rw [lastPart_of_absent absent]
  · rw [lastPart_append before absent]
    constructor
    · intro ends
      rcases List.suffix_or_suffix_of_suffix ends (List.suffix_append before ('/' :: after)) with short | long
      · rcases List.suffix_cons_iff.1 short with whole | within
        · exact absurd (whole ▸ List.mem_cons_self) plain
        · exact within
      · exact absurd (long.subset List.mem_cons_self) plain
    · intro ends
      exact ends.trans ((List.suffix_cons '/' after).trans (List.suffix_append before _))

theorem eq_front_append (cs : List Char) : '/' ∉ lastPart cs ∧ ∃ front, cs = front ++ lastPart cs := by
  rcases Text.exists_last '/' cs with absent | ⟨before, after, rfl, absent⟩
  · rw [lastPart_of_absent absent]
    exact ⟨absent, [], rfl⟩
  · rw [lastPart_append before absent]
    exact ⟨absent, before ++ ['/'], by simp⟩

theorem dropSlashes_of_proper {cs : List Char} (proper : isStay (lastPart cs) = false) :
    dropSlashes cs = cs := by
  obtain ⟨plain, front, whole⟩ := eq_front_append cs
  cases ends : (lastPart cs).reverse with
  | nil =>
    rw [List.reverse_eq_nil_iff.1 ends] at proper
    cases proper
  | cons c rest =>
    have other : c ≠ '/' := by
      rintro rfl
      exact plain (List.mem_reverse.1 (ends ▸ List.mem_cons_self))
    have reversed : cs.reverse = c :: (rest ++ front.reverse) := by
      rw [whole, List.reverse_append, ends, List.cons_append]
    rw [dropSlashes, reversed, List.dropWhile_cons_of_neg (by simpa using other), ← reversed,
      List.reverse_reverse]

/- A path with a last component of its own is named by it. -/
theorem fileName_of_proper {path : String} (proper : isStay (lastPart path.toList) = false) :
    fileName path = String.ofList (lastPart path.toList) := by
  have spelled : ∀ bound, dropStays bound path.toList = path.toList := by
    intro bound
    cases bound with
    | zero => rfl
    | succ bound =>
      unfold dropStays
      rw [dropSlashes_of_proper proper]
      dsimp only
      split
      · rename_i before stays
        have here : lastPart path.toList = ['.'] := by rw [lastPart, stays]; rfl
        rw [here] at proper
        cases proper
      · rfl
  rw [fileName, spelled]
  rfl

/- Where the last component is proper, a path ends in a point and some text without points if it has that text
   for an extension, or if the point and the text are its whole name. -/
theorem extension_iff {path : String} (proper : isStay (lastPart path.toList) = false) {ending : List Char}
    (plain : '/' ∉ ending) (pointless : '.' ∉ ending) :
    extension? path = some (String.ofList ending) ↔
      '.' :: ending <:+ path.toList ∧ fileName path ≠ String.ofList ('.' :: ending) := by
  have slashless : '/' ∉ '.' :: ending := List.not_mem_cons_of_ne_of_not_mem (by decide) plain
  rw [suffix_lastPart slashless, extension?, fileName_of_proper proper, String.toList_ofList,
    ne_eq, String.ofList_inj]
  rcases Text.exists_last '.' (lastPart path.toList) with absent | ⟨stem, after, last, absent⟩
  · rw [Text.cutLast_of_absent absent]
    simp only [reduceCtorEq, false_iff, not_and]
    exact fun ends => absurd (ends.subset List.mem_cons_self) absent
  · have ends : '.' :: ending <:+ stem ++ '.' :: after ↔ after = ending := by
      constructor
      · rintro ⟨front, same⟩
        have cut := Text.cutLast_append front pointless
        rw [same, Text.cutLast_append stem absent] at cut
        exact congrArg Prod.snd (Option.some.inj cut)
      · rintro rfl
        exact List.suffix_append stem _
    rw [last, Text.cutLast_append stem absent, ends]
    cases stem with
    | nil =>
      refine iff_of_false nofun fun ⟨same, more⟩ => more ?_
      rw [same, List.nil_append]
    | cons c rest =>
      have longer : after = ending → (c :: rest) ++ '.' :: after ≠ '.' :: ending := by
        rintro rfl same
        have lengths := congrArg List.length same
        simp only [List.length_append, List.length_cons] at lengths
        omega
      dsimp only
      rw [Option.some_inj, String.ofList_inj]
      exact ⟨fun same => ⟨same, longer same⟩, And.left⟩

end Path

namespace FileTree

open ChatStory.Path (lastPart)

variable {t : FileTree} {path : String}

theorem follow_concat (t : FileTree) (place steps : List String) (last : String) :
    t.follow place (steps ++ [last]) = (t.follow place steps).bind (t.follow · [last]) := by
  induction steps generalizing place with
  | nil => rfl
  | cons step rest ih =>
    rw [List.cons_append, follow, follow]
    split
    · rfl
    · split
      · exact ih _
      · split
        · exact ih _
        · split
          · exact ih _
          · rfl

/- The steps of a path that does not stand for the root end with its last component. -/
theorem steps_concat {steps : List String} (found : t.steps path = .ok steps) :
    steps = [] ∨ ∃ front, steps = front ++ [String.ofList (lastPart path.toList)] := by
  have split : ∀ cs : List Char, lastPart cs = lastPart path.toList → ∃ front,
      (Text.splitAt '/' cs).map String.ofList = front ++ [String.ofList (lastPart path.toList)] := by
    intro cs same
    obtain ⟨front, whole⟩ := Path.splitAt_eq_concat cs
    exact ⟨front.map String.ofList, by rw [whole, List.map_append, same]; rfl⟩
  unfold FileTree.steps at found
  dsimp only at found
  split at found
  · cases found
  · split at found
    · cases found
    · split at found
      · split at found
        · cases found
          exact .inl rfl
        · rename_i rest below
          cases found
          refine .inr (split rest ?_)
          rw [← List.take_append_drop t.root.toList.length path.toList, String.length_toList, below,
            Path.lastPart_behind]
        · cases found
          exact .inr (split _ rfl)
      · split at found
        · cases found
        · cases found
          exact .inr (split _ rfl)

/- What can be read is a file, and its path does not end in what only a directory allows. -/
theorem proper_of_read {content : String} (read : t.read path = .ok content) :
    Path.isStay (lastPart path.toList) = false := by
  cases found : t.find path with
  | error obstacle =>
    rw [FileTree.read, found] at read
    cases read
  | ok place =>
    have file : t.isDirectoryAt place = false := by
      rw [isDirectoryAt, decide_eq_false_iff_not]
      intro directory
      have blocked : t.read path = .error .blocked := by
        rw [FileTree.read, found]
        dsimp only [bind, Except.bind]
        rw [directory]
      rw [blocked] at read
      cases read
    cases way : t.steps path with
    | error obstacle =>
      rw [FileTree.find, way] at found
      cases found
    | ok steps =>
      have reached : t.follow [] steps = .ok place := by
        rw [FileTree.find, way] at found
        exact found
      rcases steps_concat way with rfl | ⟨front, rfl⟩
      · cases reached
        cases file
      · rw [follow_concat] at reached
        cases before : t.follow [] front with
        | error obstacle =>
          rw [before] at reached
          cases reached
        | ok directory =>
          rw [before] at reached
          cases stays : Path.isStay (lastPart path.toList) with
          | false => rfl
          | true =>
            simp only [Except.bind, follow, String.toList_ofList, stays, if_true] at reached
            split at reached
            · cases reached
            · rename_i allowed
              cases reached
              rw [allows, file] at allowed
              exact absurd rfl allowed

end FileTree
end ChatStory
