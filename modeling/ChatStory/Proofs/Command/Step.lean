import ChatStory.Command.Run
import ChatStory.Proofs.Files.Script

/-!
How a command takes a step in a saved story. The story and its script are read, which leaves all files as they
are; the session goes on from what was saved, delivers what waits, takes the step, and delivers what came of it;
only what is saved at the end changes a file.
-/
namespace ChatStory

namespace FileTree

variable {α β : Type} {x : StateM FileTree α} {t u : FileTree}

theorem read_of_node {path content : String} {place : List String} (found : t.find path = .ok place)
    (node : t.node? place = some (.text content)) : t.read path = .ok content := by
  rw [FileTree.read, found]
  dsimp only [bind, Except.bind]
  rw [node]

/-- A program that leaves the files as they are. -/
def Reads (x : StateM FileTree α) : Prop := ∀ t, (x t).2 = t

theorem reads_pure (a : α) : Reads (pure a) := fun _ => rfl

theorem run_of_reads (reads : Reads x) (t : FileTree) : x t = ((x t).1, t) := Prod.ext rfl (reads t)

theorem reads_bind (first : Reads x) {rest : α → StateM FileTree β} (then_ : ∀ a, Reads (rest a)) :
    Reads (x >>= rest) := by
  intro t
  rw [bind_of_run (run_of_reads first t)]
  exact then_ _ t

theorem reads_read (path : String) : Reads (Files.read path) := fun _ => rfl

theorem reads_readAll (paths : List String) : Reads (Files.readAll paths) := by
  induction paths with
  | nil => exact reads_pure _
  | cons path rest ih =>
    refine reads_bind (reads_read path) fun result => ?_
    cases result with
    | error obstacle => exact reads_pure _
    | ok content => exact reads_bind ih fun _ => reads_pure _

theorem reads_readDirectory (directory : String) : Reads (Command.readDirectory directory) := by
  refine reads_bind (x := Files.filesBelow directory) (fun _ => rfl) fun files => ?_
  refine reads_bind (reads_readAll _) fun result => ?_
  cases result with
  | error path => exact reads_pure _
  | ok contents =>
    dsimp only
    split <;> exact reads_pure _

theorem reads_readScript (script : String) : Reads (Command.readScript script) := by
  refine reads_bind (x := Files.absolute script) (fun _ => rfl) fun path => ?_
  refine reads_bind (x := Files.isPresent path) (fun _ => rfl) fun present => ?_
  cases present with
  | false => exact reads_pure _
  | true =>
    refine reads_bind (x := Files.isDirectory path) (fun _ => rfl) fun directory => ?_
    cases directory with
    | true => exact reads_bind (reads_readDirectory path) fun _ => reads_pure _
    | false =>
      refine reads_bind (reads_read path) fun result => ?_
      cases result <;> exact reads_pure _

theorem reads_loadPlayer (path : String) : Reads (Command.loadPlayer path) := by
  refine reads_bind (reads_read path) fun result => ?_
  rcases result with obstacle | document
  · cases obstacle <;> exact reads_pure _
  · exact reads_pure _

end FileTree

namespace Command

open FileTree

/-- What a command does in a saved story. -/
structure Deed where
  stateIn : String
  stateOut : String
  step : Session → Except Fault Session

/-- What is done in a saved story, by the commands that take a step in one. -/
def deed? (now : Nat) : Command → Option Deed
  | .choose stateIn contact choice stateOut => some ⟨stateIn, stateOut, fun s =>
      match s.choose contact choice now with
      | some after => .ok after
      | none => .error (.rejectedChoice choice contact)⟩
  | .setVariable stateIn name value stateOut => some ⟨stateIn, stateOut, fun s =>
      .ok (s.setVariable name (.ofLiteral value.toList) now)⟩
  | _ => none

/- The state of a player is what the document in its file says. -/
theorem loadPlayer_eq (path : String) (t : FileTree) : (loadPlayer (m := StateM FileTree) path t).1 =
    match t.read path with
    | .error .missing => .error (.missingState path)
    | .error .blocked => .error (.unreadableState path)
    | .ok document => Player.decode path document := by
  have read : Files.read (m := StateM FileTree) path t = (t.read path, t) := rfl
  rw [loadPlayer, bind_of_run read]
  rcases t.read path with obstacle | document
  · cases obstacle <;> rfl
  · rfl

variable {t u : FileTree} {now : Nat} {command : Command} {deed : Deed} {lines : List String}

theorem run_of_deed (acts : deed? now command = some deed) :
    run (m := StateM FileTree) now command = runStep deed.stateIn deed.stateOut now deed.step := by
  cases command with
  | choose stateIn contact choice stateOut | setVariable stateIn name value stateOut =>
    cases acts
    rfl
  | _ => cases acts

/-- What was saved in a story on a script, the session that goes on from it once what waited is delivered,
and the session once the step is taken and what came of it is delivered. -/
structure Taken (t : FileTree) (now : Nat) (deed : Deed) (player : Player) (source : String)
    (before after : Session) : Prop where
  saved : (loadPlayer (m := StateM FileTree) deed.stateIn t).1 = .ok player
  script : ∃ path, (readScript (m := StateM FileTree) player.script t).1 = .ok ⟨path, source⟩
  resumed : ∃ loaded, (Session.resume source player.progress {} .empty now).2 = .ok loaded ∧
    loaded.session.flush.1 = before
  stepped : ∃ done, deed.step before = .ok done ∧ done.flush.1 = after

/- What is taken up, and what comes of it, is determined by the files and the clock. -/
theorem Taken.unique {player player' : Player} {source source' : String} {before before' after after' : Session}
    (taken : Taken t now deed player source before after) (taken' : Taken t now deed player' source' before' after') :
    player' = player ∧ before' = before ∧ after' = after := by
  cases taken.saved.symm.trans taken'.saved
  obtain ⟨_, found⟩ := taken.script
  obtain ⟨_, found'⟩ := taken'.script
  cases found.symm.trans found'
  obtain ⟨_, resumed, rfl⟩ := taken.resumed
  obtain ⟨_, resumed', rfl⟩ := taken'.resumed
  cases resumed.symm.trans resumed'
  obtain ⟨_, stepped, rfl⟩ := taken.stepped
  obtain ⟨_, stepped', rfl⟩ := taken'.stepped
  cases stepped.symm.trans stepped'
  exact ⟨rfl, rfl, rfl⟩

/- What a command tells is told once the state is saved. -/
theorem finish_iff {s : Session} {baseline : Baseline} {script stateOut : String} :
    finish (m := StateM FileTree) s baseline script stateOut t = (.ok lines, u) ↔
      savePlayer (m := StateM FileTree) stateOut ⟨script, s.play.progress⟩ t = (.ok (), u) ∧
        lines = boundaryLines s baseline stateOut := by
  generalize saved : savePlayer (m := StateM FileTree) stateOut ⟨script, s.play.progress⟩ t = result
  obtain ⟨result, after⟩ := result
  rw [finish, bind_of_run saved]
  cases result with
  | error fault => exact ⟨nofun, nofun⟩
  | ok done =>
    constructor
    · intro same
      cases same
      exact ⟨rfl, rfl⟩
    · rintro ⟨same, rfl⟩
      cases same
      rfl

/- A command that takes a step succeeds exactly if all of this does, and what came of it can be saved. -/
theorem run_iff (acts : deed? now command = some deed) :
    run (m := StateM FileTree) now command t = (.ok lines, u) ↔
      ∃ player source before after, Taken t now deed player source before after ∧
        savePlayer (m := StateM FileTree) deed.stateOut ⟨player.script, after.play.progress⟩ t = (.ok (), u) ∧
        lines = boundaryLines after (.of player.progress) deed.stateOut := by
  rw [run_of_deed acts, runStep, bind_of_run (run_of_reads (reads_loadPlayer deed.stateIn) t)]
  cases saved : (loadPlayer (m := StateM FileTree) deed.stateIn t).1 with
  | error fault =>
    refine ⟨nofun, ?_⟩
    rintro ⟨player, _, _, _, taken, _⟩
    cases saved.symm.trans taken.saved
  | ok player =>
    dsimp only
    rw [bind_of_run (run_of_reads (reads_readScript player.script) t)]
    cases script : (readScript (m := StateM FileTree) player.script t).1 with
    | error fault =>
      refine ⟨nofun, ?_⟩
      rintro ⟨player', _, _, _, taken, _⟩
      cases saved.symm.trans taken.saved
      obtain ⟨path, found⟩ := taken.script
      cases script.symm.trans found
    | ok found =>
      dsimp only
      constructor
      · intro ran
        cases resumed : (Session.resume found.source player.progress {} .empty now).2 with
        | error fault =>
          rw [resumed] at ran
          cases ran
        | ok loaded =>
          rw [resumed, Except.bind] at ran
          cases stepped : deed.step loaded.session.flush.1 with
          | error fault =>
            rw [stepped] at ran
            cases ran
          | ok done =>
            rw [stepped] at ran
            obtain ⟨kept, told⟩ := finish_iff.1 ran
            exact ⟨player, found.source, _, _, ⟨saved, ⟨found.path, script⟩, ⟨loaded, resumed, rfl⟩,
              ⟨done, stepped, rfl⟩⟩, kept, told⟩
      · rintro ⟨player', source, before, after, taken, kept, told⟩
        cases saved.symm.trans taken.saved
        obtain ⟨path, found'⟩ := taken.script
        cases script.symm.trans found'
        obtain ⟨loaded, resumed, rfl⟩ := taken.resumed
        obtain ⟨done, stepped, rfl⟩ := taken.stepped
        rw [resumed, show Except.bind (.ok loaded) (fun loaded : Loaded => deed.step loaded.session.flush.1) =
          .ok done from stepped]
        exact finish_iff.2 ⟨kept, told⟩

end Command
end ChatStory
