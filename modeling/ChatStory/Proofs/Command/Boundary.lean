import ChatStory.Proofs.Command.Step
import ChatStory.Proofs.Document.Words
import ChatStory.Proofs.Session.Afresh
import ChatStory.Proofs.Session.Dated

/-!
What a command tells of a saved story. It prints every message by which the threads have grown since the story was
taken up, once, and sorts them by time. What waited when the story was taken up is delivered before the step is
taken, but keeps the times for which it was put down; so a thread is told in its order exactly if none of these
messages is dated after one that came later.
-/
namespace ChatStory

/-- The messages by which a thread has grown. -/
def Progress.added (old new : Progress) (c : String) : List Message := (new.history c).drop (old.history c).length

/-- Messages by time, those of one time as they came. -/
abbrev byTime (messages : List Message) : List Message :=
  messages.mergeSort fun a b => a.timestamp ≤ b.timestamp

theorem timestamp_trans (a b c : Message) (first : decide (a.timestamp ≤ b.timestamp) = true)
    (second : decide (b.timestamp ≤ c.timestamp) = true) : decide (a.timestamp ≤ c.timestamp) = true :=
  decide_eq_true (Nat.le_trans (of_decide_eq_true first) (of_decide_eq_true second))

theorem timestamp_total (a b : Message) :
    (decide (a.timestamp ≤ b.timestamp) || decide (b.timestamp ≤ a.timestamp)) = true := by
  rw [Bool.or_eq_true, decide_eq_true_eq, decide_eq_true_eq]
  exact Nat.le_total _ _

theorem inTime_byTime (messages : List Message) : InTime (byTime messages) :=
  (List.pairwise_mergeSort timestamp_trans timestamp_total messages).imp of_decide_eq_true

/- Some of the messages keep their order exactly if they came in order of time. -/
theorem filter_byTime_iff (messages : List Message) (picks : Message → Bool) :
    (byTime messages).filter picks = messages.filter picks ↔ InTime (messages.filter picks) := by
  constructor
  · intro same
    rw [← same]
    exact (inTime_byTime messages).filter picks
  · intro ordered
    have inside : (messages.filter picks).Sublist (byTime messages) :=
      List.sublist_mergeSort timestamp_trans timestamp_total (ordered.imp decide_eq_true) List.filter_sublist
    have picked := inside.filter picks
    rw [List.filter_filter] at picked
    simp only [Bool.and_self] at picked
    exact (picked.eq_of_length ((List.mergeSort_perm messages _).filter picks).length_eq.symm).symm

/- Where contacts have messages of their own, those of one contact can be told apart. -/
theorem filter_flatMap_own {order : List String} (distinct : order.Nodup) {said : String → List Message}
    (own : ∀ c ∈ order, ∀ m ∈ said c, m.contact = c) {c : String} (member : c ∈ order) :
    (order.flatMap said).filter (·.contact = c) = said c := by
  induction order with
  | nil => cases member
  | cons d rest ih =>
    obtain ⟨fresh, distinct⟩ := List.nodup_cons.1 distinct
    obtain ⟨first, later⟩ := List.forall_mem_cons.1 own
    rw [List.flatMap_cons, List.filter_append]
    rcases List.mem_cons.1 member with rfl | inside
    · have mine : (said c).filter (·.contact = c) = said c :=
        List.filter_eq_self.2 fun m listed => decide_eq_true (first m listed)
      have none : (rest.flatMap said).filter (·.contact = c) = [] := by
        rw [List.filter_eq_nil_iff]
        intro m listed same
        obtain ⟨d, inside, told⟩ := List.mem_flatMap.1 listed
        have other : d = c := (later d inside m told).symm.trans (of_decide_eq_true same)
        exact fresh (other ▸ inside)
      rw [mine, none, List.append_nil]
    · have none : (said d).filter (·.contact = c) = [] := by
        rw [List.filter_eq_nil_iff]
        intro m listed same
        have other : d = c := (first m listed).symm.trans (of_decide_eq_true same)
        exact fresh (other ▸ inside)
      rw [none, List.nil_append]
      exact ih distinct later inside

namespace Session

open Play

/- Whenever a saved story is gone on with, what is said then is in order of time. -/
theorem chronicle_restored {store : Store} {saved : Progress} (restored : restored? store = some saved)
    (program : Program) (options : Options) (now : Nat) :
    Chronicle (saved.fitTo program).history 0 now (start program options store now).play := by
  have read : Chronicle (saved.fitTo program).history 0 0 (.resumed program options saved now) := by
    refine ⟨Nat.le_refl 0, fun c => ⟨[], ?_, .nil, List.forall_mem_nil _⟩, ?_⟩
    · rw [progress_resumed, List.append_nil]
      rfl
    · exact fun slot _ => Nat.zero_le slot.time
  rw [start_of_restored restored]
  exact chronicle_settle read (Nat.zero_le now) _

theorem program_flush (s : Session) : s.flush.1.play.program = s.play.program := by
  have walks : Walks neverLocks s.play (s.perform 0 .flush).play := walks_perform s 0 rfl
  exact walks.program

theorem program_settle (s : Session) (play : Play) (now : Nat) : (s.settle play now).play.program = play.program :=
  (walks_fireDue play now).program

end Session

namespace Command

open Play

variable {t u : FileTree} {now : Nat} {command : Command} {deed : Deed} {lines : List String} {player : Player}
  {source : String} {before after done s : Session}

/- What a deed does at once is done by the clock. -/
theorem settled_of_deed (acts : deed? now command = some deed) (stepped : deed.step s = .ok done) :
    ∃ play, done = s.settle play now ∧ play.program = s.play.program ∧ Utters now s.play play ∧
      Grows now s.play play := by
  cases command with
  | choose stateIn contact choice stateOut =>
    cases acts
    dsimp only at stepped
    rw [Session.choose_eq] at stepped
    cases chosen : s.play.choose? contact choice now with
    | none =>
      rw [chosen] at stepped
      cases stepped
    | some play =>
      rw [chosen] at stepped
      cases stepped
      exact ⟨play, rfl, (walks_choose chosen).program, (Utters.spans now).choose chosen,
        (Grows.spans now).choose chosen⟩
  | setVariable stateIn name value stateOut =>
    cases acts
    cases stepped
    exact ⟨_, rfl, (walks_assign _ _ _ now).program, (Utters.spans now).assign _ _ _,
      (Grows.spans now).assign _ _ _⟩
  | _ => cases acts

namespace Taken

/- A story that a command takes up goes on, on its script, from what can be read back of it. -/
theorem begun (taken : Taken t now deed player source before after) : ∃ store saved,
    player.progress.reread? = some saved ∧ Session.restored? store = some saved ∧
      before = (Session.start (ChatStory.compile source).program {} store now).flush.1 := by
  have decoded : ∃ document, Player.decode deed.stateIn document = .ok player := by
    have loaded := taken.saved
    rw [loadPlayer_eq] at loaded
    split at loaded
    · cases loaded
    · cases loaded
    · exact ⟨_, loaded⟩
  obtain ⟨document, decoded⟩ := decoded
  obtain ⟨fits, saved, read⟩ := Player.rereadable_of_decode decoded
  obtain ⟨loaded, resumed, rfl⟩ := taken.resumed
  obtain ⟨written, kept, started⟩ := start_of_resume resumed
  cases kept
  refine ⟨_, saved, read, ?_, by rw [started]⟩
  exact (Save.decode_encode fits).trans read

/- The program of a story is that of its script. -/
theorem program (acts : deed? now command = some deed) (taken : Taken t now deed player source before after) :
    after.play.program = (ChatStory.compile source).program := by
  obtain ⟨store, _, _, _, rfl⟩ := taken.begun
  obtain ⟨done, stepped, rfl⟩ := taken.stepped
  obtain ⟨play, rfl, same, _⟩ := settled_of_deed acts stepped
  rw [Session.program_flush, Session.program_settle, same, Session.program_flush]
  exact congrArg Setting.program (Session.setting_start _ _ store now)

/- What is said before the step, once the story is taken up, is in order of time, and so is what is said
from the step on. -/
theorem grown (acts : deed? now command = some deed) (taken : Taken t now deed player source before after) :
    ∃ saved, player.progress.reread? = some saved ∧ ∀ c, ∃ early late : List Message,
      before.play.progress.history c = (saved.fitTo (ChatStory.compile source).program).history c ++ early ∧
      after.play.progress.history c = before.play.progress.history c ++ late ∧
      InTime early ∧ InTime late ∧ (∀ m ∈ early ++ late, m.contact = c) := by
  obtain ⟨store, saved, read, restored, rfl⟩ := taken.begun
  obtain ⟨done, stepped, rfl⟩ := taken.stepped
  obtain ⟨play, rfl, _, utters, grows⟩ := settled_of_deed acts stepped
  obtain ⟨moment, late, first⟩ := Session.chronicle_flush
    (Session.chronicle_restored restored (ChatStory.compile source).program {} now)
  obtain ⟨_, _, second⟩ := Session.chronicle_flush
    (Session.chronicle_settle ((first.again late).happens utters grows) (Nat.le_refl now) _)
  refine ⟨saved, read, fun c => ?_⟩
  obtain ⟨early, grown, ordered, dated⟩ := first.said c
  obtain ⟨more, longer, ordered', dated'⟩ := second.said c
  refine ⟨early, more, grown, longer, ordered, ordered', fun m member => ?_⟩
  exact (List.mem_append.1 member).elim (fun old => (dated m old).2.2) fun fresh => (dated' m fresh).2.2

/- What was read back stands at the front of each thread, and behind it what was said before the step, and from
the step on. -/
theorem threads (acts : deed? now command = some deed) (taken : Taken t now deed player source before after)
    {c : String} (known : (ChatStory.compile source).program.has c = true) :
    (∃ old, (player.progress.history c).mapM Message.reread? = some old ∧
      after.play.progress.history c = old ++ player.progress.added after.play.progress c) ∧
      player.progress.added after.play.progress c = player.progress.added before.play.progress c ++
        before.play.progress.added after.play.progress c ∧
      InTime (player.progress.added before.play.progress c) ∧
      InTime (before.play.progress.added after.play.progress c) ∧
      ∀ m ∈ player.progress.added after.play.progress c, m.contact = c := by
  obtain ⟨saved, read, grown⟩ := taken.grown acts
  obtain ⟨early, late, first, second, ordered, ordered', own⟩ := grown c
  rw [Progress.history_fitTo (wellFormed_compile source), if_pos known] at first
  have old := Progress.history_reread read c
  have lengths : (player.progress.history c).length = (saved.history c).length := by
    have same := congrArg List.length (map_some_of_mapM old)
    rw [List.length_map, List.length_map] at same
    exact same.symm
  have before_step : player.progress.added before.play.progress c = early := by
    rw [Progress.added, first, lengths, List.drop_left]
  have from_step : before.play.progress.added after.play.progress c = late := by
    rw [Progress.added, second, List.drop_left]
  have whole : player.progress.added after.play.progress c = early ++ late := by
    rw [Progress.added, second, first, lengths, List.append_assoc, List.drop_left]
  rw [before_step, from_step, whole]
  refine ⟨⟨_, old, ?_⟩, rfl, ordered, ordered', own⟩
  rw [second, first, List.append_assoc]

end Taken

/-- A line that tells of a message. -/
def tellsMessage (line : String) : Bool := "MESSAGE:".toList.isPrefixOf line.toList

theorem tellsMessage_messageLine (m : Message) : tellsMessage (messageLine m) = true := by
  simp [tellsMessage, messageLine]

/- The lines that tell of messages are those of the new messages. -/
theorem messageLines (s : Session) (baseline : Baseline) (stateOut : String) :
    (boundaryLines s baseline stateOut).filter tellsMessage = (newMessages s baseline).map messageLine := by
  have threads (c : String) : (threadLines s c).filter tellsMessage = [] := by
    rw [threadLines, List.filter_eq_nil_iff, List.forall_mem_cons]
    constructor
    · simp [tellsMessage]
    · intro line member
      obtain ⟨index, _, rfl⟩ := List.mem_mapIdx.1 member
      simp [tellsMessage]
  have shown : ((newMessages s baseline).map messageLine).filter tellsMessage =
      (newMessages s baseline).map messageLine := by
    rw [List.filter_eq_self, List.forall_mem_map]
    exact fun m _ => tellsMessage_messageLine m
  have last : ["STATE_OUT:" ++ stateOut].filter tellsMessage = [] := by
    simp [tellsMessage]
  rw [boundaryLines, List.filter_append, List.filter_append, List.filter_flatMap, shown, last,
    List.flatMap_eq_nil_iff.2 fun c _ => threads c, List.append_nil, List.append_nil]

/- What is counted is what was saved. -/
theorem newMessages_of (s : Session) (saved : Progress) : newMessages s (.of saved) =
    byTime (s.play.program.order.flatMap (saved.added s.play.progress)) := by
  have counted (c : String) : (Baseline.of saved).getD c 0 = (saved.history c).length := by
    rw [Baseline.of, Table.getD, Table.get?_map, Progress.history, Table.getD]
    cases saved.histories.get? c <;> rfl
  unfold newMessages Progress.added
  simp only [counted]

/- Whenever a command takes a step in a saved story, the lines of messages tell each message by which a thread of
   the program has grown since the story was taken up, once, and no other one, by time. A thread is told in its
   order exactly if no message that was delivered before the step is dated after one that came from the step on. -/
theorem told_in_order_iff (acts : deed? now command = some deed)
    (ran : run (m := StateM FileTree) now command t = (.ok lines, u)) :
    ∃ player source before after, Taken t now deed player source before after ∧
      ∃ told, lines.filter tellsMessage = told.map messageLine ∧ InTime told ∧
        after.play.program.order.Nodup ∧
        told.Perm (after.play.program.order.flatMap (player.progress.added after.play.progress)) ∧
        ∀ c ∈ after.play.program.order,
          (∃ old, (player.progress.history c).mapM Message.reread? = some old ∧
            after.play.progress.history c = old ++ player.progress.added after.play.progress c) ∧
          player.progress.added after.play.progress c =
            player.progress.added before.play.progress c ++
              before.play.progress.added after.play.progress c ∧
          (told.filter (·.contact = c)).Perm (player.progress.added after.play.progress c) ∧
          (told.filter (·.contact = c) = player.progress.added after.play.progress c ↔
            ∀ m ∈ player.progress.added before.play.progress c,
              ∀ n ∈ before.play.progress.added after.play.progress c, m.timestamp ≤ n.timestamp) := by
  obtain ⟨player, source, before, after, taken, _, rfl⟩ := (run_iff acts).1 ran
  refine ⟨player, source, before, after, taken, newMessages after (.of player.progress), messageLines _ _ _, ?_⟩
  have program := taken.program acts
  have distinct : after.play.program.order.Nodup := program ▸ distinct_compile source
  have threads (c : String) (listed : c ∈ after.play.program.order) :=
    taken.threads acts (((wellFormed_compile source).order c).1 (program ▸ listed))
  have own (c : String) (listed : c ∈ after.play.program.order) :=
    (threads c listed).2.2.2.2
  rw [newMessages_of]
  refine ⟨inTime_byTime _, distinct, List.mergeSort_perm _ _, fun c listed => ?_⟩
  obtain ⟨grown, split, ordered, ordered', _⟩ := threads c listed
  have mine := filter_flatMap_own distinct own listed
  have perm := (List.mergeSort_perm _ _ : (byTime (after.play.program.order.flatMap
    (player.progress.added after.play.progress))).Perm _).filter (·.contact = c)
  have kept := filter_byTime_iff (after.play.program.order.flatMap
    (player.progress.added after.play.progress)) (·.contact = c)
  rw [mine] at perm kept
  refine ⟨grown, split, perm, kept.trans ?_⟩
  rw [split, InTime, List.pairwise_append]
  exact ⟨fun all => all.2.2, fun across => ⟨ordered, ordered', across⟩⟩

/- The state of a player is read from any document that says what it is. -/
theorem decode_of_render {j : Json} {path : String} (fits : j.fitsWords = true)
    (keepable : Json.keepable 0 j.reread = true)
    (schema : (j.reread.member? "schemaVersion").bind Json.asText? = some playerSchema)
    (read : Player.read? j.reread.settled = some player) : Player.decode path j.render = .ok player := by
  have kept : Json.parseKept? j.render = some j.reread := by
    rw [Json.parseKept?, Json.parse_render fits, Option.filter_some, if_pos keepable]
  unfold Player.decode
  rw [kept]
  dsimp only
  rw [schema, Option.getD_some, if_pos rfl, read]

/-- The session that goes on from what was saved, and what a choice makes of it, if no more tasks fall due than
the limit. -/
def takenWithin (limit : Nat) (program : Program) (saved : Progress) (now : Nat) (contact : String)
    (choice : Nat) : Option (Session × Session) := do
  let first ← Session.resumeWithin limit program {} ⟨some (Save.encode saved), []⟩ saved now
  let done ← first.flush.1.performWithin limit now (.choose contact choice)
  return (first.flush.1, done.flush.1)

theorem taken_of_within {limit : Nat} {program : Program} {stateIn contact : String} {choice : Nat}
    (stateOut : String) (saved : (loadPlayer (m := StateM FileTree) stateIn t).1 = .ok player)
    (script : ∃ path, (readScript (m := StateM FileTree) player.script t).1 = .ok ⟨path, source⟩)
    (compiled : (ChatStory.compile source).result = .ok program) (fits : player.progress.fitsWords = true)
    (read : player.progress.reread? = some player.progress)
    (within : takenWithin limit program player.progress now contact choice = some (before, after)) :
    ∃ deed, deed? now (.choose stateIn contact choice stateOut) = some deed ∧ deed.stateOut = stateOut ∧
      Taken t now deed player source before after := by
  obtain ⟨first, resumed, rest⟩ := Option.bind_eq_some_iff.1 within
  obtain ⟨done, chosen, same⟩ := Option.bind_eq_some_iff.1 rest
  cases same
  have restored : Session.restored? ⟨some (Save.encode player.progress), []⟩ = some player.progress :=
    (Save.decode_encode fits).trans read
  have kept : Store.empty.write (Save.encode player.progress) =
      .ok ⟨some (Save.encode player.progress), []⟩ := rfl
  have begun := resume_of_result compiled kept {} now
  rw [Session.start_of_resumeWithin restored resumed] at begun
  obtain ⟨play, picked, settled⟩ := Option.bind_eq_some_iff.1 chosen
  have accepted : first.flush.1.choose contact choice now = some done := by
    rw [Session.choose_eq, picked, ← Session.settle_of_settleWithin settled]
    rfl
  refine ⟨_, rfl, rfl, saved, script, ⟨_, begun, rfl⟩, ⟨done, ?_, rfl⟩⟩
  dsimp only
  rw [accepted]

/-- A contact has said something, and says something else at a time; a choice is there that nobody answers. -/
def asking : String :=
  ":: A-Round-1 [initial_contact]\nHi\n[[Go|A-Round-2]]\n\n:: A-Round-2 [chat]\n[[Stay|A-Round-2]]\n"

def askingAt (time : Nat) : Player where
  script := "story.twee"
  progress := {
    rounds := .ofList [("A", ⟨1, none⟩)]
    threads := .ofList [("A", .active)]
    histories := .ofList [("A", [⟨"A-1", "A", "Hi", 1000, false, .text, none, none, false⟩])]
    unlocked := .ofNames ["A"]
    viewed := .ofNames []
    typingDelay := 2000
    unlocks := ∅
    endings := .ofNames []
    deliveries := [⟨"A", time, .reply "Still there?"⟩]
    notifications := []
    values := ∅
    statuses := ∅
    nextId := 2 }

def askingDocument (time : Nat) : Json :=
  .record [("schemaVersion", .text playerSchema), ("script", .text (askingAt time).script),
    ("state", (askingAt time).progress.toJson)]

def askingFiles (time : Nat) : FileTree := ⟨"/story", Table.ofList
  [(["story.twee"], .text asking), (["state.json"], .text (askingDocument time).render)]⟩

def chooseGo : Command := .choose "state.json" "A" 0 "next.json"

/-- The state of the story can be read, and so can its script. -/
def asks (time : Nat) : Bool :=
  (askingDocument time).fitsWords && Json.keepable 0 (askingDocument time).reread &&
    decide (((askingDocument time).reread.member? "schemaVersion").bind Json.asText? = some playerSchema) &&
    decide (Player.read? (askingDocument time).reread.settled = some (askingAt time)) &&
    (askingAt time).progress.fitsWords &&
    decide ((askingAt time).progress.reread? = some (askingAt time).progress) &&
    decide ((askingFiles time).find "state.json" = .ok ["state.json"]) &&
    decide ((readScript (m := StateM FileTree) "story.twee" (askingFiles time)).1.toOption.map (·.source) =
      some asking)

/-- When messages were said, and the lines that tell of them. -/
def dated (messages : List Message) : List (Nat × String) := messages.map fun m => (m.timestamp, messageLine m)

/-- What is said before the choice, and from it on; and what comes of it can be saved. -/
def tells (time : Nat) (early late : List (Nat × String)) : Bool :=
  (ChatStory.compile asking).result.toOption.any fun program =>
    (takenWithin 1 program (askingAt time).progress 1000 "A" 0).any fun (before, after) =>
      decide (after.play.program.order = ["A"]) &&
      decide (dated ((askingAt time).progress.added before.play.progress "A") = early) &&
      decide (dated (before.play.progress.added after.play.progress "A") = late) &&
      (savePlayer (m := StateM FileTree) "next.json" ⟨(askingAt time).script, after.play.progress⟩
        (askingFiles time)).1.isOk

theorem runs_of_tells {time : Nat} {early late : List (Nat × String)} (sound : asks time = true)
    (told : tells time early late = true) : ∃ deed lines u before after, deed? 1000 chooseGo = some deed ∧
      run (m := StateM FileTree) 1000 chooseGo (askingFiles time) = (.ok lines, u) ∧
      Taken (askingFiles time) 1000 deed (askingAt time) asking before after ∧
      lines = boundaryLines after (.of (askingAt time).progress) "next.json" ∧ after.play.program.order = ["A"] ∧
      dated ((askingAt time).progress.added before.play.progress "A") = early ∧
      dated (before.play.progress.added after.play.progress "A") = late := by
  simp only [asks, Bool.and_eq_true, decide_eq_true_eq] at sound
  obtain ⟨⟨⟨⟨⟨⟨⟨words, keepable⟩, schema⟩, state⟩, fits⟩, reread⟩, place⟩, script⟩ := sound
  obtain ⟨program, compiled, told⟩ := Session.compiled_of_any told
  obtain ⟨⟨before, after⟩, within, shown⟩ := (Option.any_eq_true _ _).1 told
  simp only [Bool.and_eq_true, decide_eq_true_eq] at shown
  obtain ⟨⟨⟨order, first⟩, second⟩, kept⟩ := shown
  have loaded : (loadPlayer (m := StateM FileTree) "state.json" (askingFiles time)).1 = .ok (askingAt time) := by
    have node : (askingFiles time).node? ["state.json"] = some (.text (askingDocument time).render) := rfl
    rw [loadPlayer_eq, FileTree.read_of_node place node]
    exact decode_of_render words keepable schema state
  have found : ∃ path,
      (readScript (m := StateM FileTree) "story.twee" (askingFiles time)).1 = .ok ⟨path, asking⟩ := by
    cases given : (readScript (m := StateM FileTree) "story.twee" (askingFiles time)).1 with
    | error fault =>
      rw [given] at script
      cases script
    | ok found =>
      rw [given] at script
      exact ⟨found.path, by rw [← Option.some.inj script]⟩
  obtain ⟨deed, acts, out, taken⟩ := taken_of_within "next.json" loaded found compiled fits reread within
  cases saved : savePlayer (m := StateM FileTree) "next.json" ⟨(askingAt time).script, after.play.progress⟩
    (askingFiles time) with
  | mk result u =>
    rw [saved] at kept
    cases result with
    | error fault => cases kept
    | ok done =>
      refine ⟨deed, _, u, before, after, acts, ?_, taken, rfl, order, first, second⟩
      rw [← out] at saved ⊢
      exact (run_iff acts).2 ⟨_, _, before, after, taken, saved, rfl⟩

theorem asks_late : asks 4102444800000 = true := by decide +kernel

theorem tells_late : tells 4102444800000 [(4102444800000, "MESSAGE:A|contact|\"Still there?\"")]
    [(1000, "MESSAGE:A|player|\"Go\"")] = true := by
  decide +kernel

theorem of_dated {messages : List Message} {time : Nat} {line : String} (said : dated messages = [(time, line)]) :
    ∃ m, messages = [m] ∧ m.timestamp = time ∧ messageLine m = line := by
  obtain ⟨m, rfl, same⟩ := List.map_eq_singleton_iff.1 said
  exact ⟨m, rfl, congrArg Prod.fst same, congrArg Prod.snd same⟩

/- What a contact was still going to say, long after, stands before the choice in the thread, and is told behind
   it. -/
theorem waiting_told_behind : ∃ deed lines u before after, deed? 1000 chooseGo = some deed ∧
    run (m := StateM FileTree) 1000 chooseGo (askingFiles 4102444800000) = (.ok lines, u) ∧
    Taken (askingFiles 4102444800000) 1000 deed (askingAt 4102444800000) asking before after ∧
    ((askingAt 4102444800000).progress.added after.play.progress "A").map messageLine =
      ["MESSAGE:A|contact|\"Still there?\"", "MESSAGE:A|player|\"Go\""] ∧
    lines.filter tellsMessage = ["MESSAGE:A|player|\"Go\"", "MESSAGE:A|contact|\"Still there?\""] := by
  obtain ⟨deed, lines, u, before, after, acts, ran, taken, rfl, order, first, second⟩ :=
    runs_of_tells asks_late tells_late
  obtain ⟨waiting, early, due, told⟩ := of_dated first
  obtain ⟨choice, late, now, told'⟩ := of_dated second
  have known : (ChatStory.compile asking).program.has "A" = true := by decide +kernel
  have whole := (taken.threads acts known).2.1
  rw [early, late] at whole
  refine ⟨deed, _, u, before, after, acts, ran, taken, ?_, ?_⟩
  · rw [whole, List.map_append, List.map_singleton, List.map_singleton, told, told']
    rfl
  · rw [messageLines, newMessages_of, order, List.flatMap_singleton, whole]
    change (List.map messageLine ([waiting, choice].mergeSort _)) = _
    rw [FileTree.mergeSort_pair, due, now]
    simp [told, told']

theorem asks_due : asks 900 = true := by decide +kernel

theorem tells_due : tells 900 [(900, "MESSAGE:A|contact|\"Still there?\"")]
    [(1000, "MESSAGE:A|player|\"Go\"")] = true := by
  decide +kernel

/- What a contact should have said by now is told before the choice. -/
theorem told_in_order_due : ∃ deed lines u player source before after, deed? 1000 chooseGo = some deed ∧
    run (m := StateM FileTree) 1000 chooseGo (askingFiles 900) = (.ok lines, u) ∧
    Taken (askingFiles 900) 1000 deed player source before after ∧
    ∃ told : List Message, lines.filter tellsMessage = told.map messageLine ∧
      told.filter (·.contact = "A") = player.progress.added after.play.progress "A" ∧
      (player.progress.added after.play.progress "A").map messageLine =
        ["MESSAGE:A|contact|\"Still there?\"", "MESSAGE:A|player|\"Go\""] := by
  obtain ⟨deed, lines, u, before, after, acts, ran, taken, _, order, first, second⟩ :=
    runs_of_tells asks_due tells_due
  obtain ⟨waiting, early, due, line⟩ := of_dated first
  obtain ⟨choice, late, now, line'⟩ := of_dated second
  obtain ⟨player, source, before', after', taken', told, shown, _, _, _, threads⟩ := told_in_order_iff acts ran
  obtain ⟨rfl, rfl, rfl⟩ := taken.unique taken'
  obtain ⟨_, whole, _, ordered⟩ := threads "A" (by rw [order]; exact List.mem_singleton_self _)
  rw [early, late] at whole ordered
  refine ⟨deed, lines, u, _, source, _, _, acts, ran, taken', told, shown, ordered.2 ?_, ?_⟩
  · rintro m (_ | ⟨_, ⟨⟩⟩) n (_ | ⟨_, ⟨⟩⟩)
    rw [due, now]
    decide
  · rw [whole, List.map_append, List.map_singleton, List.map_singleton, line, line']
    rfl

end Command
end ChatStory
