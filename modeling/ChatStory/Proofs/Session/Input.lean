import ChatStory.Proofs.Session.Arising
import ChatStory.Proofs.Session.Parallel
import ChatStory.Proofs.Session.Twins

/-!
Input and overdue tasks. A choice, a variable or actions are taken in first, by the story as it stands,
and what is overdue is settled behind them in the same call. Tasks that only speak do not bear on
this: settled before the input or behind it, they leave the same answer and the same threads, and in every
thread what the input itself says stands on one side of them or on the other.
-/
namespace ChatStory

/-- The effect may change how a story goes on. -/
def Effect.bears : Effect → Bool
  | unlockContact _ | endThread | setTypingDelay _ | setVariable .. => true
  | _ => false

/-- The task says something at most. -/
def Slot.isSpeech (slot : Slot) : Bool :=
  match slot.task.delivery with
  | .typing | .reply _ => true
  | .payload action => !action.effect.bears
  | .notices => false

namespace Play

/-- What an effect that a contact carries out says, and in whose thread. -/
def speech? (program : Program) (contact : String) : Effect → Option (String × Saying)
  | .delayedMessage text target =>
    if program.has (target.getD contact) then some (target.getD contact, { text := text }) else none
  | .sendPhoto media caption =>
    some (contact, { text := caption.getD "", kind := .photo, media := some media })
  | .sendVideo media caption =>
    some (contact, { text := caption.getD "", kind := .video, media := some media })
  | .dropPin pin => some (contact, { text := pin.label, kind := .location, location := some pin })
  | _ => none

/-- What a task says, and in whose thread. -/
def spoken? (core : Core) (slot : Slot) : Option (String × Saying) :=
  if slot.task.epoch = core.epoch then
    match slot.task.delivery with
    | .reply text => some (slot.task.contact, { text := text })
    | .payload action => speech? core.program slot.task.contact action.effect
    | .typing | .notices => none
  else none

/-- What a saying adds to a thread. -/
def lines (said : Option (String × Saying)) (time : Nat) (c : String) : List Message :=
  match said with
  | some (contact, saying) => if c = contact then [saying.line contact time] else []
  | none => []

/-- What some tasks add to a thread. -/
def allLines (core : Core) (slots : List Slot) (c : String) : List Message :=
  slots.flatMap fun slot => lines (spoken? core slot) slot.time c

/-- Says this and nothing else, and changes nothing that bears on how the story goes on. -/
structure Says (said : Option (String × Saying)) (time : Nat) (a b : Play) : Prop where
  core : b.core = a.core
  slots : b.queue.slots = a.queue.slots
  story : ∀ c, b.story c = a.story c ++ lines said time c

variable {a b : Play} {time now : Nat}

theorem Says.refl (time : Nat) (a : Play) : Says none time a a :=
  ⟨rfl, rfl, fun _ => (List.append_nil _).symm⟩

theorem Says.say (a : Play) (contact : String) (saying : Saying) (time : Nat) :
    Says (some (contact, saying)) time a (a.say contact saying time) :=
  ⟨rfl, rfl, story_say a contact saying time⟩

theorem Says.of_silent (core : b.core = a.core) (slots : b.queue.slots = a.queue.slots)
    (histories : b.progress.histories = a.progress.histories) : Says none time a b := by
  refine ⟨core, slots, fun c => ?_⟩
  exact (story_of_histories histories c).trans (List.append_nil _).symm

theorem says_effectWith? (again : Reopening) (a : Play) (contact : String) (time : Nat)
    {effect : Effect} (light : effect.bears = false) :
    (∃ b, a.effectWith? again contact time effect = some b ∧
      Says (speech? a.program contact effect) time a b) ∨
    (a.effectWith? again contact time effect = none ∧ speech? a.program contact effect = none) := by
  cases effect with
  | delayedMessage text target =>
    simp only [effectWith?, speech?]
    split
    · exact .inl ⟨_, rfl, .say a _ _ time⟩
    · exact .inr ⟨rfl, rfl⟩
  | sendPhoto media caption | sendVideo media caption | dropPin pin =>
    exact .inl ⟨_, rfl, .say a contact _ time⟩
  | setContactStatus target status | openThread target =>
    simp only [effectWith?, speech?]
    split
    · exact .inl ⟨_, rfl, .of_silent rfl rfl rfl⟩
    · exact .inr ⟨rfl, trivial⟩
  | typingIndicator duration | showNotification title text =>
    exact .inl ⟨_, rfl, .of_silent rfl rfl rfl⟩
  | vibrate duration | callEmergency | needCode | triggerCall number =>
    exact .inl ⟨a, rfl, .refl time a⟩
  | unlockContact target | endThread | setTypingDelay delay | setVariable name value => cases light

theorem says_run (a : Play) (contact : String) {action : Action} (light : action.effect.bears = false)
    (time : Nat) : Says (speech? a.program contact action.effect) time a (a.run contact action time) := by
  unfold run runWith
  rcases says_effectWith? (reopen a.closedThreads) a contact time light with
    ⟨b, done, told⟩ | ⟨failed, silent⟩
  · rw [done]
    dsimp only
    split
    · exact told
    · exact ⟨told.core, told.slots, told.story⟩
  · rw [failed, silent]
    exact .refl time a

theorem says_fire (a : Play) {slot : Slot} (speech : slot.isSpeech = true) :
    Says (spoken? a.core slot) slot.time a (a.fire slot) := by
  unfold fire spoken?
  by_cases current : slot.task.epoch = a.epoch
  · rw [if_pos current, if_pos (show slot.task.epoch = a.core.epoch from current)]
    unfold Slot.isSpeech at speech
    cases delivery : slot.task.delivery with
    | typing => exact .of_silent rfl rfl rfl
    | reply text => exact .say a slot.task.contact _ slot.time
    | payload action =>
      rw [delivery] at speech
      exact says_run a slot.task.contact (by simpa using speech) slot.time
    | notices =>
      rw [delivery] at speech
      cases speech
  · rw [if_neg current, if_neg (show ¬slot.task.epoch = a.core.epoch from current)]
    exact .refl slot.time a

/- Tasks that only speak are fired one after the other, and all that comes of it is what they say. -/
theorem fireDue_of_speech {ahead rest : List Slot} (slots : a.queue.slots = ahead ++ rest)
    (due : ∀ slot ∈ ahead, slot.time ≤ now) (speech : ∀ slot ∈ ahead, slot.isSpeech = true) :
    ∃ b : Play, (a.fireDue now).1 = (b.fireDue now).1 ∧ b.core = a.core ∧ b.queue.slots = rest ∧
      ∀ c, b.story c = a.story c ++ allLines a.core ahead c := by
  induction ahead generalizing a with
  | nil => exact ⟨a, rfl, rfl, slots, fun _ => (List.append_nil _).symm⟩
  | cons slot others ih =>
    obtain ⟨early, later⟩ := List.forall_mem_cons.1 due
    obtain ⟨speaks, silent⟩ := List.forall_mem_cons.1 speech
    have first : a.queue.due? now = some slot := by
      rw [Queue.due?, Queue.next?, slots]
      simpa using early
    have told := says_fire a.dropFirst speaks
    have left : (a.dropFirst.fire slot).queue.slots = others ++ rest := by
      rw [told.slots]
      change a.queue.slots.tail = _
      rw [slots]
      rfl
    obtain ⟨b, same, core, waiting, story⟩ := ih left later silent
    refine ⟨b, ?_, core.trans told.core, waiting, fun c => ?_⟩
    · rw [fireDue_of_some first]
      exact same
    · rw [story, told.story, told.core, List.append_assoc]
      rfl

end Play

/-- Something new is brought to the story: a choice, a variable or actions. -/
def Operation.isInput : Operation → Bool
  | choose .. | setVariable .. | execute .. => true
  | _ => false

theorem Operation.ongoing_of_isInput {operation : Operation} (input : operation.isInput = true) :
    operation.Ongoing := by
  cases operation with
  | switchProgram program | reset => cases input
  | _ => rfl

theorem Operation.compiled_of_isInput {operation : Operation} (input : operation.isInput = true) :
    operation.Compiled := by
  cases operation with
  | switchProgram program => cases input
  | _ => trivial

namespace Session

open Play

/-- The answer to an input: whether it was taken. -/
def answer (s : Session) (now : Nat) : Operation → Bool
  | .choose contact index => (s.choose contact index now).isSome
  | .execute contact actions => (s.execute contact actions now).isSome
  | _ => true

/-- The input can be taken by the story as it stands, whatever waits on the timeline. -/
def accepts (s : Session) : Operation → Bool
  | .choose contact index => index < (s.play.choices contact).length
  | .execute contact _ => s.play.program.has contact
  | _ => true

/-- What an input itself says in a thread: a choice is said by the player, and ends the thread if it
leads nowhere. -/
def ownLines (s : Session) (now : Nat) (c : String) : Operation → List Message
  | .choose contact index =>
    match (s.play.choices contact)[index]? with
    | some choice =>
      lines (some (contact, { text := choice.text, fromPlayer := true })) now c ++
        lines (if (s.play.target? contact choice).isNone then some (contact, .ofEnd) else none) now c
    | none => []
  | _ => []

variable {s : Session} {now : Nat} {operation : Operation}

theorem answer_eq (s : Session) (now : Nat) (input : operation.isInput = true) :
    s.answer now operation = (s.acted? now operation).isSome := by
  cases operation with
  | choose contact index =>
    rw [answer, choose_eq, Option.isSome_map]
    rfl
  | setVariable name value => rfl
  | execute contact actions =>
    rw [answer, execute_eq, Option.isSome_map]
    rfl
  | _ => cases input

theorem answer_eq_accepts (s : Session) (now : Nat) (input : operation.isInput = true) :
    s.answer now operation = s.accepts operation := by
  rw [answer_eq s now input]
  cases operation with
  | choose contact index =>
    unfold acted? choose? accepts
    by_cases few : index < (s.play.choices contact).length
    · simp [few]
    · simp [few]
  | setVariable name value => rfl
  | execute contact actions =>
    unfold acted? execute? accepts
    dsimp only
    split <;> simp_all
  | _ => cases input

/- An input that is not taken changes nothing at all. -/
theorem perform_refused (input : operation.isInput = true) (refused : s.answer now operation = false) :
    s.perform now operation = s := by
  cases operation with
  | choose contact index =>
    have none : s.choose contact index now = none := by simpa [answer] using refused
    rw [perform, none, Option.getD_none]
  | setVariable name value => cases refused
  | execute contact actions =>
    have none : s.execute contact actions now = none := by simpa [answer] using refused
    rw [perform, none, Option.getD_none]
  | _ => cases input

end Session

namespace Play

variable {a b : Play} {now : Nat}

/- A round that is entered behind the typing bubble says nothing yet. -/
theorem histories_enter_typed (formed : a.program.WellFormed) (contact : String) (key : RoundKey)
    (now : Nat) (leading : Option Action) :
    (a.enter contact key now .typed leading).progress.histories = a.progress.histories := by
  unfold enter
  cases found : a.program.round? contact key with
  | none =>
    unfold enterWith
    rw [found]
  | some round =>
    exact ((enterWith_settles (quiet_reopen a.closedThreads) formed (Option.isSome_of_eq_some found) now
      .typed leading).2.2 rfl).histories

theorem histories_execute (coherent : a.Coherent) {contact : String} {actions : List Action}
    (done : a.execute? contact actions now = some b) :
    b.progress.histories = a.progress.histories := by
  unfold execute? at done
  split at done
  · rename_i known
    cases done
    have planned := (stirs_planWith (quiet_reopen a.closedThreads) coherent.formed known now actions).1
    rw [progress_layOut]
    exact planned.histories
  · cases done

theorem story_putEnded (a : Play) {contact : String} (active : a.progress.thread? contact = some .active)
    (now : Nat) (c : String) :
    (a.finishThread contact now).story c = a.story c ++ lines (some (contact, .ofEnd)) now c := by
  unfold finishThread
  rw [if_neg (by rw [active]; decide), story_putThread, story_say]
  rfl

theorem story_choose (coherent : a.Coherent) {contact : String} {index : Nat} {choice : Choice}
    (offered : (a.choices contact)[index]? = some choice)
    (chosen : a.choose? contact index now = some b) (c : String) : b.story c = a.story c ++
      (lines (some (contact, { text := choice.text, fromPlayer := true })) now c ++
        lines (if (a.target? contact choice).isNone then some (contact, .ofEnd) else none) now c) := by
  unfold choose? at chosen
  rw [offered] at chosen
  cases chosen
  have said := story_say a contact { text := choice.text, fromPlayer := true } now c
  rw [← List.append_assoc]
  change _ = a.story c ++ (if c = contact then _ else _) ++ _
  rw [← said]
  have target : (a.say contact { text := choice.text, fromPlayer := true } now).target? contact choice =
      a.target? contact choice := rfl
  rw [target]
  generalize spoken : a.say contact { text := choice.text, fromPlayer := true } now = talk
  have formed : talk.program.WellFormed := by
    rw [← spoken]
    exact coherent.formed
  have active : talk.progress.thread? contact = some .active := by
    rw [← spoken]
    exact active_of_choice offered
  cases a.target? contact choice with
  | some key =>
    have quiet := story_of_histories (histories_enter_typed formed contact key now
      choice.action) c
    exact quiet.trans (List.append_nil _).symm
  | none =>
    exact story_putEnded (talk.revise fun p => { p with rounds := p.rounds.erase contact }) active now c

end Play

namespace Session

open Play

variable {s : Session} {now : Nat} {operation : Operation}

/- What an input does at once adds its own lines to the threads, and nothing else. -/
theorem story_acted (coherent : s.play.Coherent) (input : operation.isInput = true) {start : Play}
    (acted : s.acted? now operation = some start) (c : String) :
    start.story c = s.play.story c ++ s.ownLines now c operation := by
  cases operation with
  | choose contact index =>
    cases offered : (s.play.choices contact)[index]? with
    | none =>
      have chosen : s.play.choose? contact index now = some start := acted
      rw [choose?, offered] at chosen
      cases chosen
    | some choice =>
      rw [ownLines, offered]
      exact story_choose coherent offered acted c
  | setVariable name value =>
    cases acted
    rw [story_of_histories (stirs_assign coherent.formed name value now).histories]
    exact (List.append_nil _).symm
  | execute contact actions =>
    rw [story_of_histories (histories_execute coherent acted)]
    exact (List.append_nil _).symm
  | _ => cases input

/- What is fired behind an input adds to the threads what it says, behind the lines of the input. -/
theorem story_perform (coherent : s.play.Coherent) (input : operation.isInput = true) {start : Play}
    (acted : s.acted? now operation = some start) (c : String) : ∃ more,
      (s.perform now operation).play.story c = s.play.story c ++ s.ownLines now c operation ++ more := by
  obtain ⟨more, grown⟩ := (walks_fireDue start now).history c
  have fired : ((start.fireDue now).1).story c = start.story c ++ more.map Message.unnumbered := by
    unfold story
    rw [← grown, List.map_append]
  refine ⟨more.map Message.unnumbered, ?_⟩
  rw [← story_acted coherent input acted c, ← fired]
  rcases play_perform_of_acted acted with same | same <;> rw [same]
  rfl

theorem undue_perform {start : Play} (acted : s.acted? now operation = some start) :
    (s.perform now operation).play.queue.due? now = none := by
  have undue : (start.fireDue now).1.queue.due? now = none :=
    (fireDue_keeps (P := fun _ => True) (fun _ _ _ _ => trivial) trivial).2
  rcases play_perform_of_acted acted with same | same <;> rw [same] <;> exact undue

end Session

namespace Play

variable {ahead rest : List Slot} {u v : String → List Message} {a b : Play} {now : Nat}

theorem allLines_congr {first second : Core} (program : first.program = second.program)
    (epoch : first.epoch = second.epoch) (slots : List Slot) (c : String) :
    allLines first slots c = allLines second slots c := by
  unfold allLines spoken?
  rw [program, epoch]

/-- The tasks that are due, if they come before all others. -/
def overdueSlots (play : Play) (now : Nat) : List Slot :=
  play.queue.slots.takeWhile (·.time ≤ now)

theorem mem_overdueSlots {slot : Slot} (member : slot ∈ a.overdueSlots now) :
    slot ∈ a.queue.slots ∧ slot.time ≤ now := by
  refine ⟨List.takeWhile_subset _ member, ?_⟩
  exact of_decide_eq_true (List.all_eq_true.1 List.all_takeWhile slot member)

/- Where only speech is overdue, settling it fires the tasks that are due and no others. -/
theorem settle_speech {a : Play}
    (speech : ∀ slot ∈ a.queue.slots, slot.time ≤ now → slot.isSpeech = true) :
    a.queue.slots = a.overdueSlots now ++ (a.fireDue now).1.queue.slots ∧
      (a.fireDue now).1.core = a.core ∧
      ∀ c, (a.fireDue now).1.story c = a.story c ++ allLines a.core (a.overdueSlots now) c := by
  have split : a.queue.slots = a.overdueSlots now ++ a.queue.slots.dropWhile (·.time ≤ now) :=
    List.takeWhile_append_dropWhile.symm
  obtain ⟨b, same, core, waiting, story⟩ := fireDue_of_speech split
    (fun _ member => (mem_overdueSlots member).2)
    (fun slot member => speech slot (mem_overdueSlots member).1 (mem_overdueSlots member).2)
  have undue : b.queue.due? now = none := by
    rw [Queue.due?, Queue.next?, waiting]
    have stops := List.head?_dropWhile_not (fun slot : Slot => decide (slot.time ≤ now)) a.queue.slots
    cases first : (a.queue.slots.dropWhile fun slot => decide (slot.time ≤ now)).head? with
    | none => rfl
    | some slot =>
      rw [first] at stops
      simpa using stops
  rw [same, fireDue_of_none undue, waiting]
  exact ⟨split, core, story⟩

end Play

namespace Session

open Play

variable {s r : Session} {now : Nat} {operation : Operation}

/- What is kept by small steps in two sessions is kept by an input. -/
theorem parallel_acted {program : Program} {may : Tempo → String → Prop} {meets : Nat → Nat → Prop}
    {pairs : Option String → Play → Play → Prop} (parallel : Parallel program may meets pairs)
    (allowed : ∀ tempo contact, may tempo contact) (meet : meets now now)
    (pair : pairs none s.play r.play) (input : operation.isInput = true) :
    Option.Rel (pairs none) (s.acted? now operation) (r.acted? now operation) := by
  cases operation with
  | choose contact index => exact parallel.choose? meet pair (allowed .typed contact) index
  | setVariable name value => exact .some (parallel.assign meet pair name value)
  | execute contact actions => exact parallel.execute? meet pair (allowed .immediate contact) actions
  | _ => cases input

theorem twins_acted {ahead : List Slot} {u v : String → List Message}
    (formed : s.play.program.WellFormed) (twins : Twins ahead u v s.play r.play)
    (late : ∀ slot ∈ ahead, slot.time ≤ now) (input : operation.isInput = true) :
    Option.Rel (TwinsOn s.play.program ahead u v none) (s.acted? now operation)
      (r.acted? now operation) :=
  parallel_acted (parallel_twins formed ahead u v) (fun _ _ => trivial) ⟨rfl, late⟩ ⟨rfl, twins⟩ input

theorem perform_of_acted {start : Play} (acted : s.acted? now operation = some start) :
    (s.perform now operation).play.core = (start.fireDue now).1.core ∧
      (s.perform now operation).play.queue.slots = (start.fireDue now).1.queue.slots ∧
      ∀ c, (s.perform now operation).play.story c = (start.fireDue now).1.story c := by
  rcases play_perform_of_acted acted with same | same <;> rw [same] <;> exact ⟨rfl, rfl, fun _ => rfl⟩

/-- Whether what is overdue is settled before an input or behind it, the input gets the same answer
and leaves the same threads; and where it is taken, every thread holds the same messages, the input's
own lines behind what was overdue or before it. -/
structure Swaps (s : Session) (now : Nat) (operation : Operation) : Prop where
  answers : (s.perform now .tick).answer now operation = s.answer now operation
  threads : ∀ c, ((s.perform now .tick).perform now operation).play.progress.thread? c =
    (s.perform now operation).play.progress.thread? c
  stories : ∀ c, ∃ overdue, (s.perform now .tick).play.story c = s.play.story c ++ overdue ∧
    (s.answer now operation = true → ∃ more,
      ((s.perform now .tick).perform now operation).play.story c =
        s.play.story c ++ overdue ++ s.ownLines now c operation ++ more ∧
      (s.perform now operation).play.story c =
        s.play.story c ++ s.ownLines now c operation ++ overdue ++ more)

/- Two sessions take the same input, one of them with some speech still to settle: once that has been
   said, they go on alike. -/
theorem perform_twins {ahead : List Slot} (coherent : s.play.Coherent)
    (input : operation.isInput = true)
    (twins : Twins ahead s.play.story
      (fun c => s.play.story c ++ allLines s.play.core ahead c) s.play r.play)
    (due : ∀ slot ∈ ahead, slot.time ≤ now) (speech : ∀ slot ∈ ahead, slot.isSpeech = true)
    {start other : Play} (acted : s.acted? now operation = some start)
    (after : r.acted? now operation = some other) :
    (r.perform now operation).play.core = (s.perform now operation).play.core ∧ ∀ c, ∃ more,
      (r.perform now operation).play.story c =
        s.play.story c ++ allLines s.play.core ahead c ++ s.ownLines now c operation ++ more ∧
      (s.perform now operation).play.story c =
        s.play.story c ++ s.ownLines now c operation ++ allLines s.play.core ahead c ++ more := by
  have acts := twins_acted coherent.formed twins due input
  rw [acted, after] at acts
  obtain ⟨played, pair⟩ : TwinsOn s.play.program _ _ _ none start other := by
    cases acts with
    | some both => exact both
  have moved := moves_acted coherent (Operation.ongoing_of_isInput input) acted
  -- The first one says what it still had to say; from there on nothing waits before the others in either.
  obtain ⟨b, same, core, waiting, story⟩ := fireDue_of_speech pair.slots due speech
  have lines : ∀ c, allLines start.core ahead c = allLines s.play.core ahead c :=
    allLines_congr moved.program moved.epoch ahead
  have level : Twins [] b.story other.story b other := by
    refine ⟨core.trans pair.core, waiting, fun c => ⟨[], ?_⟩⟩
    rw [List.append_nil, List.append_nil]
    exact ⟨rfl, rfl⟩
  have formed : b.program.WellFormed := by
    rw [show b.program = start.program from congrArg Core.program core, played]
    exact coherent.formed
  have fired := twins_fireDue formed level now
  obtain ⟨firstCore, _, firstStory⟩ := perform_of_acted acted
  obtain ⟨secondCore, _, secondStory⟩ := perform_of_acted after
  rw [same] at firstCore firstStory
  refine ⟨(secondCore.trans fired.core.symm).trans firstCore.symm, fun c => ?_⟩
  obtain ⟨more, left, right⟩ := fired.story c
  -- By the input itself both stories have gone on alike, and in the first one these are its own lines.
  obtain ⟨own, begun, behind⟩ := pair.story c
  rw [story_acted coherent input acted] at begun
  obtain rfl := List.append_cancel_left begun
  refine ⟨more, ?_, ?_⟩
  · rw [secondStory, right, behind]
  · rw [firstStory, left, story, story_acted coherent input acted, lines]

/- Where only speech is overdue, a session and the session after a tick are twins: the first one has this
   speech still to settle. -/
theorem twins_tick
    (speech : ∀ slot ∈ s.play.queue.slots, slot.time ≤ now → slot.isSpeech = true) :
    Twins (s.play.overdueSlots now) s.play.story
      (fun c => s.play.story c ++ allLines s.play.core (s.play.overdueSlots now) c) s.play
      (s.perform now .tick).play ∧
    ∀ c, (s.perform now .tick).play.story c =
      s.play.story c ++ allLines s.play.core (s.play.overdueSlots now) c := by
  obtain ⟨slots, core, story⟩ := settle_speech speech
  obtain ⟨tickCore, tickSlots, tickStory⟩ :=
    perform_of_acted (show s.acted? now .tick = some s.play from rfl)
  have said := fun c => (tickStory c).trans (story c)
  refine ⟨⟨(tickCore.trans core).symm, ?_, fun c => ⟨[], ?_⟩⟩, said⟩
  · rw [tickSlots]
    exact slots
  · rw [List.append_nil, List.append_nil]
    exact ⟨rfl, said c⟩

theorem swaps_of_speech (coherent : s.play.Coherent) (input : operation.isInput = true)
    (speech : ∀ slot ∈ s.play.queue.slots, slot.time ≤ now → slot.isSpeech = true) :
    s.Swaps now operation := by
  obtain ⟨twins, said⟩ := twins_tick speech
  generalize settles : s.perform now .tick = settled at twins said
  have due : ∀ slot ∈ s.play.overdueSlots now, slot.time ≤ now :=
    fun _ member => (mem_overdueSlots member).2
  have silent : ∀ slot ∈ s.play.overdueSlots now, slot.isSpeech = true :=
    fun slot member => speech slot (mem_overdueSlots member).1 (due slot member)
  have answers : settled.answer now operation = s.answer now operation := by
    rw [answer_eq settled now input, answer_eq s now input]
    have acts := twins_acted coherent.formed twins due input
    generalize s.acted? now operation = first at acts ⊢
    generalize settled.acted? now operation = second at acts ⊢
    cases acts <;> rfl
  cases taken : s.answer now operation with
  | false =>
    have refused := answers.trans taken
    refine ⟨by rw [settles, answers], fun c => ?_, fun c => ?_⟩
    · rw [settles, perform_refused input taken, perform_refused input refused]
      exact (twins.thread? c).symm
    · rw [settles, taken]
      exact ⟨_, said c, nofun⟩
  | true =>
    have too := answers.trans taken
    rw [answer_eq s now input] at taken
    rw [answer_eq settled now input] at too
    obtain ⟨start, acted⟩ := Option.isSome_iff_exists.1 taken
    obtain ⟨other, after⟩ := Option.isSome_iff_exists.1 too
    obtain ⟨same, stories⟩ := perform_twins coherent input twins due silent acted after
    refine ⟨by rw [settles, answers], fun c => ?_, fun c => ?_⟩
    · rw [settles]
      exact congrArg (fun core => core.threads.get? c) same
    · rw [settles]
      exact ⟨_, said c, fun _ => stories c⟩

/- An input is taken or refused by the story as it stands. One that is refused changes nothing, and
   what is overdue stays overdue. One that is taken adds its own lines to the threads, everything
   that was overdue or becomes due is settled behind them, and nothing is due afterwards. Where the tasks
   that are overdue only speak, this is what comes of settling them first, but for the place of
   the input's own lines. -/
theorem Arises.input_first (arises : s.Arises) (input : operation.isInput = true) (now : Nat) :
    s.answer now operation = s.accepts operation ∧
    (s.answer now operation = false → s.perform now operation = s) ∧
    (s.answer now operation = true → (s.perform now operation).play.queue.due? now = none ∧
      ∀ c, ∃ more, (s.perform now operation).play.story c =
        s.play.story c ++ s.ownLines now c operation ++ more) ∧
    ((∀ slot ∈ s.play.queue.slots, slot.time ≤ now → slot.isSpeech = true) →
      s.Swaps now operation) := by
  refine ⟨answer_eq_accepts s now input, perform_refused input, ?_,
    swaps_of_speech arises.coherent input⟩
  intro taken
  rw [answer_eq s now input] at taken
  obtain ⟨start, acted⟩ := Option.isSome_iff_exists.1 taken
  exact ⟨undue_perform acted, story_perform arises.coherent input acted⟩

/-- A round that says good-bye, ends the thread some time later, and still offers a choice. -/
def closing : String :=
  ":: A-Round-1 [initial_contact]\nHi\n[[Go|A-Round-2]]\n\n" ++
  ":: A-Round-2 [chat]\nBye.\n[Action: end_thread, delay: 5000]\n[[Wait|A-Round-3]]\n\n" ++
  ":: A-Round-3 [chat]\nStill here?\n"

theorem arises_closing {program : Program} (compiled : (compile closing).result = .ok program) :
    Arises ((start program {} .empty 1000).performAll pickOnce) := by
  have scripted : program.Scripted := Program.Compiled.scripted ⟨closing, compiled⟩
  apply Arises.performAll (.start {} .empty 1000 scripted)
  simp [pickOnce, Operation.Scripted]

def textsOf (s : Session) (contact : String) : List String :=
  (s.play.progress.history contact).map (·.text)

/-- At 4000 the reply is overdue, and the end of the thread is not. -/
def overdueReply (s : Session) : Bool :=
  s.play.queue.slots.all (fun slot => decide (slot.time ≤ 4000 → slot.isSpeech = true)) &&
    (s.performWithin 2 4000 (.choose "A" 0)).any (·.textsOf "A" = ["Hi", "Go", "Wait", "Bye."])

/-- At 9000 the end of the thread is overdue too. -/
def overdueEnd (s : Session) : Bool :=
  s.play.queue.slots.any (fun slot => decide (slot.time ≤ 9000 ∧ slot.task = ⟨"A", 0, .notices⟩)) &&
    s.play.progress.endings.has "A" &&
    (s.performWithin 3 9000 (.choose "A" 0)).any (fun t =>
      t.textsOf "A" = ["Hi", "Go", "Wait", "Bye.", Message.endText]) &&
    (s.performWithin 3 9000 .tick).any fun t =>
      !t.accepts (.choose "A" 0) && t.textsOf "A" = ["Hi", "Go", "Bye.", Message.endText]

theorem played_closing : (playedWithin 0 closing 1000 pickOnce).any (fun s =>
    s.accepts (.choose "A" 0) && (s.overdueReply && s.overdueEnd)) = true := by
  decide +kernel

/- A choice is picked while only a reply is overdue. -/
theorem input_first_closing : ∃ program : Program, (compile closing).result = .ok program ∧
    ∃ s, s = (start program {} .empty 1000).performAll pickOnce ∧ s.Arises ∧
      (Operation.choose "A" 0).isInput = true ∧
      (∀ slot ∈ s.play.queue.slots, slot.time ≤ 4000 → slot.isSpeech = true) ∧
      s.answer 4000 (.choose "A" 0) = true ∧
      (s.perform 4000 (.choose "A" 0)).textsOf "A" = ["Hi", "Go", "Wait", "Bye."] ∧
      (s.perform 4000 (.choose "A" 0)).play.queue.due? 4000 = none ∧
      s.Swaps 4000 (.choose "A" 0) := by
  obtain ⟨program, compiled, shown⟩ := played_of_any played_closing
  obtain ⟨accepted, runs⟩ := Bool.and_eq_true_iff.1 shown
  obtain ⟨silent, picked⟩ := Bool.and_eq_true_iff.1 (Bool.and_eq_true_iff.1 runs).1
  obtain ⟨t, within, texts⟩ := (Option.any_eq_true _ _).1 picked
  have speech : ∀ slot ∈ ((start program {} .empty 1000).performAll pickOnce).play.queue.slots,
      slot.time ≤ 4000 → slot.isSpeech = true :=
    fun slot member => of_decide_eq_true (List.all_eq_true.1 silent slot member)
  have arises := arises_closing compiled
  have input : (Operation.choose "A" 0).isInput = true := rfl
  obtain ⟨answers, _, taken, swaps⟩ := arises.input_first input 4000
  have answered := answers.trans accepted
  refine ⟨program, compiled, _, rfl, arises, input, speech, answered, ?_, (taken answered).1,
    swaps speech⟩
  rw [perform_of_performWithin within]
  exact of_decide_eq_true texts

/- The end of the thread is overdue, and a choice is taken in it: the player's line stands before the
   reply that was overdue. Once what is overdue has been settled, the same choice is refused. -/
theorem choice_taken_past_end : ∃ program : Program, (compile closing).result = .ok program ∧
    ∃ s, s = (start program {} .empty 1000).performAll pickOnce ∧ s.Arises ∧
      (∃ slot ∈ s.play.queue.slots, slot.time ≤ 9000 ∧ slot.task = ⟨"A", 0, .notices⟩) ∧
      s.play.progress.endings.has "A" = true ∧
      s.answer 9000 (.choose "A" 0) = true ∧
      (s.perform 9000 (.choose "A" 0)).textsOf "A" = ["Hi", "Go", "Wait", "Bye.", Message.endText] ∧
      (s.perform 9000 .tick).answer 9000 (.choose "A" 0) = false ∧
      ((s.perform 9000 .tick).perform 9000 (.choose "A" 0)).textsOf "A" =
        ["Hi", "Go", "Bye.", Message.endText] := by
  obtain ⟨program, compiled, shown⟩ := played_of_any played_closing
  obtain ⟨accepted, runs⟩ := Bool.and_eq_true_iff.1 shown
  have ended := (Bool.and_eq_true_iff.1 runs).2
  simp only [overdueEnd, Bool.and_eq_true, List.any_eq_true, decide_eq_true_eq] at ended
  obtain ⟨⟨⟨due, waits⟩, picked⟩, settled⟩ := ended
  obtain ⟨t, within, texts⟩ := (Option.any_eq_true _ _).1 picked
  obtain ⟨r, ticked, shut⟩ := (Option.any_eq_true _ _).1 settled
  obtain ⟨closed, after⟩ := Bool.and_eq_true_iff.1 shut
  have refused : r.answer 9000 (.choose "A" 0) = false := by
    rw [answer_eq_accepts r 9000 rfl]
    simpa using closed
  refine ⟨program, compiled, _, rfl, arises_closing compiled, due, waits, ?_, ?_, ?_, ?_⟩
  · rw [answer_eq_accepts _ 9000 rfl]
    exact accepted
  · rw [perform_of_performWithin within]
    exact of_decide_eq_true texts
  · rw [perform_of_performWithin ticked]
    exact refused
  · rw [perform_of_performWithin ticked, perform_refused rfl refused]
    exact of_decide_eq_true after

end Session
end ChatStory
