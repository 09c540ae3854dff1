import ChatStory.Proofs.Session.Granularity
import ChatStory.Proofs.Session.Walk

/-!
What a listener can keep of a story: all histories, variables, thread states and unlocks. Whoever
had them before an operation and hears what is announced during it has them afterwards, and nothing that
is heard had happened before.
-/
namespace ChatStory

structure Account where
  histories : Table String (List Message)
  values : Variables
  threads : Table String ThreadState
  unlocked : NameSet
deriving DecidableEq

namespace Account

/-- The account after an event. A typing bubble is not kept. -/
def hear (account : Account) : Event → Account
  | .messageAdded message =>
    let history := account.histories.getD message.contact []
    if message.kind = .typing then account
    else { account with histories := account.histories.insert message.contact (history ++ [message]) }
  | .variableChanged name value => { account with values := account.values.insert name value }
  | .threadChanged contact thread => { account with threads := account.threads.insert contact thread }
  | .contactUnlocked contact => { account with unlocked := account.unlocked.add contact }
  | .actionExecuted .. => account

/-- The account after some events. -/
def after (account : Account) (events : List Event) : Account := events.foldl hear account

/-- The event does not tell of what was so before. Values are compared as a script compares them, so a
value that is not a number differs from itself. -/
def News (account : Account) : Event → Prop
  | .variableChanged name value => (account.values.get? name).any (·.same value) = false
  | .threadChanged contact thread => account.threads.get? contact ≠ some thread
  | .contactUnlocked contact => account.unlocked.has contact = false
  | .messageAdded _ | .actionExecuted .. => True

/-- Each event is news to whoever has heard those before it. -/
def AllNews : Account → List Event → Prop
  | _, [] => True
  | account, event :: rest => account.News event ∧ (account.hear event).AllNews rest

theorem after_append (account : Account) (first second : List Event) :
    account.after (first ++ second) = (account.after first).after second :=
  List.foldl_append

theorem allNews_append (account : Account) (first second : List Event) :
    account.AllNews (first ++ second) ↔
      account.AllNews first ∧ (account.after first).AllNews second := by
  induction first generalizing account with
  | nil => simp [AllNews, after]
  | cons event rest ih => simp [AllNews, after, ih, and_assoc]

theorem allNews_one {account : Account} {event : Event} (news : account.News event) :
    account.AllNews [event] := ⟨news, trivial⟩

end Account

namespace Play

def account (play : Play) : Account where
  histories := play.progress.histories
  values := play.progress.values
  threads := play.progress.threads
  unlocked := play.progress.unlocked

/-- What was announced on the way tells all of the change, and nothing that did not change. -/
structure Tells (a b : Play) (news : List Event) : Prop where
  events : b.events.toList = a.events.toList ++ news
  account : a.account.after news = b.account
  news : a.account.AllNews news

variable {a b c : Play} {news more : List Event}

namespace Tells

theorem refl (a : Play) : Tells a a [] := ⟨by simp, rfl, trivial⟩

theorem trans (first : Tells a b news) (second : Tells b c more) : Tells a c (news ++ more) := by
  refine ⟨?_, ?_, ?_⟩
  · rw [second.events, first.events, List.append_assoc]
  · rw [Account.after_append, first.account, second.account]
  · rw [Account.allNews_append, first.account]
    exact ⟨first.news, second.news⟩

theorem announce {event : Event} (before : b.account = a.account.hear event)
    (events : b.events = a.events.push event) (news : a.account.News event) : Tells a b [event] :=
  ⟨by rw [events, Array.toList_push], before.symm, Account.allNews_one news⟩

theorem of_quiet (events : b.events = a.events) (account : b.account = a.account) : Tells a b [] :=
  ⟨by rw [events, List.append_nil], account.symm, trivial⟩

end Tells

theorem tells_say (a : Play) (contact : String) {saying : Saying} (time : Nat)
    (kept : saying.kind ≠ .typing) : ∃ news, Tells a (a.say contact saying time) news := by
  refine ⟨_, .announce ?_ rfl trivial⟩
  simp only [Account.hear, kept, if_false]
  rfl

theorem tells_putThread (a : Play) (contact : String) (thread : ThreadState) :
    ∃ news, Tells a (a.putThread contact thread) news := by
  unfold putThread
  dsimp only
  split
  · rename_i had
    -- Nothing is announced, but the table is written again.
    refine ⟨[], .of_quiet rfl ?_⟩
    have threads : a.progress.threads.insert contact thread = a.progress.threads :=
      Table.ext_get? fun other => by
        rw [Table.get?_insert]
        split
        · rename_i same
          rw [same]
          exact had.symm
        · rfl
    simp only [account, revise, threads]
  · rename_i fresh
    exact ⟨_, .announce rfl rfl fresh⟩

theorem tells_setUnlocked (a : Play) (contact : String) :
    ∃ news, Tells a (a.setUnlocked contact) news := by
  unfold setUnlocked
  split
  · exact ⟨[], .refl a⟩
  · rename_i fresh
    exact ⟨_, .announce rfl rfl (Bool.eq_false_iff.2 fresh)⟩

theorem tells_step {may : ThreadState → Prop} (step : Step may a b) : ∃ news, Tells a b news := by
  cases step with
  | quiet program events histories nextId threads unlocked values =>
    refine ⟨[], .of_quiet events ?_⟩
    rw [account, account, histories, values, threads, unlocked]
  | said contact time kept => exact tells_say a contact time kept
  | typed contact time => exact ⟨_, .announce rfl rfl trivial⟩
  | put contact allowed => exact tells_putThread a contact _
  | unlocked contact => exact tells_setUnlocked a contact
  | assigned fresh => exact ⟨_, .announce rfl rfl fresh⟩
  | told contact action => exact ⟨_, .announce rfl rfl trivial⟩

/- The account of a walk, from the accounts of its steps. -/
theorem tells_walks {may : ThreadState → Prop} (walks : Walks may a b) : ∃ news, Tells a b news := by
  induction walks with
  | refl => exact ⟨[], .refl a⟩
  | tail _ step ih =>
    obtain ⟨news, before⟩ := ih
    obtain ⟨more, after⟩ := tells_step step
    exact ⟨news ++ more, before.trans after⟩

end Play

namespace Session

end Session
end ChatStory
