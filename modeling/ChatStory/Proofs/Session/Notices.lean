import ChatStory.Proofs.Session.Asking
import ChatStory.Proofs.Session.Requests

/-!
Notices. Until the notices of a contact come up, its thread stays open and what it has asked for waits.
Then those whom they unlock are announced in the order in which they were asked for, and the end of
the thread behind them.
-/
namespace ChatStory

def MessageKind.isNotice : MessageKind → Bool
  | unlockContact | endThread => true
  | _ => false

/-- What a notice tells in a thread. -/
structure Notice where
  kind : MessageKind
  text : String
  time : Nat
deriving DecidableEq

def Notice.ofUnlock (time : Nat) (target : String) : Notice :=
  ⟨.unlockContact, Message.unlockText target, time⟩

def Notice.ofEnd (time : Nat) : Notice := ⟨.endThread, Message.endText, time⟩

namespace Play

/-- The notices in the thread of a contact. -/
def notices (play : Play) (contact : String) : List Notice :=
  ((play.progress.history contact).filter (·.kind.isNotice)).map fun m => ⟨m.kind, m.text, m.timestamp⟩

/-- Those of some targets that are unlocked when the contact unlocks them one after the other. -/
def unlocking (play : Play) (contact : String) (time : Nat) : List String → List String
  | [] => []
  | target :: rest =>
    (if play.program.has target && play.canUnlock target then [target] else []) ++
      (play.unlock contact target time).unlocking contact time rest

/-- The play in which the requests of the contact have been taken to be delivered. -/
def released (play : Play) (contact : String) : Play :=
  play.revise fun p => { p with unlocks := p.unlocks.erase contact }

variable {a b : Play} {contact : String} {time : Nat}

end Play
end ChatStory
