import ChatStory.Proofs.Session.Run

/-!
The setting of a story: the program that is played, the epoch, and how long a typing bubble stays.
Whatever happens in a story, it stays in its setting, until it begins anew or goes on with another
program; epochs are then counted on.
-/
namespace ChatStory

structure Setting where
  program : Program
  epoch : Nat
  indicator : Nat

/-- The story went on or began anew in between. -/
structure Setting.Leads (before after : Setting) : Prop where
  epoch : before.epoch ≤ after.epoch
  indicator : after.indicator = before.indicator

theorem Setting.Leads.of_eq {before after : Setting} (same : after = before) :
    Leads before after :=
  same ▸ ⟨Nat.le_refl _, rfl⟩

theorem Setting.Leads.trans {a b c : Setting} (first : Leads a b) (second : Leads b c) : Leads a c :=
  ⟨Nat.le_trans first.epoch second.epoch, second.indicator.trans first.indicator⟩

namespace Play

def setting (play : Play) : Setting := ⟨play.program, play.epoch, play.indicator⟩

variable (a : Play)

theorem setting_putThread (contact : String) (thread : ThreadState) :
    (a.putThread contact thread).setting = a.setting := by
  rw [putThread_eq]
  rfl

theorem setting_setUnlocked (contact : String) : (a.setUnlocked contact).setting = a.setting := by
  rw [setUnlocked_eq]
  rfl

theorem spans_setting (time : Nat) : SpansAll time fun a b => b.setting = a.setting where
  refl _ := rfl
  trans first second := second.trans first
  noted _ _ _ _ _ _ _ := rfl
  scheduled _ _ _ _ _ _ := rfl
  said _ _ _ _ := rfl
  typed _ _ := rfl
  opened a contact := setting_putThread a contact .active
  unlocked := setting_setUnlocked
  assigned _ _ _ _ := rfl
  told _ _ _ := rfl
  ended a contact := setting_putThread a contact .ended

theorem setting_fire (slot : Slot) : (a.fire slot).setting = a.setting :=
  (spans_setting slot.time).fire a

theorem setting_beginStory (now : Nat) : (a.beginStory now).setting = a.setting :=
  (spans_setting now).beginStory a

theorem setting_resumeTimeline (now : Nat) : (a.resumeTimeline now).setting = a.setting := by
  unfold resumeTimeline
  dsimp only
  rw [(spans_setting now).foldl fun play contact => ?_, (spans_setting now).foldl fun play pending => ?_]
  all_goals rfl

theorem lasting_setting (setting : Setting) : Lasting fun play => play.setting = setting where
  fires {play slot} same _ := (setting_fire play.dropFirst slot).trans same
  notes same := same

theorem setting_fireDue (now : Nat) : (a.fireDue now).1.setting = a.setting :=
  (lasting_setting a.setting).fireDue rfl now

end Play

namespace Session

open Play

variable {s : Session} {now : Nat} {operation : Operation}

theorem Aside.setting {a b : Play} (aside : Aside a b) : b.setting = a.setting := by
  cases aside <;> rfl

theorem setting_perform (s : Session) (now : Nat) (ongoing : operation.Ongoing) :
    (s.perform now operation).play.setting = s.play.setting := by
  refine perform_keeps (lasting_setting s.play.setting) rfl (fun start => (spans_setting now).acted ongoing) ?_ ?_
  · rintro program rfl
    cases ongoing
  · intro _ unacted waits
    exact (aside_of_unacted ongoing unacted waits).setting

/- Epochs are counted on where the story begins anew or goes on with another program. -/
theorem leads_acted {start : Play} (acted : s.acted? now operation = some start) :
    s.play.setting.Leads start.setting := by
  cases restarts : operation.restarts with
  | false => exact .of_eq ((spans_setting now).acted restarts acted)
  | true =>
    cases operation with
    | switchProgram program =>
      obtain ⟨rfl, _⟩ := begun_of_switch acted
      rw [setting_beginStory]
      exact ⟨Nat.le_succ _, rfl⟩
    | reset =>
      cases acted
      rw [setting_beginStory]
      exact ⟨Nat.le_succ _, rfl⟩
    | _ => cases restarts

theorem leads_unacted (acted : s.acted? now operation = none) (other : operation ≠ .flush) :
    s.play.setting.Leads (s.perform now operation).play.setting := by
  cases restarts : operation.restarts with
  | false => exact .of_eq (aside_of_unacted restarts acted other).setting
  | true =>
    cases operation with
    | switchProgram program =>
      rw [play_of_unbegun acted]
      exact ⟨Nat.le_succ _, rfl⟩
    | reset => cases acted
    | _ => cases restarts

variable {allowed : Operation → Prop}

theorem leads_acts {a b : Play} (acts : Acts allowed a b) : a.setting.Leads b.setting := by
  cases acts with
  | acted _ acted => exact leads_acted acted
  | unacted _ unacted other => exact leads_unacted unacted other
  | noted | still => exact .of_eq rfl

theorem leads_follows {a : Play} {moments : List Moment} (follows : Follows allowed a moments) :
    ∀ m ∈ moments, a.setting.Leads m.play.setting := by
  induction follows with
  | nil => exact List.forall_mem_nil _
  | acted acts _ ih =>
    have first := leads_acts acts
    exact List.forall_mem_cons.2 ⟨first, fun m member => first.trans (ih m member)⟩
  | @fired a slot _ _ _ ih =>
    have first := Setting.Leads.of_eq (setting_fire a.dropFirst slot)
    exact List.forall_mem_cons.2 ⟨first, fun m member => first.trans (ih m member)⟩

theorem leads_perform (s : Session) (now : Nat) (operation : Operation) :
    s.play.setting.Leads (s.perform now operation).play.setting := by
  have follows : Follows (fun _ => True) s.play (s.moments now operation) :=
    (follows_moments s now trivial).1
  apply leads_follows follows (.acted (s.perform now operation).play)
  unfold moments
  simp

end Session
end ChatStory
