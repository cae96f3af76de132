import QuestLogic.Proofs.Session.Change
import QuestLogic.Session.Choice
import QuestLogic.Session.Encounter

/-!
# Flags, choices and encounters

Looking at flags meets a fault of the save image only where the image ends before the flags do
(`Session.eventState_error`), and with it looking at choices. Whatever is noted of an encounter is a
flag or a mark.
-/

namespace QuestLogic

namespace Image

variable {m : Image} {p : EventPtr} {e : Fault}

/-- A flag is read from an image that reaches to the end of the flags. -/
theorem readFlag_error (h : m.readFlag p = .error e) : m.size < Layout.size := by
  refine Nat.lt_of_not_le fun hm => ?_
  rw [readFlag_eq hm] at h
  cases h

theorem readEvent_error (h : m.readEvent p = .error e) : m.size < Layout.size := by
  refine readFlag_error (p := p) (e := e) ?_
  rw [readFlag, h]
  rfl

/-- A mark is read from an image that reaches to the end of the flags, if it has a place. -/
theorem marked_error {k : Mark} (h : m.marked k = .error e) (he : e.isCorruption = true) :
    m.size < Layout.size := by
  rcases hk : k.place with e' | _ | p
  · rw [marked, hk] at h
    cases h
    rw [Mark.place_error hk] at he
    cases he
  · rw [marked, hk] at h
    cases h
  · rw [marked_of_place hk] at h
    exact readFlag_error h

end Image

namespace Session

variable {K : Deed → Prop} {s : Session} {e : Fault}

/-- What is read from the image fails where reading from the image does. -/
theorem readSave_error {α : Type} {absent : α} {read : Image → Except Fault α}
    (hread : ∀ m, read m = .error e → m.size < Layout.size)
    (h : s.readSave absent read = .error e) : s.IsCutShort := by
  unfold readSave at h
  split at h
  · rename_i m hm
    exact ⟨m, hm, hread m h⟩
  · cases h

theorem eventState_error {p : EventPtr} (h : s.eventState p = .error e) : s.IsCutShort := by
  unfold eventState at h
  split_ifs at h
  exact readSave_error (fun _ => Image.readEvent_error) h

theorem eventFlag_error {p : EventPtr} (h : s.eventFlag p = .error e) : s.IsCutShort := by
  unfold eventFlag at h
  split_ifs at h
  exact readSave_error (fun _ => Image.readFlag_error) h

theorem marked_error {k : Mark} (h : s.marked k = .error e) (he : e.isCorruption = true) :
    s.IsCutShort :=
  readSave_error (fun _ hread => Image.marked_error hread he) h

/-! ## Choices -/

/-- Only a flag that cannot be read keeps a choice from being decided. -/
theorem holds_error {c : Choice} (h : s.holds c = .error e) : s.IsCutShort := by
  cases c with
  | eventFlag p expected =>
    rcases hstate : s.eventState p with e' | v
    · exact eventState_error hstate
    · rw [holds, hstate] at h
      cases h
  | complexEvent p xorMask expected mustEqual _ =>
    -- Once the flag has been read the choice is decided, one way or the other.
    rcases hstate : s.eventState p with e' | v
    · exact eventState_error hstate
    · rw [holds, complexHolds, hstate, Except.ok_bind] at h
      split_ifs at h
      all_goals cases h
  | _ => cases h

theorem allSet_error {ps : List EventPtr} (h : s.allSet ps = .error e) : s.IsCutShort := by
  induction ps with
  | nil => cases h
  | cons p rest ih =>
    rcases hflag : s.eventFlag p with e' | _ | _
    · exact eventFlag_error hflag
    · rw [allSet, hflag] at h
      cases h
    · rw [allSet, hflag] at h
      exact ih h

/-! ## Flags and marks -/

theorem obeys_setEvent {p : EventPtr} {on : Bool} (hK : K (.image (.flag p on))) :
    (rule K).Obeys (setEvent p on) :=
  obeys_onSave (Image.obeys_setFlag hK)

theorem obeys_setMark {k : Mark} {on : Bool}
    (hK : ∀ d : Image.Deed, d.OfMark k on → K (.image d)) : (rule K).Obeys (setMark k on) :=
  obeys_onSave (Image.obeys_setMark hK)

/-! ## Encounters -/

/-- What may be noted of an encounter. -/
inductive Deed.OfEncounter (e : Encounter) : Deed → Prop
  | done (h : e.setAfter ≠ 0) : OfEncounter e (.image (.flag e.setAfter true))
  | unique {d : Image.Deed} (zone : Zone) (hunique : e.oncePerChapter = true)
    (h : d.OfMark (.unique zone e.tile e.index) true) : OfEncounter e (.image d)
  | recent {d : Image.Deed} (halways : e.always = false) (h : d.OfMark (.recent e.index) true) :
    OfEncounter e (.image d)

variable {e : Encounter}

theorem obeys_noteDone (hK : ∀ d, Deed.OfEncounter e d → K d) : (rule K).Obeys (noteDone e) := by
  unfold noteDone
  split_ifs with h
  · exact Rule.obeys_pure _
  · exact obeys_setEvent (hK _ (.done h))

theorem obeys_noteUnique (hK : ∀ d, Deed.OfEncounter e d → K d) (h : e.oncePerChapter = true) :
    (rule K).Obeys (noteUnique e) :=
  Rule.obeys_get_bind fun s => obeys_setMark fun _ hd => hK _ (.unique s.zone h hd)

theorem obeys_noteSwitch (hK : ∀ d, Deed.OfEncounter e d → K d) :
    (rule K).Obeys (noteSwitch e) := by
  refine (obeys_noteDone hK).bind fun _ => ?_
  split_ifs with h
  · exact obeys_noteUnique hK h
  · exact Rule.obeys_pure _

theorem obeys_noteDialog (hK : ∀ d, Deed.OfEncounter e d → K d) :
    (rule K).Obeys (noteDialog e) := by
  refine (obeys_noteDone hK).bind fun _ => ?_
  split_ifs with halways h
  · exact Rule.obeys_pure _
  · have hrecent := obeys_setMark fun d hd => hK _ (.recent (Bool.eq_false_iff.2 halways) hd)
    exact (obeys_noteUnique hK h).bind fun _ => hrecent
  · exact obeys_setMark fun d hd => hK _ (.recent (Bool.eq_false_iff.2 halways) hd)

/-- What is won by a combat is the flag of its quest. -/
theorem obeys_noteCombat {combat : UInt16}
    (hK : ∀ q, CombatQuest.ofCombat? combat = some q → K (.image (.flag q.won true))) :
    (rule K).Obeys (noteCombat combat) := by
  unfold noteCombat
  split
  · rename_i q hq
    have hview : (rule K).Obeys (.view (·.allSet q.fought)) :=
      Rule.obeys_view fun _ _ h _ => allSet_error h
    refine hview.bind fun won => ?_
    split_ifs
    · exact obeys_setEvent (hK q hq)
    · exact Rule.obeys_pure _
  · exact Rule.obeys_pure _

end Session

end QuestLogic
