import QuestLogic.Proofs.Party.Company
import QuestLogic.Proofs.Session.Chapter

/-!
# Who takes part in a chapter

When the day of a new chapter breaks and when the party recovers, the purse, the marching order and
the numbers of the roster stay as they are, and so does the chapter once it has begun
(`Session.Together`). This holds of every image, and whether or not a fault is met.
-/

namespace QuestLogic.Session

variable {s t : Session}

/-- The same company in the same chapter. -/
structure Together (s t : Session) : Prop where
  company : s.party.SameCompany t.party
  chapter : t.chapter = s.chapter

theorem Together.refl (s : Session) : Together s s := ⟨.refl _, rfl⟩

/-- The company stays together, whatever faults are met. -/
def togetherRule : Rule Session where
  leads := Together
  permits _ _ := True
  refl := .refl
  trans h h' := ⟨h.company.trans h'.company, h'.chapter.trans h.chapter⟩

theorem together_onSave (x : Step Image Unit) : togetherRule.Obeys (onSave x) :=
  obeys_onSave_of_image (fun _ _ => ⟨.refl _, rfl⟩) fun _ _ => trivial

/-- Whoever holds the light that goes out keeps the number. -/
theorem together_putOut (s : Session) : Together s s.putOut.2 := by
  unfold putOut
  dsimp only
  split
  · exact ⟨Party.sameCompany_modify _ _ fun _ => rfl, rfl⟩
  · exact ⟨.refl _, rfl⟩

/-- A pass over the ledger changes nobody's number. -/
theorem allowsPass_together : AllowsPass togetherRule where
  setEvent _ _ := together_onSave _
  putOut := together_putOut
  ledger _ _ _ _ := ⟨.refl _, rfl⟩

/-- The day breaks over the same company, and in the new chapter. -/
theorem together_daybreak (c : Chapter) (start : ChapterStart) (s : Session) :
    Together { s with chapter := c } ((daybreak c start).run s).2 := by
  have hzone : togetherRule.Obeys (modify fun s => { s with zone := start.zone }) :=
    Rule.obeys_modify fun s => ⟨.refl s.party, rfl⟩
  have hclock : togetherRule.Obeys
      (modify fun s => { s with clock := s.clock.jump (morning s.clock.now start.timeElapsed) }) :=
    Rule.obeys_modify fun s => ⟨.refl s.party, rfl⟩
  have hexpire := obeys_expire_of_reduceLedger (allowsPass_together.reduceLedger _) expiryRounds
  have hlater := (together_onSave (Image.writeU16 Layout.chapter c.val.toUInt16)).bind fun _ =>
    hzone.bind fun _ => hclock.bind fun _ => hexpire.bind fun _ =>
      together_onSave Image.clearUnique
  rw [daybreak, setChapter, bind_assoc, Step.run_bind_ok (Step.run_modify _ s)]
  exact (hlater { s with chapter := c }).1

/-- To recover changes nobody's number. -/
theorem allowsRally_together : AllowsRally togetherRule where
  restore := Rule.obeys_modify fun _ => ⟨Party.sameCompany_mapActive _ fun _ => rfl, rfl⟩
  see _ := obeys_changeMember_of_party
    (fun _ => ⟨Party.sameCompany_modifyMember _ _ fun _ => rfl, rfl⟩) fun _ _ => trivial
  clear _ := together_onSave _

end QuestLogic.Session
