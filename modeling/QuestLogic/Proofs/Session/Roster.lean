import QuestLogic.Proofs.Party.Vitals
import QuestLogic.Proofs.Session.Move

/-!
# Nobody on the road but members of the roster

A party is put together of a roster and active members who are all in it (`Party.Formed`), and no
change of play makes it otherwise (`Party.Change.manned`). So they are in the roster throughout
every run in which parties that come from outside the dialogs are as sound (`Session.Runs.manned`).
-/

namespace QuestLogic

/-- Whatever happens to the characters of a list, each stays who it is. -/
theorem Character.map_id_eq {cs ds : List Character} (h : List.Forall₂ Character.Leads cs ds) :
    ds.map (·.id) = cs.map (·.id) := by
  induction h with
  | nil => rfl
  | cons hc _ ih => rw [List.map_cons, List.map_cons, hc.id_eq, ih]

namespace Party

variable {p q : Party}

theorem manned_iff : p.Manned ↔ ∀ id ∈ p.active, id ∈ p.roster.map (·.id) := by
  simp [Manned, place?]

/-- A party that has just been put together. -/
def Formed (p : Party) : Prop := ∃ roster active, ofRoster roster active = .ok p

/-- The party with which the story begins is put together so. -/
theorem formed_initial : Formed .initial :=
  ⟨Character.cast, [.locklear, .owyn, .gorath], rfl⟩

theorem Formed.manned (h : p.Formed) : p.Manned := by
  obtain ⟨_, _, h⟩ := h
  exact (setActive_eq_ok h).2

/-- Nobody leaves the roster, and nobody else is put on the road. -/
theorem Change.manned (h : Change p q) (hp : p.Manned) : q.Manned := by
  cases h with
  | march h => exact (setActive_eq_ok h).2
  | members h =>
    rw [manned_iff] at hp ⊢
    rwa [Character.map_id_eq h]
  | _ => exact hp

end Party

namespace Session

variable {s t : Session} {d : Deed}

/-- What every change of a party keeps, the changes of a session keep of its party, as long as it is
not replaced. -/
theorem Change.keeps_party {P : Party → Prop} (hP : ∀ {p q}, Party.Change p q → P p → P q)
    (h : Change d s t) (hd : d ≠ .regroup) (hs : P s.party) : P t.party := by
  cases h with
  | load h =>
    obtain ⟨_, _, _, _, _, gold, -, -, -, -, -, -, -, rfl⟩ := loaded_eq_ok.1 h
    exact hP (.purse s.party ⟨gold⟩) hs
  | party h => exact hP h hs
  | regroup => exact absurd rfl hd
  | note h => rwa [h.party]
  | _ => exact hs

theorem Change.manned (h : Change d s t) (hd : d ≠ .regroup) (hs : s.party.Manned) :
    t.party.Manned :=
  h.keeps_party Party.Change.manned hd hs

/-- The party is replaced only by one whose active members are in its roster. -/
def Move.Enlists : Move → Prop
  | .regroup p => p.Manned
  | _ => True

/-- The party is not replaced from outside the dialogs. -/
def Move.KeepsParty (v : Move) : Prop := ∀ p, v ≠ .regroup p

theorem ne_regroup_of_passage (hd : d.OfPassage) : d ≠ .regroup := by
  cases hd <;> exact Deed.noConfusion

theorem ne_regroup_of_action {a : Action} (hd : a.Does d) : d ≠ .regroup := by
  rintro rfl
  cases a with
  | elapseTime => exact ne_regroup_of_passage hd rfl
  | setFlag => rcases hd with h | ⟨_, _, h⟩ <;> cases h
  | setAddResetState | gainSkill | gainCondition | setTextVariable =>
    rcases hd with h | h <;> cases h
  | _ => cases hd

/-- No move but the one that replaces the party does so. -/
theorem ne_regroup_of_move {v : Move} (hv : v.KeepsParty) (hd : v.Does d) : d ≠ .regroup := by
  rintro rfl
  cases v with
  | perform => exact ne_regroup_of_action hd rfl
  | performAll =>
    obtain ⟨_, _, hd⟩ := hd
    exact ne_regroup_of_action hd rfl
  | chain =>
    obtain ⟨_, _, _, _, _, hd⟩ := hd
    exact ne_regroup_of_action hd rfl
  | transition =>
    rcases hd with hd | ⟨_, _, _, _, _, hd⟩
    · cases hd with
      | passage hd => exact ne_regroup_of_passage hd rfl
    · exact ne_regroup_of_action hd rfl
  | elapse | passTime | reduceLedger => exact ne_regroup_of_passage hd rfl
  | noteDialog | noteScene | noteSwitch => cases hd
  | regroup p => exact hv p rfl
  | _ =>
    -- What is left names the changes one by one, and a new party is not among them.
    simp [Move.Does] at hd

/-- What every change of a party keeps is kept throughout a run in which the party is not replaced
from outside the dialogs. -/
theorem Runs.keeps_party {P : Party → Prop} (hP : ∀ {p q}, Party.Change p q → P p → P q)
    (h : Runs Move.KeepsParty s t) (hfit : s.FitsLedger) (hs : P s.party) : P t.party :=
  h.keeps (K := (· ≠ .regroup)) (I := fun s => P s.party)
    (fun _ hv _ hd => ne_regroup_of_move hv hd) (fun hd h hs => h.keeps_party hP hd hs) hfit hs

/-- However the game goes, active members are in the roster. -/
theorem Runs.manned (h : Runs Move.Enlists s t) (hfit : s.FitsLedger) (hs : s.party.Manned) :
    t.party.Manned := by
  suffices t.FitsLedger ∧ t.party.Manned from this.2
  induction h with
  | refl => exact ⟨hfit, hs⟩
  | @tail u _ _ h ih =>
    obtain ⟨hfit, hs⟩ := ih
    obtain ⟨v, hv, rfl⟩ := h
    -- Only a party that comes from outside the dialogs is not one of changes of play.
    by_cases hregroup : ∃ p, v = .regroup p
    · obtain ⟨p, rfl⟩ := hregroup
      exact ⟨⟨hfit.capacity, hfit.bounded⟩, hv⟩
    · have hlead : Leads (· ≠ .regroup) u (v.play.run u).2 :=
        leads_play (fun _ hd => ne_regroup_of_move (fun p h => hregroup ⟨p, h⟩) hd) hfit.length_le
      exact ⟨hlead.fitsLedger hfit, hlead.keeps (P := fun s => s.party.Manned)
        (fun hd h hs => h.manned hd hs) hs⟩

end Session

end QuestLogic
