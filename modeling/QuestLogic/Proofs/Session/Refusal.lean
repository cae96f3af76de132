import QuestLogic.Proofs.Party.Company
import QuestLogic.Proofs.Session.Roster

/-!
# Actions that are refused

An action that meets a fault keeps what it has done so far. Yet all but those that let time pass or
set a flag for a while have done nothing by then but roll the dice, unless the fault is one of the
save image (`Session.perform_refused`): what they cannot do shows before anything is changed. Of the
active members, who are changed one after the other, none is missing (`Session.Runs.manned`).
-/

namespace QuestLogic

/-- The dice have been rolled, any number of times. -/
def Dice.Rolled : Dice → Dice → Prop :=
  Relation.ReflTransGen fun d d' => ∃ lo hi, d' = (d.roll lo hi).2

/-! ## Faults of the image -/

/-- Whatever changes, no fault is met but one of the save image. -/
def Rule.blaming {σ : Type} : Rule σ where
  leads _ _ := True
  permits e _ := e.isCorruption = true
  refl _ := trivial
  trans _ _ := trivial

namespace Image

/-- A byte that is not read lies past the end. -/
theorem readU8_error {m : Image} {offset : Nat} {e : Fault} (h : m.readU8 offset = .error e) :
    e.isCorruption = true := by
  unfold readU8 check at h
  split_ifs at h <;> cases h
  rfl

/-- A byte can be rewritten unless it lies past the end. -/
theorem blaming_rewrite (byte : Nat) (g : UInt8 → UInt8) :
    Rule.blaming.Obeys (.update fun m : Image => return m.put byte (g (← m.readU8 byte))) := by
  refine Rule.obeys_update (fun _ _ _ => trivial) fun m e h => ?_
  rcases Except.bind_eq_error.1 h with hread | ⟨_, _, hput⟩
  · exact readU8_error hread
  · cases hput

theorem blaming_setFlag (p : EventPtr) (on : Bool) : Rule.blaming.Obeys (setFlag p on) :=
  blaming_rewrite p.location.1 fun b => withBit b p.location.2 on

theorem blaming_setFlags (on : Bool) (ps : List EventPtr) :
    Rule.blaming.Obeys (setFlags on ps) := by
  induction ps with
  | nil => exact Rule.obeys_pure _
  | cons p rest ih => exact (blaming_setFlag p on).bind fun _ => ih

theorem blaming_applyWrite (w : FlagWrite) : Rule.blaming.Obeys (applyWrite w) := by
  unfold applyWrite
  split
  · exact blaming_rewrite _ w.update
  · exact blaming_setFlags _ _

/-- A combat has a flag or needs none. -/
theorem blaming_setMark_combat (n : UInt16) (on : Bool) :
    Rule.blaming.Obeys (setMark (.combat n) on) := by
  by_cases hn : FlagRange.combatEncounter.count ≤ n.toNat
  · rw [setMark, Mark.place, if_pos hn]
    exact Rule.obeys_pure _
  · rw [setMark, Mark.place, if_neg hn, FlagRange.pointer_of_lt (Nat.lt_of_not_le hn)]
    exact blaming_setFlag _ on

end Image

namespace Session

variable {α β : Type} {s t u : Session}

theorem blaming_onSave {x : Step Image Unit} (hx : Rule.blaming.Obeys x) :
    Rule.blaming.Obeys (onSave x) := by
  intro s
  rcases hs : s.save with _ | m
  · rw [Rule.Holds, run_onSave_none hs]
    exact ⟨trivial, fun e he => by cases he⟩
  · rw [Rule.Holds, run_onSave_some hs]
    exact ⟨trivial, (hx m).2⟩

/-! ## Dice -/

/-- Nothing has changed but the dice, which have been rolled. -/
def Rolled (s t : Session) : Prop := ∃ dice, s.dice.Rolled dice ∧ t = { s with dice }

theorem Rolled.refl (s : Session) : Rolled s s := ⟨s.dice, .refl, rfl⟩

theorem Rolled.trans (h : Rolled s t) (h' : Rolled t u) : Rolled s u := by
  obtain ⟨_, hdice, rfl⟩ := h
  obtain ⟨dice, hdice', rfl⟩ := h'
  exact ⟨dice, hdice.trans hdice', rfl⟩

theorem Rolled.party_eq (h : Rolled s t) : t.party = s.party := by
  obtain ⟨_, -, rfl⟩ := h
  rfl

/-- Whatever faults are met, nothing happens but that dice are rolled. -/
def rolling : Rule Session where
  leads := Rolled
  permits _ _ := True
  refl := .refl
  trans := .trans

theorem rolling_view {f : Session → Except Fault α} : rolling.Obeys (.view f) :=
  Rule.obeys_view fun _ _ _ => trivial

theorem rolling_roll (lo hi : UInt32) : rolling.Obeys (roll lo hi) := fun s => by
  have hrolled : Rolled s { s with dice := (s.dice.roll lo hi).2 } :=
    ⟨_, .single ⟨lo, hi, rfl⟩, rfl⟩
  exact Rule.holds_get_bind
    (Rule.holds_bind (Rule.holds_modify hrolled) fun _ t _ => Rule.holds_pure _ t)

theorem rolling_rollAmount (min max : Int16) : rolling.Obeys (rollAmount min max) :=
  obeys_rollAmount_of_roll (rolling_roll _ _) min max

theorem rolling_pickByLot (slot kind : UInt8) : rolling.Obeys (pickByLot slot kind) :=
  obeys_pickByLot_of_roll (rolling_roll _ _) slot kind

/-! ## Refusals -/

/-- A fault that is not one of the save image finds nothing changed but the dice. -/
def Withdraws (x : Step Session α) (s : Session) : Prop :=
  ∀ e, (x.run s).1 = .error e → e.isCorruption = false → Rolled s (x.run s).2

theorem withdraws_of_rolling {x : Step Session α} (h : rolling.Holds x s) : Withdraws x s :=
  fun _ _ _ => h.1

theorem withdraws_of_blaming {x : Step Session α} (h : Rule.blaming.Holds x s) :
    Withdraws x s := fun e he hsound => by
  rw [h.2 e he] at hsound
  cases hsound

/-- An update happens all at once. -/
theorem withdraws_update (f : Session → Except Fault Session) (s : Session) :
    Withdraws (.update f) s := by
  intro e he _
  rcases hf : f s with _ | t
  · rw [Step.run_update_error hf]
    exact .refl s
  · rw [Step.run_update_ok hf] at he
    cases he

/-- So does an update of the party. -/
theorem withdraws_onParty (f : Party → Except Fault Party) (s : Session) :
    Withdraws (onParty (.update f)) s := by
  intro e he _
  rw [onParty, Step.run_zoom] at he ⊢
  rcases hf : f s.party with _ | p
  · rw [Step.run_update_error hf]
    exact .refl s
  · rw [Step.run_update_ok hf] at he
    cases he

/-- To look at the session first is of no account. -/
theorem withdraws_get_bind {f : Session → Step Session α} (h : Withdraws (f s) s) :
    Withdraws (get >>= f) s := by
  rw [Withdraws, Step.run_bind_ok (Step.run_get s)]
  exact h

/-- Dice may be rolled before a step that withdraws. -/
theorem withdraws_bind_of_rolling {x : Step Session α} {f : α → Step Session β}
    (hx : rolling.Holds x s) (hf : ∀ a t, x.run s = (.ok a, t) → Withdraws (f a) t) :
    Withdraws (x >>= f) s := by
  intro e he hsound
  obtain ⟨hrolled, -⟩ := hx
  rcases h : x.run s with ⟨e' | a, t⟩
  · rw [h] at hrolled
    rwa [Step.run_bind_error h]
  · rw [h] at hrolled
    rw [Step.run_bind_ok h] at he ⊢
    exact hrolled.trans (hf a t h e he hsound)

/-- After a step that withdraws may come what meets no fault but those of the image. -/
theorem withdraws_bind_of_blaming {x : Step Session α} {f : α → Step Session β}
    (hx : Withdraws x s) (hf : ∀ a t, x.run s = (.ok a, t) → Rule.blaming.Holds (f a) t) :
    Withdraws (x >>= f) s := by
  intro e he hsound
  rcases h : x.run s with ⟨e' | a, t⟩
  · rw [Step.run_bind_error h] at he ⊢
    have hrolled := hx e' (by rw [h])
    rw [h] at hrolled
    cases he
    exact hrolled hsound
  · rw [Step.run_bind_ok h] at he
    rw [(hf a t h).2 e he] at hsound
    cases hsound

/-! ### Characters -/

variable {f : Character → Character}

/-- Members of the roster are changed, each as often as it is named. -/
theorem run_changeMembers (hf : ∀ c, (f c).id = c.id) {ids : List CharId}
    (hids : ∀ id ∈ ids, id ∈ s.party.roster.map (·.id)) :
    (changeMembers f ids).run s = (.ok (), { s with party := s.party.changeNamed ids f }) := by
  -- The members who are still to come stay in the roster while others are changed.
  induction ids generalizing s with
  | nil =>
    rw [Party.changeNamed_nil]
    rfl
  | cons id rest ih =>
    obtain ⟨c, hc⟩ := Party.exists_member (hids id List.mem_cons_self)
    have hchange : (changeMember id f).run s =
        (.ok (), { s with party := s.party.modifyMember id f }) :=
      Step.run_update_ok (by rw [hc]; rfl)
    rw [changeMembers, Step.run_bind_ok hchange, Party.changeNamed_cons hf, ih]
    intro id' hid'
    rw [(Party.sameCompany_modifyMember s.party id hf).ids]
    exact hids id' (List.mem_cons_of_mem _ hid')

/-- To change members of the roster goes through. -/
theorem blaming_changeMembers (hf : ∀ c, (f c).id = c.id) {ids : List CharId}
    (hids : ∀ id ∈ ids, id ∈ s.party.roster.map (·.id)) :
    Rule.blaming.Holds (changeMembers f ids) s := by
  rw [Rule.Holds, run_changeMembers hf hids]
  exact ⟨trivial, fun e he => by cases he⟩

/-- Whoever an operand means, it is one character or active members. -/
theorem withdraws_changeTargets (hs : s.party.Manned) (hf : ∀ c, (f c).id = c.id) (who : UInt8) :
    Withdraws (changeTargets who f) s := by
  refine withdraws_bind_of_rolling (rolling_view s) fun ids t ht => ?_
  rw [Step.run_view, Prod.mk.injEq] at ht
  obtain ⟨htargets, rfl⟩ := ht
  unfold targets at htargets
  split_ifs at htargets
  · cases htargets
    exact withdraws_of_blaming (blaming_changeMembers hf (Party.manned_iff.1 hs))
  · obtain ⟨id, -, hid⟩ := Except.bind_eq_ok.1 htargets
    cases hid
    exact withdraws_bind_of_blaming (withdraws_update _ s) fun _ t _ => Rule.holds_pure _ t

/-- A gain is rolled for before anybody has it. -/
theorem withdraws_gain {f : Int → Character → Character} (hs : s.party.Manned)
    (hf : ∀ amount c, (f amount c).id = c.id) (min max : Int16) (who : UInt8) :
    Withdraws (rollAmount min max >>= fun amount => changeTargets who (f amount)) s := by
  refine withdraws_bind_of_rolling (rolling_rollAmount min max s) fun amount t ht => ?_
  have hrolled : Rolled s ((rollAmount min max).run s).2 := (rolling_rollAmount min max s).1
  rw [ht] at hrolled
  exact withdraws_changeTargets (hrolled.party_eq ▸ hs) (hf amount) who

theorem withdraws_give (item : Item) (who : UInt8) (s : Session) : Withdraws (give item who) s := by
  unfold give
  split_ifs
  · exact withdraws_onParty _ s
  · exact withdraws_bind_of_rolling (rolling_view s) fun _ t _ => withdraws_update _ t

/-! ### Texts, flags and special actions -/

theorem withdraws_fillRole (slot kind : UInt8) (s : Session) :
    Withdraws (fillRole slot kind) s := by
  refine withdraws_get_bind ?_
  have hassign : ∀ id t, Withdraws (assignRole slot id) t := fun _ => withdraws_update _
  split_ifs
  · exact hassign _ s
  · exact hassign _ s
  · dsimp only
    split
    · exact hassign _ s
    · exact withdraws_of_rolling (Rule.holds_throw trivial)
  -- A role that is given by lot is rolled for before anything is written down.
  · exact withdraws_bind_of_rolling (rolling_pickByLot slot kind s) fun id t _ => hassign id t
  · exact withdraws_of_rolling (Rule.holds_pure _ s)

/-- What is only changed meets no fault. -/
theorem withdraws_modify (f : Session → Session) (s : Session) : Withdraws (modify f) s :=
  withdraws_of_blaming (Rule.holds_modify trivial)

theorem withdraws_setTextVariable (slot source : UInt8) (s : Session) :
    Withdraws (setTextVariable slot source) s := by
  refine withdraws_get_bind ?_
  split_ifs
  · exact withdraws_fillRole slot source s
  · exact withdraws_modify _ s
  · exact withdraws_bind_of_rolling (rolling_view s) fun _ t _ => withdraws_modify _ t
  · exact withdraws_modify _ s
  · exact withdraws_modify _ s
  · exact withdraws_of_rolling (Rule.holds_pure _ s)

theorem withdraws_writeFlag (w : FlagWrite) (s : Session) : Withdraws (writeFlag w) s := by
  unfold writeFlag
  split_ifs
  · exact withdraws_modify _ s
  · exact withdraws_modify _ s
  · exact withdraws_of_blaming (blaming_onSave (Image.blaming_applyWrite w) s)

/-- A gamble meets no fault. -/
theorem withdraws_gamble (chance gamblerChance reward : UInt16) (s : Session) :
    Withdraws (gamble chance gamblerChance reward) s := by
  refine withdraws_bind_of_rolling (rolling_roll _ _ s) fun mine t _ => ?_
  refine withdraws_bind_of_rolling (rolling_roll _ _ t) fun theirs u _ => ?_
  dsimp only
  split_ifs
  · exact withdraws_modify _ u
  · exact withdraws_modify _ u

theorem withdraws_performSpecial (a : SpecialAction) (x y z : UInt16) (s : Session) :
    Withdraws (performSpecial a x y z) s := by
  cases a with
  | reduceGold | increaseGold | repairAllEquippedArmor | increaseContextVar | resetGambleValueTo
  | extinguishAllLightSources => exact withdraws_modify _ s
  | resetCombatState | setCombatState =>
    exact withdraws_of_blaming (blaming_onSave (Image.blaming_setMark_combat x _) s)
  | gamble => exact withdraws_gamble x y z s
  | unifyOwynAndPugsSpells => exact withdraws_update _ s
  | _ => exact withdraws_of_rolling (Rule.holds_pure _ s)

/-! ## Actions -/

/-- An action that neither lets time pass nor sets a flag for a while withdraws, where the active
members are in the roster. -/
theorem withdraws_perform {a : Action} (hs : s.party.Manned)
    (helapse : ∀ span, a ≠ .elapseTime span)
    (hreset : ∀ event span, a ≠ .setAddResetState event span) : Withdraws (perform a) s := by
  cases a with
  | elapseTime span => exact absurd rfl (helapse span)
  | setAddResetState event span => exact absurd rfl (hreset event span)
  | pushNextDialog | setEndOfDialogState => exact withdraws_modify _ s
  | setFlag write => exact withdraws_writeFlag write s
  | giveItem item who quantity => exact withdraws_give _ who s
  | loseItem | loseNOfItem | updateCharacters => exact withdraws_onParty _ s
  | gainSkill who skill min max =>
    exact withdraws_gain (f := fun amount c => { c with skills := c.skills.improve skill amount })
      hs (fun _ _ => rfl) min max who
  | gainCondition who condition min max =>
    exact withdraws_gain (f := fun amount c => c.adjustCondition condition amount)
      hs (fun _ _ => rfl) min max who
  | healCharacters who percent =>
    exact withdraws_changeTargets hs (fun c => (c.leads_treat percent).id_eq) who
  | setTimeExpiringState | loadSkillValue => exact withdraws_update _ s
  | learnSpell who spell =>
    exact withdraws_bind_of_rolling (rolling_view s) fun _ t _ => withdraws_update _ t
  | special a x y z => exact withdraws_performSpecial a x y z s
  | setTextVariable which what => exact withdraws_setTextVariable which what s
  | unknown => exact withdraws_of_rolling (Rule.holds_pure _ s)

/--
Where the party was put together as parties are, however the game has gone since and whatever faults
it has met, an action that neither lets time pass nor sets a flag for a while, and meets a fault
that is not one of the save image, leaves everything as it was, but for the dice, which may have
been rolled.
-/
theorem perform_refused {settings : Settings} {party : Party} {a : Action} {e : Fault}
    (hparty : party.Formed) (hrun : Runs Move.Enlists (ofSettings settings party) s)
    (helapse : ∀ span, a ≠ .elapseTime span)
    (hreset : ∀ event span, a ≠ .setAddResetState event span)
    (h : (perform a).run s = (.error e, t)) (he : e.isCorruption = false) :
    ∃ dice, s.dice.Rolled dice ∧ t = { s with dice } := by
  have hmanned : s.party.Manned :=
    hrun.manned (fitsLedger_ofSettings settings party) hparty.manned
  have hwithdraws := withdraws_perform hmanned helapse hreset e
  rw [h] at hwithdraws
  exact hwithdraws rfl he

/-- Pug has come in and nobody has been given a role, so that a condition goes to nobody, although
the dice have been rolled for it. -/
theorem perform_refused_role_unset :
    ∃ s t : Session, Party.initial.Formed ∧ Runs Move.Enlists (ofSettings .usual .initial) s ∧
      (perform (.gainCondition 4 .sick 1 5)).run s = (.error (.roleUnset 2), t) ∧
      (Fault.roleUnset 2).isCorruption = false ∧
      ∃ dice, s.dice.Rolled dice ∧ t = { s with dice } := by
  let start : Session := ofSettings .usual .initial
  let s : Session := ((perform (.updateCharacters [.pug, .owyn])).run start).2
  let t : Session := { s with dice := (s.dice.roll 0 rollLimit).2 }
  have hrun : Runs Move.Enlists start s :=
    .single ⟨.perform (.updateCharacters [.pug, .owyn]), trivial, rfl⟩
  have hrefused : (perform (.gainCondition 4 .sick 1 5)).run s = (.error (.roleUnset 2), t) := by
    have hroll : ∃ amount, (rollAmount 1 5).run s = (.ok amount, t) := by
      rw [rollAmount, if_neg (by decide)]
      exact ⟨_, rfl⟩
    have hrole : t.targets 4 = .error (.roleUnset 2) := rfl
    obtain ⟨amount, hroll⟩ := hroll
    rw [perform, Step.run_bind_ok hroll, changeTargets]
    exact Step.run_bind_error (by rw [Step.run_view, hrole]) _
  exact ⟨s, t, Party.formed_initial, hrun, hrefused, rfl,
    perform_refused Party.formed_initial hrun (fun _ => by simp) (fun _ _ => by simp) hrefused rfl⟩

end Session

end QuestLogic
