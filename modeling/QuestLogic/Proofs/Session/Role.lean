import QuestLogic.Proofs.Session.Refusal

/-!
# Roles and the roster

Whoever has a role is in the roster (`Session.Peopled`): a role is given only to someone found
there, loading an image empties the roles, and nobody leaves the roster while the party is not
replaced (`Session.Change.peopled`). So in every run without such a replacement the roles lead to
members, and an action that means the characters of a role, or the active members, does not fail
for want of them (`Session.members_of_stages`).
-/

namespace QuestLogic

namespace Party

variable {p q : Party}

/-- Nobody joins the roster or leaves it. -/
theorem Change.ids (h : Change p q) : q.roster.map (·.id) = p.roster.map (·.id) := by
  cases h with
  | march h =>
    obtain ⟨rfl, -⟩ := setActive_eq_ok h
    rfl
  | members h => exact Character.map_id_eq h
  | _ => rfl

end Party

/-- The action changes the active members or the character in a role. -/
def Action.IsForCharacters : Action → Prop
  | .gainSkill .. | .gainCondition .. | .healCharacters .. | .learnSpell .. => True
  | _ => False

namespace Session

variable {s t : Session} {d : Deed}

/-- Every role is empty or with somebody in the roster. -/
def Peopled (s : Session) : Prop :=
  ∀ slot : Fin 6, s.roles[slot] = noRole ∨ ⟨s.roles[slot]⟩ ∈ s.party.roster.map (·.id)

theorem peopled_ofSettings (settings : Settings) (party : Party) :
    (ofSettings settings party).Peopled := by
  intro slot
  exact .inl (Vector.getElem_replicate slot.isLt)

/-- No change but that of the party gives a role to somebody who is not in the roster. -/
theorem Change.peopled (h : Change d s t) (hd : d ≠ .regroup) (hs : s.Peopled) : t.Peopled := by
  cases h with
  | load h =>
    obtain ⟨_, _, _, _, _, _, -, -, -, -, -, -, -, rfl⟩ := loaded_eq_ok.1 h
    exact fun slot => .inl (Vector.getElem_replicate slot.isLt)
  | party h =>
    intro slot
    rw [h.ids]
    exact hs slot
  | regroup => exact absurd rfl hd
  | @role _ id c hc slot =>
    intro slot'
    have hget : (s.roles.setIfInBounds slot.toNat id.val)[slot'] =
        if slot.toNat = slot'.val then id.val else s.roles[slot'] :=
      Vector.getElem_setIfInBounds slot'.isLt
    dsimp only
    rw [hget]
    split_ifs
    · exact .inr (Party.mem_ids_iff.2 ⟨c, hc⟩)
    · exact hs slot'
  | noRoles => exact fun slot => .inl (Vector.getElem_replicate slot.isLt)
  | note h =>
    rw [Peopled, h.roles, h.party]
    exact hs
  | _ => exact hs

/-! ## Runs -/

/-- One session comes from another by moves other than to replace the party, and by giving roles
kind by kind. -/
def Stages : Session → Session → Prop :=
  Relation.ReflTransGen fun s t => (∃ v : Move, v.KeepsParty ∧ t = (v.play.run s).2) ∨
    ∃ slot kind, t = ((fillRole slot kind).run s).2

/-- Whatever is done on the way, the party is not replaced. -/
theorem Stages.leads (h : Stages s t) (hs : s.FitsLedger) : Leads (· ≠ .regroup) s t := by
  induction h with
  | refl => exact .refl s
  | @tail u _ _ h ih =>
    refine ih.trans ?_
    rcases h with ⟨v, hv, rfl⟩ | ⟨slot, kind, rfl⟩
    · exact leads_play (fun d hd => ne_regroup_of_move hv hd) (ih.fitsLedger hs).length_le
    · exact (obeys_fillRole Deed.noConfusion Deed.noConfusion slot kind u).1

/-- A role that leads to somebody leads to a member of the roster. -/
theorem Peopled.exists_member (hs : s.Peopled) {slot : UInt8} {id : CharId}
    (h : s.role slot = .ok id) : id ∈ s.party.roster.map (·.id) := by
  unfold role at h
  split at h
  · cases h
  · rename_i c hc
    split_ifs at h with hempty
    cases h
    obtain ⟨hlt, rfl⟩ := Vector.getElem?_eq_some_iff.1 hc
    exact (hs ⟨slot.toNat, hlt⟩).resolve_left hempty

/-! ## Characters that actions mean -/

/-- Nobody is sought in the roster in vain. -/
def finding : Rule Session where
  leads _ _ := True
  permits e _ := ∀ id, e ≠ .unknownCharacter id
  refl _ := trivial
  trans _ _ := trivial

/-- A fault of the image is not about a character. -/
theorem finding_of_blaming {α : Type} {x : Step Session α} (h : Rule.blaming.Holds x s) :
    finding.Holds x s := by
  refine ⟨trivial, fun e he id hid => ?_⟩
  have hblame : e.isCorruption = true := h.2 e he
  rw [hid] at hblame
  cases hblame

/-- A role leads nowhere only if there is none of that number or nobody has it. -/
theorem role_ne_unknownCharacter {slot : UInt8} {e : Fault} (h : s.role slot = .error e)
    (id : CharId) : e ≠ .unknownCharacter id := by
  rintro rfl
  unfold role at h
  split at h
  · cases h
  · split_ifs at h
    cases h

theorem finding_rollAmount (min max : Int16) : finding.Obeys (rollAmount min max) := by
  have hroll : finding.Obeys (roll 0 rollLimit) := Rule.obeys_get_bind fun _ =>
    (Rule.obeys_modify fun _ => trivial).bind fun _ => Rule.obeys_pure _
  exact obeys_rollAmount_of_roll hroll min max

/-- Whoever an operand means is in the roster. -/
theorem targets_mem (hmanned : s.party.Manned) (hs : s.Peopled) {who : UInt8} {ids : List CharId}
    (h : s.targets who = .ok ids) : ∀ id ∈ ids, id ∈ s.party.roster.map (·.id) := by
  unfold targets at h
  split_ifs at h
  · cases h
    exact Party.manned_iff.1 hmanned
  · obtain ⟨id, hrole, hid⟩ := Except.bind_eq_ok.1 h
    cases hid
    exact fun id' hid' => List.mem_singleton.1 hid' ▸ hs.exists_member hrole

theorem targets_ne_unknownCharacter {who : UInt8} {e : Fault} (h : s.targets who = .error e)
    (id : CharId) : e ≠ .unknownCharacter id := by
  unfold targets at h
  split_ifs at h
  rcases Except.bind_eq_error.1 h with hrole | ⟨_, -, hpure⟩
  · exact role_ne_unknownCharacter hrole id
  · cases hpure

variable {f : Character → Character}

theorem finding_changeTargets (hmanned : s.party.Manned) (hs : s.Peopled)
    (hf : ∀ c, (f c).id = c.id) (who : UInt8) : finding.Holds (changeTargets who f) s := by
  refine Rule.holds_bind (Rule.obeys_view (fun _ _ => targets_ne_unknownCharacter) s) ?_
  intro ids t ht
  obtain ⟨htargets, rfl⟩ := Prod.mk.inj ht
  exact finding_of_blaming (blaming_changeMembers hf (targets_mem hmanned hs htargets))

theorem finding_gain {f : Int → Character → Character} (hmanned : s.party.Manned)
    (hs : s.Peopled) (hf : ∀ amount c, (f amount c).id = c.id) (min max : Int16) (who : UInt8) :
    finding.Holds (rollAmount min max >>= fun amount => changeTargets who (f amount)) s := by
  refine Rule.holds_bind (finding_rollAmount min max s) fun amount t ht => ?_
  -- The roll touches nothing but the dice.
  have hrolled : Rolled s ((rollAmount min max).run s).2 := (rolling_rollAmount min max s).1
  rw [ht] at hrolled
  obtain ⟨dice, -, rfl⟩ := hrolled
  exact finding_changeTargets (s := { s with dice }) hmanned hs (hf amount) who

theorem finding_teach {id : CharId} (hid : id ∈ s.party.roster.map (·.id)) (spell : SpellId) :
    finding.Holds (teach id spell) s := by
  obtain ⟨c, hc⟩ := Party.exists_member hid
  refine ⟨trivial, fun e he id' hid' => ?_⟩
  subst hid'
  rcases hlearn : c.spells.learn? spell with _ | spells
  · have hrun : (teach id spell).run s = (.error (.spellOutOfRange spell), s) :=
      Step.run_update_error (by simp only [hc, Except.ok_bind, hlearn]; rfl)
    rw [hrun] at he
    cases he
  · have hrun : (teach id spell).run s = (.ok (), _) :=
      Step.run_update_ok (by simp only [hc, Except.ok_bind, hlearn]; rfl)
    rw [hrun] at he
    cases he

/-- An action on characters finds everyone whom it means. -/
theorem finding_perform {a : Action} (ha : a.IsForCharacters) (hmanned : s.party.Manned)
    (hs : s.Peopled) : finding.Holds (perform a) s := by
  cases a with
  | gainSkill who skill min max =>
    exact finding_gain (f := fun amount c => { c with skills := c.skills.improve skill amount })
      hmanned hs (fun _ _ => rfl) min max who
  | gainCondition who condition min max =>
    exact finding_gain (f := fun amount c => c.adjustCondition condition amount)
      hmanned hs (fun _ _ => rfl) min max who
  | healCharacters who percent =>
    exact finding_changeTargets hmanned hs (fun c => (c.leads_treat percent).id_eq) who
  | learnSpell who spell =>
    refine Rule.holds_bind (Rule.obeys_view (fun _ _ => role_ne_unknownCharacter) s) ?_
    intro id t ht
    obtain ⟨hrole, rfl⟩ := Prod.mk.inj ht
    exact finding_teach (hs.exists_member hrole) spell
  | _ => exact ha.elim

/--
However a session is played, as long as its party is not replaced by another, every role is empty or
with somebody in the roster. So whoever a role leads to is found there, and an action on characters
does not fail because one of them is not in the party.
-/
theorem members_of_stages {settings : Settings} {party : Party} (hparty : party.Manned)
    (h : Stages (ofSettings settings party) s) :
    (∀ slot : Fin 6, s.roles[slot] = noRole ∨ ∃ c, s.party.member? ⟨s.roles[slot]⟩ = some c) ∧
    (∀ slot id, s.role slot = .ok id → ∃ c, s.party.member? id = some c) ∧
    ∀ a : Action, a.IsForCharacters → ∀ e t, (perform a).run s = (.error e, t) →
      ∀ id, e ≠ .unknownCharacter id := by
  have hlead := h.leads (fitsLedger_ofSettings settings party)
  have hpeopled : s.Peopled :=
    hlead.keeps (fun hd h hs => h.peopled hd hs) (peopled_ofSettings settings party)
  have hmanned : s.party.Manned :=
    hlead.keeps (P := fun s => s.party.Manned) (fun hd h hs => h.manned hd hs) hparty
  refine ⟨fun slot => ?_, fun slot id hrole => ?_, fun a ha e t hrun => ?_⟩
  · rw [← Party.mem_ids_iff]
    exact hpeopled slot
  · exact Party.mem_ids_iff.1 (hpeopled.exists_member hrole)
  · exact (finding_perform ha hmanned hpeopled).2 e (by rw [hrun])

/-- Owyn has been given a role and then left behind: he is still found, although he cannot learn a
spell that there is not. -/
theorem members_of_stages_left_behind :
    ∃ s t : Session, Party.initial.Manned ∧ Stages (ofSettings .usual .initial) s ∧
      s.role 2 = .ok .owyn ∧ (∃ c, s.party.member? .owyn = some c) ∧
      s.party.active = [.pug] ∧
      (perform (.learnSpell 2 ⟨0xff⟩)).run s = (.error (.spellOutOfRange ⟨0xff⟩), t) ∧
      ∀ id, Fault.spellOutOfRange ⟨0xff⟩ ≠ .unknownCharacter id := by
  let start : Session := ofSettings .usual .initial
  let chosen : Session := ((fillRole 2 3).run start).2
  let s : Session := ((perform (.updateCharacters [.pug])).run chosen).2
  have hparty : Party.initial.Manned := Party.formed_initial.manned
  have hstages : Stages start s := .tail (.single (.inr ⟨2, 3, rfl⟩))
    (.inl ⟨.perform (.updateCharacters [.pug]), fun _ => by simp, rfl⟩)
  have hrole : s.role 2 = .ok .owyn := rfl
  have hrun : (perform (.learnSpell 2 ⟨0xff⟩)).run s = (.error (.spellOutOfRange ⟨0xff⟩), s) := rfl
  obtain ⟨-, hmember, hfound⟩ := members_of_stages hparty hstages
  exact ⟨s, s, hparty, hstages, hrole, hmember 2 _ hrole, rfl, hrun,
    hfound (.learnSpell 2 ⟨0xff⟩) trivial _ _ hrun⟩

end Session

end QuestLogic
