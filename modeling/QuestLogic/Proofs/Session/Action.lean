import QuestLogic.Proofs.Session.Branch
import QuestLogic.Proofs.Session.Passage

/-!
# Actions, change by change

`Action.Does` says which changes an action may be made of: only an action that begins a timed effect
adds to the ledger, only one that writes flags writes to the save image, and so on. From it follows
what a list of actions and a chain of snippets are made of.
-/

namespace QuestLogic

namespace Session

variable {K : Deed → Prop}

/-! ## Roles -/

/-- What is done with a member of the roster meets a fault of its own if there is none. -/
theorem obeys_withMember {id : CharId} {f : Session → Character → Except Fault Session}
    (hok : ∀ s c t, s.party.member? id = some c → f s c = .ok t → Leads K s t)
    (herr : ∀ s c e, f s c = .error e → e.isCorruption = false) :
    (rule K).Obeys (.update fun s => do f s (← s.party.member id)) := by
  refine obeys_update (fun s t h => ?_) fun s e h => ?_
  all_goals
    rcases hc : s.party.member id with e' | c
    all_goals rw [hc] at h
  · cases h
  · exact hok s c t (Party.member_eq_ok.1 hc) h
  · cases h
    rw [Party.member_error hc]
    rfl
  · exact herr s c e h

theorem obeys_assignRole (hrole : K .role) (hnote : K .note) (slot : UInt8) (id : CharId) :
    (rule K).Obeys (assignRole slot id) := by
  refine obeys_withMember (fun s c t hc h => ?_) fun s c e h => by cases h
  cases h
  refine ((Change.role hc slot).leads hrole).trans ((Change.note ?_).leads hnote)
  constructor <;> rfl

/-- To pick by lot is within every rule that a roll is within. -/
theorem obeys_pickByLot_of_roll {ρ : Rule Session} (hroll : ρ.Obeys (roll 0 roleRollLimit))
    (slot kind : UInt8) : ρ.Obeys (pickByLot slot kind) := by
  refine Rule.obeys_get_bind fun s => ?_
  split
  · exact Rule.obeys_pure _
  · exact hroll.bind fun _ => Rule.obeys_pure _

theorem obeys_pickByLot (hnote : K .note) (slot kind : UInt8) :
    (rule K).Obeys (pickByLot slot kind) := obeys_pickByLot_of_roll (obeys_roll hnote _ _) slot kind

theorem obeys_throw {α : Type} {e : Fault} (he : e.isCorruption = false) :
    (rule K).Obeys (throw e : Step Session α) :=
  fun s => Rule.holds_throw fun hcorrupt => by
    rw [he] at hcorrupt
    cases hcorrupt

/-- To fill a role is within every rule within which it is given to whoever is picked, and that
permits that there is nobody to be picked. -/
theorem obeys_fillRole_of_assignRole {ρ : Rule Session} {slot : UInt8}
    (hassign : ∀ id, ρ.Obeys (assignRole slot id)) (hlot : ∀ kind, ρ.Obeys (pickByLot slot kind))
    (hnobody : ∀ place s, ρ.permits (.noActiveMember place) s) (kind : UInt8) :
    ρ.Obeys (fillRole slot kind) := by
  refine Rule.obeys_get_bind fun s => ?_
  split_ifs
  · exact hassign _
  · exact hassign _
  · dsimp only
    split
    · exact hassign _
    · exact fun s => Rule.holds_throw (hnobody _ s)
  · exact (hlot kind).bind hassign
  · exact Rule.obeys_pure _

theorem obeys_fillRole (hrole : K .role) (hnote : K .note) (slot kind : UInt8) :
    (rule K).Obeys (fillRole slot kind) :=
  obeys_fillRole_of_assignRole (obeys_assignRole hrole hnote slot) (obeys_pickByLot hnote slot)
    (fun _ _ hcorrupt => by cases hcorrupt) kind

theorem obeys_fillUsualRoles (hrole : K .role) (hnote : K .note) :
    (rule K).Obeys fillUsualRoles := by
  have hclear : (rule K).Obeys (modify fun s => { s with roles := .replicate 6 noRole }) :=
    Rule.obeys_modify fun s => (Change.noRoles s).leads hrole
  have hfill := obeys_fillRole (K := K) hrole hnote
  exact hclear.bind fun _ => (hfill _ _).bind fun _ => (hfill _ _).bind fun _ =>
    (hfill _ _).bind fun _ => hfill _ _

/-- A role that is not filled is no fault of the image. -/
theorem role_error {s : Session} {slot : UInt8} {e : Fault} (h : s.role slot = .error e) :
    e.isCorruption = false := by
  unfold role at h
  repeat' split at h
  all_goals cases h
  all_goals rfl

/-- To fill a text slot is within every rule within which a role is filled, a text is put down and
the name of an item is looked up. -/
theorem obeys_setTextVariable_of_fillRole {ρ : Rule Session} {slot source : UInt8}
    (hfill : ρ.Obeys (fillRole slot source)) (htext : ∀ text, ρ.Obeys (setText slot text))
    (hname : ρ.Obeys (.view selectedItemName)) : ρ.Obeys (setTextVariable slot source) := by
  refine Rule.obeys_get_bind fun s => ?_
  -- A source that names a character gives a role as well; the others only fill in a text.
  split_ifs
  · exact hfill
  · exact htext _
  · exact hname.bind htext
  · exact htext _
  · exact htext _
  · exact Rule.obeys_pure _

theorem obeys_setTextVariable (hrole : K .role) (hnote : K .note) (slot source : UInt8) :
    (rule K).Obeys (setTextVariable slot source) := by
  have htext : ∀ text, (rule K).Obeys (setText slot text) := fun text =>
    obeys_note hnote fun s => by constructor <;> rfl
  have hname : (rule K).Obeys (.view selectedItemName) := obeys_view fun s e h => by
    unfold selectedItemName at h
    split at h <;> cases h
    rfl
  exact obeys_setTextVariable_of_fillRole (obeys_fillRole hrole hnote slot source) htext hname

/-! ## Characters and the party -/

/-- To change a character is within every rule that lets the party be changed so and permits any
fault. -/
theorem obeys_changeMember_of_party {ρ : Rule Session} {id : CharId} {f : Character → Character}
    (hlead : ∀ s, ρ.leads s { s with party := s.party.modifyMember id f })
    (hpermit : ∀ e s, ρ.permits e s) : ρ.Obeys (changeMember id f) := by
  refine Rule.obeys_update (fun s t h => ?_) fun s e _ => hpermit e s
  obtain ⟨_, -, hok⟩ := Except.bind_eq_ok.1 h
  cases hok
  exact hlead s

theorem obeys_changeMember (hparty : K .party) (id : CharId) {f : Character → Character}
    (hf : ∀ c, Character.Leads c (f c)) : (rule K).Obeys (changeMember id f) := by
  refine obeys_withMember (fun s c t hc h => ?_) fun s c e h => by cases h
  cases h
  exact leads_party hparty (Party.leads_modifyMember s.party id fun c _ => hf c)

theorem obeys_changeMembers (hparty : K .party) {f : Character → Character}
    (hf : ∀ c, Character.Leads c (f c)) (ids : List CharId) :
    (rule K).Obeys (changeMembers f ids) := by
  induction ids with
  | nil => exact Rule.obeys_pure _
  | cons id rest ih => exact (obeys_changeMember hparty id hf).bind fun _ => ih

theorem obeys_changeTargets (hparty : K .party) (who : UInt8) {f : Character → Character}
    (hf : ∀ c, Character.Leads c (f c)) : (rule K).Obeys (changeTargets who f) := by
  have htargets : (rule K).Obeys (.view (·.targets who)) := obeys_view fun s e h => by
    unfold targets at h
    split_ifs at h
    rcases hrole : s.role (who - 2) with e' | c
    · rw [hrole] at h
      cases h
      exact role_error hrole
    · rw [hrole] at h
      cases h
  exact htargets.bind (obeys_changeMembers hparty hf)

theorem obeys_giveTo (hparty : K .party) (id : CharId) (item : Item) :
    (rule K).Obeys (giveTo id item) := by
  refine obeys_withMember (fun s c t hc h => ?_) fun s c e h => ?_
  all_goals
    split at h
    all_goals cases h
  · rename_i v hv
    refine leads_party hparty (Party.leads_modifyMember s.party id fun c' hc' => ?_)
    rw [hc] at hc'
    cases hc'
    exact (Character.Change.inventory (.add hv)).leads
  · rfl

/-- An item that is given away. -/
theorem obeys_give (hparty : K .party) (item : Item) (who : UInt8) :
    (rule K).Obeys (give item who) := by
  unfold give
  split_ifs
  · exact obeys_onParty hparty (Party.obeys_gainItem item)
  · have hrole : (rule K).Obeys (.view (·.role (who - 2))) :=
      obeys_view fun _ _ h => role_error h
    exact hrole.bind fun id => obeys_giveTo hparty id item

theorem obeys_testSkill (hnote : K .note) (skill : SkillType) (best : Bool) :
    (rule K).Obeys (testSkill skill best) := by
  refine obeys_update (fun s t h => ?_) fun s e h => ?_
  all_goals
    split at h
    all_goals cases h
  · refine (Change.note ?_).leads hnote
    constructor <;> rfl
  · rfl

theorem obeys_teach (hparty : K .party) (id : CharId) (spell : SpellId) :
    (rule K).Obeys (teach id spell) := by
  refine obeys_withMember (fun s c t hc h => ?_) fun s c e h => ?_
  all_goals
    split at h
    all_goals cases h
  · exact leads_party hparty (Party.leads_modifyMember s.party id fun c' _ =>
      (Character.Change.spells c' _).leads)
  · rfl

/-- Two characters who learn from each other. -/
theorem obeys_shareSpells (hparty : K .party) (a b : CharId) :
    (rule K).Obeys (shareSpells a b) := by
  refine obeys_update (fun s t h => ?_) fun s e h => ?_
  -- Either of the two may be missing, and then nobody learns anything.
  all_goals
    rcases ha : s.party.member a with e' | c
    all_goals
      rcases hb : s.party.member b with e'' | d
      all_goals
        rw [ha, hb] at h
        cases h
  · have hlearn : ∀ (p : Party) (id : CharId), Party.Leads p
        (p.modifyMember id fun e => { e with spells := c.spells.union d.spells }) := fun p id =>
      Party.leads_modifyMember p id fun e _ => (Character.Change.spells e _).leads
    exact leads_party hparty ((hlearn s.party a).trans (hlearn _ b))
  · rw [Party.member_error ha]
    rfl
  · rw [Party.member_error ha]
    rfl
  · rw [Party.member_error hb]
    rfl

/-- Gold that changes hands, and what is noted of it. -/
theorem obeys_purse (hparty : K .party) (f : Session → Royals) :
    (rule K).Obeys (modify fun s => { s with party.gold := f s }) :=
  Rule.obeys_modify fun s => leads_party hparty (Party.Change.purse s.party (f s)).leads

/-- A gamble is within every rule that its rolls and both of its outcomes are within. -/
theorem obeys_gamble_of_roll {ρ : Rule Session} {reward : UInt16}
    (hroll : ρ.Obeys (roll 0 rollLimit))
    (hwin : ρ.Obeys (modify fun s => { s.payBard ⟨reward.toUInt32⟩ with contextValue := 1 }))
    (hlose : ρ.Obeys (modify fun s => { s with contextValue := 0 }))
    (chance gamblerChance : UInt16) : ρ.Obeys (gamble chance gamblerChance reward) := by
  refine hroll.bind fun mine => hroll.bind fun theirs => ?_
  dsimp only
  split_ifs
  · exact hwin
  · exact hlose

theorem obeys_gamble (hparty : K .party) (hnote : K .note) (chance gamblerChance reward : UInt16) :
    (rule K).Obeys (gamble chance gamblerChance reward) := by
  -- A win pays the purse, and to lose touches nothing but what is noted.
  refine obeys_gamble_of_roll (obeys_roll hnote _ _) (Rule.obeys_modify fun s => ?_)
    (obeys_note hnote fun s => by constructor <;> rfl) chance gamblerChance
  have hpaid := Party.Change.purse s.party (s.party.gold + ⟨reward.toUInt32⟩)
  refine (leads_party hparty hpaid.leads).trans ((Change.note ?_).leads hnote)
  constructor <;> rfl

/-! ## Single actions -/

/-- The changes that a special action may be made of. -/
inductive Deed.OfSpecial (operand : UInt16) : SpecialAction → Deed → Prop
  | reduceGold : OfSpecial operand .reduceGold .party
  | increaseGold : OfSpecial operand .increaseGold .party
  | repairArmor : OfSpecial operand .repairAllEquippedArmor .party
  | resetCombat {d : Image.Deed} (h : d.OfMark (.combat operand) false) :
    OfSpecial operand .resetCombatState (.image d)
  | setCombat {d : Image.Deed} (h : d.OfMark (.combat operand) true) :
    OfSpecial operand .setCombatState (.image d)
  | contextVar : OfSpecial operand .increaseContextVar .note
  | gamble : OfSpecial operand .gamble .note
  | gambled : OfSpecial operand .gamble .party
  | gambleValue : OfSpecial operand .resetGambleValueTo .note
  | putAway : OfSpecial operand .extinguishAllLightSources .party
  | douse : OfSpecial operand .extinguishAllLightSources .douse
  | glow : OfSpecial operand .extinguishAllLightSources .glow
  | shareSpells : OfSpecial operand .unifyOwynAndPugsSpells .party

theorem obeys_performSpecial {a : SpecialAction} {x : UInt16}
    (hK : ∀ d, Deed.OfSpecial x a d → K d) (y z : UInt16) :
    (rule K).Obeys (performSpecial a x y z) := by
  cases a with
  | reduceGold => exact obeys_purse (hK _ .reduceGold) _
  | increaseGold => exact obeys_purse (hK _ .increaseGold) _
  | repairAllEquippedArmor => exact obeys_mapActive (hK _ .repairArmor) Character.leads_repairArmor
  | resetCombatState => exact obeys_onSave (Image.obeys_setMark fun d hd => hK _ (.resetCombat hd))
  | setCombatState => exact obeys_onSave (Image.obeys_setMark fun d hd => hK _ (.setCombat hd))
  | increaseContextVar => exact obeys_note (hK _ .contextVar) fun s => by constructor <;> rfl
  | gamble => exact obeys_gamble (hK _ .gambled) (hK _ .gamble) x y z
  | resetGambleValueTo => exact obeys_note (hK _ .gambleValue) fun s => by constructor <;> rfl
  | extinguishAllLightSources =>
    exact obeys_extinguish (hK _ .putAway) (hK _ .douse) (hK _ .glow)
  | unifyOwynAndPugsSpells => exact obeys_shareSpells (hK _ .shareSpells) _ _
  | _ => exact Rule.obeys_pure _

end Session

/-- The changes that an action may be made of. -/
def Action.Does (a : Action) (d : Session.Deed) : Prop :=
  match a with
  | .pushNextDialog _ | .setEndOfDialogState _ | .loadSkillValue _ _ => d = .note
  | .setFlag write => d = .note ∨ ∃ w : Image.Deed, w.OfWrite write ∧ d = .image w
  | .giveItem _ _ _ | .loseItem _ _ | .loseNOfItem _ _ | .healCharacters _ _ | .updateCharacters _
  | .learnSpell _ _ => d = .party
  | .gainSkill _ _ _ _ | .gainCondition _ _ _ _ => d = .note ∨ d = .party
  | .elapseTime _ => d.OfPassage
  | .setAddResetState event duration =>
    d = .image (.flag event true) ∨ d = .begin .resetState event Effect.apart duration
  | .setTimeExpiringState kind flags subject duration => d = .begin kind subject flags duration
  | .special a operand _ _ => Session.Deed.OfSpecial operand a d
  | .setTextVariable _ _ => d = .note ∨ d = .role
  | .unknown _ _ => False

namespace Session

variable {K : Deed → Prop}

theorem obeys_writeFlag {w : FlagWrite} (hnote : K .note)
    (hK : ∀ d : Image.Deed, d.OfWrite w → K (.image d)) : (rule K).Obeys (writeFlag w) := by
  unfold writeFlag
  split_ifs
  · exact obeys_note hnote fun s => by constructor <;> rfl
  · exact obeys_note hnote fun s => by constructor <;> rfl
  · exact obeys_onSave (Image.obeys_applyWrite hK)

/-- To roll an amount is within every rule that a roll is within. -/
theorem obeys_rollAmount_of_roll {ρ : Rule Session} (hroll : ρ.Obeys (roll 0 rollLimit))
    (min max : Int16) : ρ.Obeys (rollAmount min max) := by
  unfold rollAmount
  split_ifs
  · exact Rule.obeys_pure _
  · exact hroll.bind fun _ => Rule.obeys_pure _

theorem obeys_rollAmount (hnote : K .note) (min max : Int16) :
    (rule K).Obeys (rollAmount min max) := obeys_rollAmount_of_roll (obeys_roll hnote _ _) min max

theorem obeys_addEffect {kind : EffectKind} {subject : UInt16} {flags : UInt8} {duration : Time}
    (hK : K (.begin kind subject flags duration)) :
    (rule K).Obeys (addEffect kind subject flags duration) := by
  refine obeys_update (fun s t h => ?_) fun s e h => ?_
  all_goals
    split at h
    all_goals cases h
  · rename_i l hl
    exact (Change.begin hl).leads hK
  · rfl

/-- An action makes no change but those it may be made of. -/
theorem obeys_perform {a : Action} (hK : ∀ d, a.Does d → K d) : (rule K).Obeys (perform a) := by
  cases a with
  | pushNextDialog target => exact obeys_note (hK _ rfl) fun s => by constructor <;> rfl
  | setFlag write => exact obeys_writeFlag (hK _ (.inl rfl)) fun d hd => hK _ (.inr ⟨d, hd, rfl⟩)
  | giveItem item who quantity => exact obeys_give (hK _ rfl) _ _
  | loseItem item quantity => exact obeys_onParty (hK _ rfl) (Party.obeys_loseItem _ _)
  | loseNOfItem item quantity => exact obeys_onParty (hK _ rfl) (Party.obeys_loseExactly _ _)
  | gainSkill who skill min max =>
    refine (obeys_rollAmount (hK _ (.inl rfl)) min max).bind fun amount => ?_
    exact obeys_changeTargets (hK _ (.inr rfl)) who fun c => (Character.Change.improve c _ _).leads
  | gainCondition who condition min max =>
    refine (obeys_rollAmount (hK _ (.inl rfl)) min max).bind fun amount => ?_
    exact obeys_changeTargets (hK _ (.inr rfl)) who fun c =>
      (Character.Change.condition c _ _).leads
  | healCharacters who percent =>
    exact obeys_changeTargets (hK _ rfl) who fun c => c.leads_treat percent
  | elapseTime time => exact (allowsTime_of_passage hK).elapse time
  | setAddResetState event duration =>
    exact (obeys_onSave (Image.obeys_setFlag (hK _ (.inl rfl)))).bind fun _ =>
      obeys_addEffect (hK _ (.inr rfl))
  | setTimeExpiringState kind flags subject duration => exact obeys_addEffect (hK _ rfl)
  | setEndOfDialogState state => exact obeys_note (hK _ rfl) fun s => by constructor <;> rfl
  | updateCharacters active => exact obeys_onParty (hK _ rfl) (Party.obeys_setActive active)
  | loadSkillValue which skill => exact obeys_testSkill (hK _ rfl) _ _
  | learnSpell who spell =>
    have hrole : (rule K).Obeys (.view (·.role who)) := obeys_view fun _ _ h => role_error h
    exact hrole.bind fun id => obeys_teach (hK _ rfl) id spell
  | special a x y z => exact obeys_performSpecial hK y z
  | setTextVariable which what =>
    exact obeys_setTextVariable (hK _ (.inr rfl)) (hK _ (.inl rfl)) _ _
  | unknown kind data => exact Rule.obeys_pure _

/-- No action loads an image. -/
theorem keepsLength_of_action {a : Action} {d : Deed} (hd : a.Does d) : d.KeepsLength := by
  cases a with
  | setFlag write =>
    obtain rfl | ⟨w, -, rfl⟩ := hd
    all_goals trivial
  | setAddResetState | gainSkill | gainCondition | setTextVariable =>
    obtain rfl | rfl := hd
    all_goals trivial
  | unknown kind data => exact hd.elim
  | _ => cases hd <;> trivial

theorem not_isCutShort_perform {s : Session} (hs : ¬s.IsCutShort) (a : Action) :
    ¬((perform a).run s).2.IsCutShort :=
  (obeys_perform (fun _ hd => keepsLength_of_action hd) s).1.keeps
    (fun hd h => h.not_isCutShort hd) hs

/-- A fault that is passed over leaves behind what its action had done. -/
theorem run_performOrSkip (a : Action) (s : Session) :
    ((performOrSkip a).run s).2 = ((perform a).run s).2 := by
  rw [Step.run, Step.run, performOrSkip]
  rcases perform a s with ⟨e | u, t⟩ <;> rfl

theorem obeys_performOrSkip {a : Action} (hK : ∀ d, a.Does d → K d) :
    (rule K).Obeys (performOrSkip a) := by
  intro s
  obtain ⟨hlead, hfault⟩ := obeys_perform hK s
  rw [Rule.Holds, Step.run, performOrSkip]
  rw [Step.run] at hlead hfault
  rcases h : perform a s with ⟨e | u, t⟩
  -- Of the faults of the action only those of the image are handed on.
  · rw [h] at hlead hfault
    refine ⟨hlead, fun e' he' => ?_⟩
    dsimp only at he' ⊢
    split_ifs at he' with hcorrupt
    cases he'
    exact hfault e rfl
  · rw [h] at hlead
    exact ⟨hlead, fun e' he' => by cases he'⟩

/-- Over a whole image an action goes through or is passed over. -/
theorem run_performOrSkip_eq {s : Session} (hs : ¬s.IsCutShort) (a : Action) :
    (performOrSkip a).run s = (.ok (), ((perform a).run s).2) := by
  have hfault := (obeys_perform (K := fun _ => True) (a := a) (fun _ _ => trivial) s).2
  have hsound := not_isCutShort_perform hs a
  rw [Step.run] at hfault hsound
  rw [Step.run, Step.run, performOrSkip]
  rcases hrun : perform a s with ⟨e | _, t⟩
  · rw [hrun] at hfault hsound
    have he : ¬e.isCorruption = true := fun he => hsound (hfault e rfl he)
    dsimp only
    rw [if_neg he]
  · rfl

/-! ## Lists of actions and chains -/

theorem not_isCutShort_foldl_perform {s : Session} (hs : ¬s.IsCutShort) (as : List Action) :
    ¬(as.foldl (fun s a => ((perform a).run s).2) s).IsCutShort := by
  induction as generalizing s with
  | nil => exact hs
  | cons a rest ih => exact ih (not_isCutShort_perform hs a)

/-- Over a whole image actions are carried out to the last one, each from what the one before has
left. -/
theorem run_performAll_eq {s : Session} (hs : ¬s.IsCutShort) (as : List Action) :
    (performAll as).run s = (.ok (), as.foldl (fun s a => ((perform a).run s).2) s) := by
  induction as generalizing s with
  | nil => rfl
  | cons a rest ih =>
    rw [performAll, Step.run_bind_ok (run_performOrSkip_eq hs a), ih (not_isCutShort_perform hs a)]
    rfl

theorem obeys_performAll {as : List Action} (hK : ∀ a ∈ as, ∀ d, a.Does d → K d) :
    (rule K).Obeys (performAll as) := by
  induction as with
  | nil => exact Rule.obeys_pure _
  | cons a rest ih =>
    exact (obeys_performOrSkip (hK a List.mem_cons_self)).bind fun _ =>
      ih fun b hb => hK b (List.mem_cons_of_mem a hb)

end Session

/-- The changes that the snippets of a dialog may be made of. -/
def DialogStore.Does (dialogs : DialogStore) (d : Session.Deed) : Prop :=
  ∃ target snippet, dialogs.get target = .ok snippet ∧ ∃ a ∈ snippet.actions, a.Does d

namespace Session

variable {K : Deed → Prop} {dialogs : DialogStore}

/-- To look up a snippet that is not there is no fault of the image. -/
theorem get_error {t : Target} {e : Fault} (h : dialogs.get t = .error e) :
    e.isCorruption = false := by
  unfold DialogStore.get at h
  split at h <;> cases h
  rfl

/-- A look that finds a snippet changes nothing. -/
theorem run_get_snippet {t : Target} {snippet : Snippet} (h : dialogs.get t = .ok snippet)
    (s : Session) : (Step.view fun _ => dialogs.get t).run s = (.ok snippet, s) := by
  rw [Step.run_view, h]

/-- Neither does a look that finds none. -/
theorem run_get_missing {t : Target} {e : Fault} (h : dialogs.get t = .error e) (s : Session) :
    (Step.view fun _ => dialogs.get t : Step Session Snippet).run s = (.error e, s) := by
  rw [Step.run_view, h]

/-- To look up a snippet changes nothing, and what comes next may rely on its being there. -/
theorem obeys_get_bind {α : Type} {t : Target} {f : Snippet → Step Session α}
    (hf : ∀ snippet, dialogs.get t = .ok snippet → (rule K).Obeys (f snippet)) :
    (rule K).Obeys (Step.view (fun _ => dialogs.get t) >>= f) := by
  intro s
  refine Rule.holds_bind (obeys_view (fun _ _ h => get_error h) s) fun snippet u hu => ?_
  exact hf snippet (congrArg Prod.fst hu) u

/-- A chain makes no change but those that its snippets may be made of. -/
theorem obeys_chainFrom (hK : ∀ d, dialogs.Does d → K d) (first : Target) (left : Nat)
    (current : Target) : (rule K).Obeys (chainFrom dialogs first left current) := by
  -- Every snippet of the chain takes one from those that are left.
  induction left generalizing current with
  | zero => exact obeys_throw rfl
  | succ left ih =>
    have hperform : ∀ target snippet, dialogs.get target = .ok snippet →
        (rule K).Obeys (performAll snippet.actions) := fun target snippet h =>
      obeys_performAll fun a ha d hd => hK d ⟨target, snippet, h, a, ha, hd⟩
    unfold chainFrom
    refine obeys_get_bind fun snippet hsnippet => ?_
    refine (hperform current snippet hsnippet).bind fun _ => ?_
    have hbranches : (rule K).Obeys (.view (·.lastHolding snippet.branches)) :=
      Rule.obeys_view fun _ _ h _ => lastHolding_error h
    refine hbranches.bind fun next => ?_
    split
    · exact Rule.obeys_pure _
    · refine obeys_get_bind fun following hfollowing => ?_
      split_ifs
      · exact Rule.obeys_pure _
      · exact hperform _ _ hfollowing
      · exact ih _

theorem obeys_chain (hK : ∀ d, dialogs.Does d → K d) (first : Target) :
    (rule K).Obeys (chain dialogs first) := obeys_chainFrom hK first maxChain first

theorem obeys_performSnippet (hK : ∀ d, dialogs.Does d → K d) (target : Option Target) :
    (rule K).Obeys (performSnippet dialogs target) := by
  unfold performSnippet
  split
  · rename_i t
    exact obeys_get_bind fun snippet h =>
      obeys_performAll fun a ha d hd => hK d ⟨t, snippet, h, a, ha, hd⟩
  · exact Rule.obeys_pure _

end Session

end QuestLogic
