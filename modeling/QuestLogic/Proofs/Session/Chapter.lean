import QuestLogic.Proofs.Session.Action

/-!
# How a chapter begins, change by change

A chapter begins in four parts (`Session.transition_eq`): the day breaks, which runs out timed
effects and forgets what is met once in a chapter; the purse is set aside and settled; the party
recovers; and a chain tells how the chapter opens. Each part says which changes it is made of, and
so does the whole (`Session.obeys_transition`).
-/

namespace QuestLogic.Session

variable {K : Deed → Prop} {dialogs : DialogStore}

/-! ## The parts of a beginning -/

/-- The day breaks. -/
def daybreak (c : Chapter) (start : ChapterStart) : Step Session Unit := do
  setChapter c
  modify fun s => { s with zone := start.zone }
  modify fun s => { s with clock := s.clock.jump (morning s.clock.now start.timeElapsed) }
  expire expiryRounds
  onSave Image.clearUnique

/-- The purse is set aside, except for the first chapter. -/
def setAside (c : Chapter) : Step Session Unit :=
  if c ≠ .first then do
    let s ← get
    onSave (Image.setStash c s.party.gold)
  else pure ()

/-- The party recovers, and counts its improvements as seen. -/
def rally : Step Session Unit := do
  modify (·.mapActive Character.restore)
  clearUnseen ((← get).party.roster.map (·.id))

/-- A chain tells how the chapter opens. -/
def tell (story : Story) (d : DialogStore) (start : ChapterStart) : Step Session ChapterStart := do
  performSnippet d story.commonSnippet
  if let some first := start.snippet then chain d first
  return start

/-- A chapter begins part by part. -/
theorem transition_eq (c : Chapter) (story : Story) (d : DialogStore) :
    transition c story d = (do
      let start ← Step.view fun _ => story.start c
      daybreak c start
      setAside c
      settlePurse c
      rally
      tell story d start) := by
  unfold transition daybreak setAside rally
  split_ifs
  all_goals
    simp only [bind_assoc, pure_bind]
    rfl

/-- A chapter that has begun did so in each of the parts. -/
theorem transition_eq_ok {s t : Session} {c : Chapter} {story : Story} {d : DialogStore}
    {start : ChapterStart} (h : (transition c story d).run s = (.ok start, t)) :
    ∃ start' s₁ s₂ s₃ s₄, story.start c = .ok start' ∧ (daybreak c start').run s = (.ok (), s₁) ∧
      (setAside c).run s₁ = (.ok (), s₂) ∧ (settlePurse c).run s₂ = (.ok (), s₃) ∧
      rally.run s₃ = (.ok (), s₄) ∧ (tell story d start').run s₄ = (.ok start, t) := by
  rw [transition_eq] at h
  obtain ⟨start', _, hstart, h⟩ := Step.run_bind_eq_ok h
  rw [Step.run_view, Prod.mk.injEq] at hstart
  obtain ⟨hstart, rfl⟩ := hstart
  obtain ⟨_, s₁, hdawn, h⟩ := Step.run_bind_eq_ok h
  obtain ⟨_, s₂, haside, h⟩ := Step.run_bind_eq_ok h
  obtain ⟨_, s₃, hsettle, h⟩ := Step.run_bind_eq_ok h
  obtain ⟨_, s₄, hrally, htell⟩ := Step.run_bind_eq_ok h
  exact ⟨start', s₁, s₂, s₃, s₄, hstart, hdawn, haside, hsettle, hrally, htell⟩

/-- The changes that the beginning of a chapter is made of, besides what its snippets do. -/
inductive Deed.OfChapter : Deed → Prop
  | passage {d : Deed} (h : OfPassage d) : OfChapter d
  | place : OfChapter .place
  | stash {d : Image.Deed} (h : d.OfStash) : OfChapter (.image d)
  | chapter {d : Image.Deed} (h : d.OfField Layout.chapter 2) : OfChapter (.image d)

/-- The rounds of a chapter are within a rule if a single one is. -/
theorem obeys_expire_of_reduceLedger {ρ : Rule Session} (h : ρ.Obeys (reduceLedger expirySpan))
    (n : Nat) : ρ.Obeys (expire n) := by
  induction n with
  | zero => exact Rule.obeys_pure _
  | succ n ih => exact h.bind fun _ => ih

theorem obeys_expire (hK : ∀ d, Deed.OfPassage d → K d) (n : Nat) : (rule K).Obeys (expire n) :=
  obeys_expire_of_reduceLedger (obeys_reduceLedger hK _) n

theorem obeys_setChapter (hplace : K .place)
    (hK : ∀ d : Image.Deed, d.OfField Layout.chapter 2 → K (.image d)) (c : Chapter) :
    (rule K).Obeys (setChapter c) := by
  have hset : (rule K).Obeys (modify fun s => { s with chapter := c }) :=
    Rule.obeys_modify fun s => (Change.place s c s.zone).leads hplace
  refine hset.bind fun _ => obeys_onSave ?_
  exact (Image.writes_writeU16 _ _).obeys (Nat.le_refl 2) (by decide) hK

/-- A purse that is not set aside is no fault of the image unless the image ends before the flags
do. -/
theorem obeys_viewStash (c : Chapter) :
    (rule K).Obeys (.view fun s => s.readSave .none (·.stashed c)) := by
  refine Rule.obeys_view fun s e h he => readSave_error (fun m hm => ?_) h
  -- A chapter that has a purse has it below the end of the flags.
  rcases hoffset : Image.stashOffset c with e' | offset
  · rw [Image.stashed, hoffset] at hm
    cases hm
    rw [Image.stashOffset_error hoffset] at he
    cases he
  · rw [Image.stashed, hoffset, Except.ok_bind] at hm
    have hend := Image.stashOffset_le hoffset
    refine Nat.lt_of_not_le fun hle => ?_
    rw [Image.readU32_of_le (by omega)] at hm
    cases hm

theorem obeys_setGold (hparty : K .party) (gold : Royals) : (rule K).Obeys (setGold gold) :=
  obeys_purse hparty fun _ => gold

theorem obeys_settlePurse (hK : ∀ d, Deed.OfPassage d → K d) (c : Chapter) :
    (rule K).Obeys (settlePurse c) := by
  have hgold := obeys_setGold (hK _ .party)
  unfold settlePurse
  split_ifs
  · exact obeys_setEvent (hK _ (.flag _ _))
  · exact hgold _
  · exact (obeys_viewStash _).bind fun gold => (hgold gold).bind fun _ =>
      obeys_setEvent (hK _ (.flag _ _))
  · exact (obeys_viewStash _).bind fun gold => (hgold gold).bind fun _ => Rule.obeys_pure _
  · exact Rule.obeys_pure _

/-- The day breaks with no change but to place, clock and chapter and those that time brings. -/
theorem obeys_daybreak (hplace : K .place) (hpassage : ∀ d, Deed.OfPassage d → K d)
    (hchapter : ∀ d : Image.Deed, d.OfField Layout.chapter 2 → K (.image d)) (c : Chapter)
    (start : ChapterStart) : (rule K).Obeys (daybreak c start) := by
  have hzone : (rule K).Obeys (modify fun s => { s with zone := start.zone }) :=
    Rule.obeys_modify fun s => (Change.place s s.chapter _).leads hplace
  have hclock : (rule K).Obeys
      (modify fun s => { s with clock := s.clock.jump (morning s.clock.now start.timeElapsed) }) :=
    Rule.obeys_modify fun s => (Change.clock s _).leads (hpassage _ .clock)
  have hunique : (rule K).Obeys (onSave Image.clearUnique) :=
    obeys_onSave (Image.obeys_clearUnique fun _ hd => hpassage _ (.of_clears hd))
  refine (obeys_setChapter hplace hchapter c).bind fun _ => hzone.bind fun _ => ?_
  exact hclock.bind fun _ => (obeys_expire hpassage _).bind fun _ => hunique

theorem obeys_setAside (hstash : ∀ d : Image.Deed, d.OfStash → K (.image d)) (c : Chapter) :
    (rule K).Obeys (setAside c) := by
  unfold setAside
  split_ifs
  · exact Rule.obeys_get_bind fun s => obeys_onSave (Image.obeys_setStash fun _ hd => hstash _ hd)
  · exact Rule.obeys_pure _

/-- What a rule must allow for the party to recover. -/
structure AllowsRally (ρ : Rule Session) : Prop where
  restore : ρ.Obeys (modify (·.mapActive Character.restore))
  see : ∀ id, ρ.Obeys (changeMember id fun c => { c with skills := c.skills.clearUnseen })
  clear : ∀ id, ρ.Obeys (onSave (Image.clearUnseen id))

theorem AllowsRally.clearUnseen {ρ : Rule Session} (h : AllowsRally ρ) (ids : List CharId) :
    ρ.Obeys (Session.clearUnseen ids) := by
  induction ids with
  | nil => exact Rule.obeys_pure _
  | cons id rest ih => exact (h.see id).bind fun _ => (h.clear id).bind fun _ => ih

theorem AllowsRally.rally {ρ : Rule Session} (h : AllowsRally ρ) : ρ.Obeys Session.rally :=
  h.restore.bind fun _ => Rule.obeys_get_bind fun _ => h.clearUnseen _

theorem allowsRally_rule (hpassage : ∀ d, Deed.OfPassage d → K d) : AllowsRally (rule K) where
  restore := obeys_mapActive (hpassage _ .party) fun c => (Character.Change.restore c).leads
  see id := obeys_changeMember (hpassage _ .party) id fun c => (Character.Change.seen c).leads
  clear _ := obeys_onSave (Image.obeys_clearUnseen fun _ hd => hpassage _ (.of_clears hd))

theorem obeys_rally (hpassage : ∀ d, Deed.OfPassage d → K d) : (rule K).Obeys rally :=
  (allowsRally_rule hpassage).rally

/-- Nothing is told when the chapter opens. -/
def Quiet (story : Story) (c : Chapter) : Prop :=
  story.commonSnippet = none ∧ ∀ start, story.start c = .ok start → start.snippet = none

theorem tell_of_quiet {story : Story} {c : Chapter} {start : ChapterStart} (h : Quiet story c)
    (hstart : story.start c = .ok start) (d : DialogStore) : tell story d start = pure start := by
  rw [tell, h.1, h.2 start hstart]
  rfl

theorem obeys_tell (hdialogs : ∀ d, dialogs.Does d → K d) (story : Story) (start : ChapterStart) :
    (rule K).Obeys (tell story dialogs start) := by
  refine (obeys_performSnippet hdialogs _).bind fun _ => ?_
  split
  · exact (obeys_chain hdialogs _).bind fun _ => Rule.obeys_pure _
  · exact Rule.obeys_pure _

/-- A chapter begins with no change but its own and those of its snippets. -/
theorem obeys_transition (hdialogs : ∀ d, dialogs.Does d → K d)
    (hK : ∀ d, Deed.OfChapter d → K d) (c : Chapter) (story : Story) :
    (rule K).Obeys (transition c story dialogs) := by
  have hpassage : ∀ d, Deed.OfPassage d → K d := fun d hd => hK d (.passage hd)
  have hstart : (rule K).Obeys (.view fun _ => story.start c) := obeys_view fun s e h => by
    unfold Story.start at h
    split at h <;> cases h
    rfl
  rw [transition_eq]
  refine hstart.bind fun start => ?_
  refine (obeys_daybreak (hK _ .place) hpassage (fun d hd => hK _ (.chapter hd)) c start).bind
    fun _ => ?_
  refine (obeys_setAside (fun d hd => hK _ (.stash hd)) c).bind fun _ => ?_
  refine (obeys_settlePurse hpassage c).bind fun _ => (obeys_rally hpassage).bind fun _ => ?_
  exact obeys_tell hdialogs story start

end QuestLogic.Session
