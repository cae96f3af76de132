import QuestLogic.Proofs.Ledger.Basic
import QuestLogic.Proofs.Session.Change

/-!
# The passage of time, change by change

A pass over the ledger visits its entries in order, and each visit takes time from one entry and
notes what that does to a spell, before anything else comes of it (`Session.holds_decayFrom`). How
far a pass gets depends on the save image alone (`Session.reach`), and that tells what it makes of
the ledger and of the spells (`Session.reduceLedger_reach`). All that time brings with it is made of
the deeds in `Deed.OfPassage`.
-/

namespace QuestLogic.Session

/-- The changes that the passage of time is made of. -/
inductive Deed.OfPassage : Deed → Prop
  | flag (p : EventPtr) (on : Bool) : OfPassage (.image (.flag p on))
  | party : OfPassage .party
  | clock : OfPassage .clock
  | visit (span : Time) : OfPassage (.visit span)
  | sweep : OfPassage .sweep
  | glow : OfPassage .glow

/-- Clearing flags is among what the passage of time may do. -/
theorem Deed.OfPassage.of_clears {ps : List EventPtr} {d : Image.Deed} (h : d.Clears ps) :
    OfPassage (.image d) := by
  cases h
  exact .flag _ _

variable {K : Deed → Prop}

/-! ## Days and hours -/

/-- A rule that days and hours cannot break: it allows growth, meals and recovery, and what hours do
to the members on the road. -/
structure AllowsDays (ρ : Rule Session) : Prop where
  grow : ρ.Obeys (modify (·.mapActive Character.grow))
  meal : ρ.Obeys (onParty Party.meal)
  recover : ρ.Obeys (modify (·.mapActive Character.recover))
  hours : ∀ how n, ρ.Obeys (modify (newHours how n))

namespace AllowsDays

variable {ρ : Rule Session}

theorem newDay (h : AllowsDays ρ) (how : Pastime) (day : Nat) :
    ρ.Obeys (Session.newDay how day) := by
  unfold Session.newDay
  -- A day may be one of growth and one of eating, or neither.
  split_ifs
  · exact h.grow.bind fun _ => h.meal.bind fun _ => h.recover
  · exact h.meal.bind fun _ => h.recover
  · exact h.grow.bind fun _ => h.recover
  · exact h.recover

theorem newDays (h : AllowsDays ρ) (how : Pastime) (day n : Nat) :
    ρ.Obeys (Session.newDays how day n) := by
  induction n generalizing day with
  | zero => exact Rule.obeys_pure _
  | succ n ih => exact (h.newDay how day).bind fun _ => ih (day + 1)

end AllowsDays

theorem allowsDays_of_party (hK : K .party) : AllowsDays (rule K) where
  grow := obeys_mapActive hK Character.leads_grow
  meal := obeys_onParty hK Party.obeys_meal
  recover := obeys_mapActive hK Character.leads_recover
  hours how n := Rule.obeys_modify fun s => leads_mapActive hK s fun c => c.leads_hours how _ n

/-! ## The ledger -/

/-- A light that goes out in the hands of a member, if one does. -/
theorem leads_putOut (hparty : K .party) (hglow : K .glow) (s : Session) :
    Leads K s s.putOut.2 := by
  unfold putOut
  dsimp only
  split
  -- The light of the party goes out first, and then whoever held it may have used it up.
  · rename_i place _
    refine ((Change.glow s 0).leads hglow).trans ?_
    refine leads_party hparty (Party.change_modify s.party place fun c _ => ?_).leads
    rcases h : c.inventory.equippedLight? with _ | position
    · exact .refl c
    · exact (Character.Change.inventory (.burn c.inventory position)).leads
  · exact (Change.glow s 0).leads hglow

/-- What comes of an effect besides what it does to the spells that are in effect. -/
def aftermath (before : Time) (e : Effect) : Step Session Unit :=
  match e.kind with
  | .light => if !before.isZero && e.duration.isZero then modify (·.putOut.2) else pure ()
  | .setState => if e.duration.isZero then setEvent e.subject true else pure ()
  | .resetState => if e.duration.isZero then setEvent e.subject false else pure ()
  | .spell | .nothing => pure ()

/-- An effect is applied by refreshing its spell and then doing the rest. -/
theorem run_applyEffect (before : Time) (e : Effect) (s : Session) :
    (applyEffect before e).run s =
      (aftermath before e).run { s with spells := refresh s.spells e } := by
  unfold applyEffect aftermath refresh
  rcases h : e.kind <;> rfl

/-- What comes of an effect is nothing, a light that goes out, or a flag. -/
theorem aftermath_cases (before : Time) (e : Effect) :
    aftermath before e = pure () ∨ aftermath before e = modify (·.putOut.2) ∨
      ∃ p on, aftermath before e = setEvent p on := by
  unfold aftermath
  split
  · split_ifs
    · exact .inr (.inl rfl)
    · exact .inl rfl
  · split_ifs
    · exact .inr (.inr ⟨_, _, rfl⟩)
    · exact .inl rfl
  · split_ifs
    · exact .inr (.inr ⟨_, _, rfl⟩)
    · exact .inl rfl
  · exact .inl rfl
  · exact .inl rfl

/-- Putting out a light touches neither the image nor the ledger nor the spells in effect. -/
theorem putOut_frame (s : Session) :
    s.putOut.2.save = s.save ∧ s.putOut.2.ledger = s.ledger ∧ s.putOut.2.spells = s.spells := by
  unfold putOut
  dsimp only
  split <;> exact ⟨rfl, rfl, rfl⟩

/-- What comes of an effect leaves the ledger and the spells in effect alone. -/
theorem aftermath_frame (before : Time) (e : Effect) (s : Session) :
    ((aftermath before e).run s).2.ledger = s.ledger ∧
      ((aftermath before e).run s).2.spells = s.spells := by
  obtain h | h | ⟨p, on, h⟩ := aftermath_cases before e
  all_goals rw [h]
  · exact ⟨rfl, rfl⟩
  · exact (putOut_frame s).2
  · unfold setEvent
    rcases hs : s.save with _ | m
    · rw [run_onSave_none hs]
      exact ⟨rfl, rfl⟩
    · rw [run_onSave_some hs]
      exact ⟨rfl, rfl⟩

theorem obeys_aftermath (hK : ∀ d, Deed.OfPassage d → K d) (before : Time) (e : Effect) :
    (rule K).Obeys (aftermath before e) := by
  obtain h | h | ⟨p, on, h⟩ := aftermath_cases before e
  all_goals rw [h]
  · exact Rule.obeys_pure _
  · exact Rule.obeys_modify fun s => leads_putOut (hK _ .party) (hK _ .glow) s
  · exact obeys_onSave (Image.obeys_setFlag (hK _ (.flag p on)))

/-- The session in which the effect at the front of what is left has lost time. -/
def visited (span : Time) (done : List Effect) (e : Effect) (rest : List Effect) (s : Session) :
    Session :=
  { s with
    ledger.entries := done ++ [e.decay span] ++ rest, spells := refresh s.spells (e.decay span) }

/-- A pass takes time from the first effect that is left, sees to what comes of it, and goes on. -/
theorem run_decayFrom_cons (span : Time) (done : List Effect) (e : Effect) (rest : List Effect)
    (s : Session) :
    (decayFrom span done (e :: rest)).run s =
      (do
        aftermath e.duration (e.decay span)
        decayFrom span (done ++ [e.decay span]) rest).run (visited span done e rest s) := by
  rw [decayFrom, Step.run_bind, Step.run_modify]
  dsimp only
  rw [Step.run_bind, Step.run_bind, run_applyEffect]
  rfl

theorem leads_visited (hK : ∀ d, Deed.OfPassage d → K d) {s : Session} {done rest : List Effect}
    {e : Effect} (hs : s.ledger.entries = done ++ e :: rest) (span : Time) :
    Leads K s (visited span done e rest s) := by
  -- The effect stands where those that are done end.
  have hentry : s.ledger.entries[done.length]? = some e := by
    rw [hs, List.getElem?_append_right (Nat.le_refl _), Nat.sub_self]
    rfl
  have hset : s.ledger.entries.set done.length (e.decay span) = done ++ [e.decay span] ++ rest := by
    rw [hs, List.set_append_right _ _ (Nat.le_refl _), Nat.sub_self, List.append_assoc]
    rfl
  have hchange := Change.visit hentry span
  rw [hset] at hchange
  exact hchange.leads (hK _ (.visit span))

/-- A pass over the effects that are left. -/
theorem holds_decayFrom (hK : ∀ d, Deed.OfPassage d → K d) (span : Time) {s : Session}
    {done rest : List Effect} (hs : s.ledger.entries = done ++ rest) :
    (rule K).Holds (decayFrom span done rest) s := by
  -- The ledger stays what is done followed by what is left, whatever comes of each effect.
  induction rest generalizing done s with
  | nil => exact Rule.holds_pure _ s
  | cons e rest ih =>
    refine Rule.holds_of_run_eq (run_decayFrom_cons span done e rest s)
      (leads_visited hK hs span) ?_
    refine Rule.holds_bind (obeys_aftermath hK _ _ _) fun _ t ht => ih ?_
    have hframe := (aftermath_frame e.duration (e.decay span) (visited span done e rest s)).1
    rw [ht] at hframe
    exact congrArg Ledger.entries hframe

/-- A rule that a pass over the ledger cannot break: it allows every write to a flag, every light
that goes out, and whatever becomes of the ledger, the spells in effect and the light. -/
structure AllowsPass (ρ : Rule Session) : Prop where
  setEvent : ∀ p on, ρ.Obeys (setEvent p on)
  putOut : ∀ s, ρ.leads s s.putOut.2
  ledger : ∀ (s : Session) (l : Ledger) (a : ActiveSpells) (level : UInt8),
    ρ.leads s { s with ledger := l, spells := a, light := level }

namespace AllowsPass

variable {ρ : Rule Session}

theorem aftermath (h : AllowsPass ρ) (before : Time) (e : Effect) :
    ρ.Obeys (Session.aftermath before e) := by
  obtain heq | heq | ⟨p, on, heq⟩ := aftermath_cases before e
  all_goals rw [heq]
  · exact Rule.obeys_pure _
  · exact Rule.obeys_modify h.putOut
  · exact h.setEvent p on

theorem decayFrom (h : AllowsPass ρ) (span : Time) (done rest : List Effect) :
    ρ.Obeys (Session.decayFrom span done rest) := by
  induction rest generalizing done with
  | nil => exact Rule.obeys_pure _
  | cons e rest ih =>
    intro s
    refine Rule.holds_of_run_eq (run_decayFrom_cons span done e rest s) (h.ledger s _ _ _) ?_
    exact (h.aftermath _ _).bind (fun _ => ih _) _

theorem reduceLedger (h : AllowsPass ρ) (span : Time) : ρ.Obeys (Session.reduceLedger span) :=
  Rule.obeys_get_bind fun _ => (h.decayFrom span _ _).bind fun _ =>
    Rule.obeys_modify fun s => h.ledger s _ _ _

end AllowsPass

/-- What comes of an effect depends on the image alone, as far as faults and the image go. -/
theorem aftermath_congr {s t : Session} (h : t.save = s.save) (before : Time) (e : Effect) :
    ((aftermath before e).run t).1 = ((aftermath before e).run s).1 ∧
      ((aftermath before e).run t).2.save = ((aftermath before e).run s).2.save := by
  obtain h' | h' | ⟨p, on, h'⟩ := aftermath_cases before e
  all_goals rw [h']
  · exact ⟨rfl, h⟩
  · refine ⟨rfl, ?_⟩
    rw [Step.run_modify, Step.run_modify, (putOut_frame t).1, (putOut_frame s).1, h]
  · unfold setEvent
    rcases hs : s.save with _ | m
    · rw [run_onSave_none hs, run_onSave_none (h.trans hs)]
      exact ⟨rfl, h⟩
    · rw [run_onSave_some hs, run_onSave_some (h.trans hs)]
      exact ⟨rfl, rfl⟩

/-- How many effects a pass gets to: all of them, unless a fault of the image ends it. -/
def reach (span : Time) : List Effect → Session → Nat
  | [], _ => 0
  | e :: rest, s =>
    match (aftermath e.duration (e.decay span)).run s with
    | (.ok (), t) => reach span rest t + 1
    | (.error _, _) => 1

/-- How far a pass gets depends on the image alone. -/
theorem reach_congr {s t : Session} (h : t.save = s.save) (span : Time) (es : List Effect) :
    reach span es t = reach span es s := by
  induction es generalizing s t with
  | nil => rfl
  | cons e rest ih =>
    obtain ⟨hfault, hsave⟩ := aftermath_congr h e.duration (e.decay span)
    rw [reach, reach]
    rcases hs : (aftermath e.duration (e.decay span)).run s with ⟨f | _, s'⟩
    all_goals
      rcases ht : (aftermath e.duration (e.decay span)).run t with ⟨f' | _, t'⟩
      all_goals simp only [hs, ht] at hfault hsave
    · rfl
    · cases hfault
    · cases hfault
    · exact congrArg (· + 1) (ih hsave)

/-- A pass takes time from the effects that it gets to and refreshes the spell of each. -/
theorem decayFrom_reach {span : Time} {s t : Session} {done rest : List Effect}
    {r : Except Fault Unit} (hs : s.ledger.entries = done ++ rest)
    (h : (decayFrom span done rest).run s = (r, t)) :
    t.ledger = { s.ledger with entries := done ++ worn span (reach span rest s) rest } ∧
      t.spells = ((rest.take (reach span rest s)).map (·.decay span)).foldl refresh s.spells := by
  induction rest generalizing done s with
  | nil =>
    obtain ⟨-, rfl⟩ := Prod.mk.inj h
    exact ⟨congrArg (Ledger.mk · s.ledger.capacity) hs, rfl⟩
  | cons e rest ih =>
    rw [run_decayFrom_cons] at h
    rw [← reach_congr (s := s) (t := visited span done e rest s) rfl, reach]
    have hframe := aftermath_frame e.duration (e.decay span) (visited span done e rest s)
    rcases hu : (aftermath e.duration (e.decay span)).run (visited span done e rest s)
      with ⟨f | _, u⟩
    all_goals
      rw [hu] at hframe
      obtain ⟨hledger, hspells⟩ := hframe
    -- The fault comes after the visit, so that the pass has got to this effect and no other.
    · rw [Step.run_bind_error hu] at h
      cases h
      refine ⟨hledger.trans ?_, hspells⟩
      rw [visited, worn, List.append_assoc]
      rfl
    · rw [Step.run_bind_ok hu] at h
      obtain ⟨hledger', hspells'⟩ := ih (congrArg Ledger.entries hledger) h
      rw [hledger', hspells', hledger, hspells, List.append_assoc]
      exact ⟨rfl, rfl⟩

/-- A pass over the whole ledger. -/
theorem obeys_reduceLedger (hK : ∀ d, Deed.OfPassage d → K d) (span : Time) :
    (rule K).Obeys (reduceLedger span) := by
  intro s
  refine Rule.holds_get_bind (Rule.holds_bind (holds_decayFrom hK span rfl) fun _ t _ => ?_)
  have hglow := (Change.glow t ((brightest? t.ledger.entries).getD t.light)).leads (hK _ .glow)
  exact Rule.holds_modify (hglow.trans ((Change.sweep _).leads (hK _ .sweep)))

/-- A pass takes time from the effects that it gets to and refreshes the spell of each; what has run
out is dropped if nothing ends the pass. -/
theorem reduceLedger_reach {span : Time} {s t : Session} {r : Except Fault Unit}
    (h : (reduceLedger span).run s = (r, t)) :
    (t.ledger = s.ledger.wear span (reach span s.ledger.entries s) ∨
        t.ledger = (s.ledger.wear span (reach span s.ledger.entries s)).removeExpired) ∧
      t.spells = ((s.ledger.entries.take (reach span s.ledger.entries s)).map
        (·.decay span)).foldl refresh s.spells := by
  unfold reduceLedger at h
  rw [Step.run_bind_ok (Step.run_get s)] at h
  rcases hu : (decayFrom span [] s.ledger.entries).run s with ⟨f | _, u⟩
  all_goals obtain ⟨hledger, hspells⟩ := decayFrom_reach rfl hu
  · rw [Step.run_bind_error hu] at h
    cases h
    exact ⟨.inl hledger, hspells⟩
  · rw [Step.run_bind_ok hu] at h
    cases h
    exact ⟨.inr (congrArg Ledger.removeExpired hledger), hspells⟩

/-! ## Time -/

/-- What a stretch of time brings before the ledger loses it: its days and its hours. -/
def dawn (span : Time) (how : Pastime) : Step Session Unit := do
  let before := (← get).clock.now
  modify fun s => { s with clock := s.clock.advance span }
  let after := (← get).clock.now
  newDays how (before.days + 1) (after.days - before.days)
  modify (newHours how (after.hours - before.hours))

theorem passTime_eq (span : Time) (how : Pastime) :
    passTime span how = (do
      dawn span how
      reduceLedger span) := by
  simp only [passTime, dawn, bind_assoc]

theorem AllowsDays.dawn {ρ : Rule Session} (h : AllowsDays ρ)
    (hclock : ∀ (s : Session) (c : Clock), ρ.leads s { s with clock := c }) (span : Time)
    (how : Pastime) : ρ.Obeys (Session.dawn span how) := by
  have hadvance : ρ.Obeys (modify fun s => { s with clock := s.clock.advance span }) :=
    Rule.obeys_modify fun s => hclock s _
  refine Rule.obeys_get_bind fun s => hadvance.bind fun _ => Rule.obeys_get_bind fun t => ?_
  exact (h.newDays how _ _).bind fun _ => h.hours how _

/-- The days and hours leave the image, the ledger and the spells in effect alone. -/
theorem dawn_frame (span : Time) (how : Pastime) (s : Session) :
    ((dawn span how).run s).2.save = s.save ∧ ((dawn span how).run s).2.ledger = s.ledger ∧
      ((dawn span how).run s).2.spells = s.spells := by
  have hobeys : (rule fun d => d = .party ∨ d = .clock).Obeys (dawn span how) :=
    (allowsDays_of_party (.inl rfl)).dawn (fun s c => (Change.clock s c).leads (.inr rfl)) span how
  have hframe : ∀ {d : Deed} {t u : Session}, (d = .party ∨ d = .clock) → Change d t u →
      u.save = t.save ∧ u.ledger = t.ledger ∧ u.spells = t.spells := by
    intro d t u hd hchange
    obtain rfl | rfl := hd
    · cases hchange
      exact ⟨rfl, rfl, rfl⟩
    · cases hchange
      exact ⟨rfl, rfl, rfl⟩
  refine (hobeys s).1.keeps (P := fun u => u.save = s.save ∧ u.ledger = s.ledger ∧
    u.spells = s.spells) (fun hd hchange ⟨hsave, hledger, hspells⟩ => ?_) ⟨rfl, rfl, rfl⟩
  obtain ⟨hsave', hledger', hspells'⟩ := hframe hd hchange
  exact ⟨hsave'.trans hsave, hledger'.trans hledger, hspells'.trans hspells⟩

/-- A rule that time cannot break: it allows days and hours, any move of the clock, and a pass over
the ledger. -/
structure AllowsTime (ρ : Rule Session) : Prop extends AllowsDays ρ where
  clock : ∀ (s : Session) (c : Clock), ρ.leads s { s with clock := c }
  pass : ∀ span, ρ.Obeys (reduceLedger span)

namespace AllowsTime

variable {ρ : Rule Session}

theorem passTime (h : AllowsTime ρ) (span : Time) (how : Pastime) :
    ρ.Obeys (Session.passTime span how) := by
  rw [passTime_eq]
  exact (h.toAllowsDays.dawn h.clock span how).bind fun _ => h.pass span

theorem elapseHours (h : AllowsTime ρ) (resting : Bool) (n : Nat) :
    ρ.Obeys (Session.elapseHours resting n) := by
  induction n with
  | zero => exact Rule.obeys_pure _
  | succ n ih =>
    have hsleep : ρ.Obeys (modify fun s => { s with clock := s.clock.sleepAt s.clock.now }) :=
      Rule.obeys_modify fun s => h.clock s _
    have hpass := (h.passTime .oneHour .dialog).bind fun _ => ih
    unfold Session.elapseHours
    split_ifs
    · exact hsleep.bind fun _ => hpass
    · exact hpass

theorem elapse (h : AllowsTime ρ) (span : Time) : ρ.Obeys (Session.elapse span) := by
  unfold Session.elapse
  split_ifs
  · exact Rule.obeys_pure _
  · exact (h.elapseHours _ _).bind fun _ => h.passTime _ _

end AllowsTime

theorem allowsTime_of_passage (hK : ∀ d, Deed.OfPassage d → K d) : AllowsTime (rule K) where
  toAllowsDays := allowsDays_of_party (hK _ .party)
  clock s c := (Change.clock s c).leads (hK _ .clock)
  pass span := obeys_reduceLedger hK span

/-! ## Lights and spells -/

theorem obeys_addLight {light : UInt16} {duration : Time} (hK : K (.kindle light duration)) :
    (rule K).Obeys (addLight light duration) := by
  refine obeys_update (fun s t h => ?_) fun s e h => ?_
  all_goals split at h <;> cases h
  · rename_i l hl
    exact (Change.kindle hl _).leads hK
  · rfl

theorem obeys_castStatic {spell : StaticSpell} {duration : Time} (hK : K (.cast spell duration)) :
    (rule K).Obeys (castStatic spell duration) := by
  refine obeys_update (fun s t h => ?_) fun s e h => ?_
  all_goals split at h <;> cases h
  · rename_i l hl
    exact (Change.cast hl).leads hK
  · rfl

/-- Putting out every light puts it away in the hands of the party and drops it from the ledger. -/
theorem obeys_extinguish (hparty : K .party) (hdouse : K .douse) (hglow : K .glow) :
    (rule K).Obeys (modify extinguish) := by
  refine Rule.obeys_modify fun s => ?_
  refine (leads_mapActive hparty s Character.leads_putAway).trans ?_
  exact ((Change.douse _).leads hdouse).trans ((Change.glow _ 0).leads hglow)

end QuestLogic.Session
