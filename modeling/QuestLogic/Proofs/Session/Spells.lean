import QuestLogic.Proofs.Session.Mirror

/-!
# When the spells in effect are right

The game is played in steps: a cast, an action, a stretch of time, loading an image and so on; lists
of actions, and spans that pass hour by hour, are made of these (`Session.stepwise_performAll`). For
every step `Session.Spares` says, in terms of the ledger alone, whether the spells in effect are
still those that the ledger keeps once it is made (`Session.mirrors_play_iff`). They are so
throughout a run just if every step of the run spares them (`Session.spells_mirror`). The step that
need not is an action that begins a spell, which adds to the ledger only, as well as a cast that
lasts no time, and a pass or an image that comes to an entry of a spell that has run out after one
that has not.
-/

namespace QuestLogic.Session

variable {s t : Session}

/-! ## Steps -/

/-- The move is one step: no list, and no span that passes hour by hour. -/
def Move.IsStep : Move → Prop
  | .performAll _ | .chain _ _ | .transition _ _ _ | .elapse _ | .perform (.elapseTime _) => False
  | _ => True

/-- Nothing is done but steps. -/
def stepwise : Rule Session where
  leads := Runs Move.IsStep
  permits _ _ := True
  refl _ := .refl
  trans h h' := h.trans h'

theorem stepwise_play {v : Move} (hv : v.IsStep) : stepwise.Obeys v.play :=
  fun _ => ⟨.single ⟨v, hv, rfl⟩, fun _ _ => trivial⟩

theorem stepwise_elapseHours (resting : Bool) (n : Nat) :
    stepwise.Obeys (elapseHours resting n) := by
  induction n with
  | zero => exact Rule.obeys_pure _
  | succ n ih =>
    have hsleep : stepwise.Obeys
        (modify fun s => { s with clock := s.clock.sleepAt s.clock.now }) :=
      Rule.obeys_modify fun s => .single ⟨.setClock (s.clock.sleepAt s.clock.now), trivial, rfl⟩
    have hhour : stepwise.Obeys (passTime .oneHour .dialog) :=
      stepwise_play (v := .passTime .oneHour .dialog) trivial
    unfold elapseHours
    split_ifs
    · exact hsleep.bind fun _ => hhour.bind fun _ => ih
    · exact hhour.bind fun _ => ih

/-- A span that passes hour by hour is made of steps. -/
theorem stepwise_elapse (span : Time) : stepwise.Obeys (elapse span) := by
  unfold elapse
  split_ifs
  · exact Rule.obeys_pure _
  · refine (stepwise_elapseHours _ _).bind fun _ => ?_
    exact stepwise_play (v := .passTime _ _) trivial

theorem stepwise_perform (a : Action) : stepwise.Obeys (perform a) := by
  cases a with
  | elapseTime span => exact stepwise_elapse span
  | _ => exact stepwise_play (v := .perform _) trivial

/-- A list of actions is made of steps. -/
theorem stepwise_performAll (as : List Action) : stepwise.Obeys (performAll as) := by
  induction as with
  | nil => exact Rule.obeys_pure _
  | cons a rest ih =>
    refine Rule.Obeys.bind (fun s => ⟨?_, fun _ _ => trivial⟩) fun _ => ih
    -- Whether its fault is passed over or not, an action has done what it has done.
    rw [run_performOrSkip]
    exact (stepwise_perform a s).1

/-! ## Runs of steps -/

/-- The session after some moves, whether they go through or meet a fault. -/
def after : List Move → Session → Session
  | [], s => s
  | v :: rest, s => after rest (v.play.run s).2

/-- A property holds at the start of a run and after each of its moves. -/
def Throughout (P : Session → Prop) : List Move → Session → Prop
  | [], s => P s
  | v :: rest, s => P s ∧ Throughout P rest (v.play.run s).2

theorem Throughout.start {P : Session → Prop} {vs : List Move} (h : Throughout P vs s) : P s := by
  cases vs with
  | nil => exact h
  | cons v rest => exact h.1

/-- The moves of a run, listed. -/
theorem Runs.exists_after {P : Move → Prop} (h : Runs P s t) :
    ∃ vs, (∀ v ∈ vs, P v) ∧ after vs s = t := by
  induction h using Relation.ReflTransGen.head_induction_on with
  | refl => exact ⟨[], fun _ hv => absurd hv List.not_mem_nil, rfl⟩
  | head h _ ih =>
    obtain ⟨v, hv, rfl⟩ := h
    obtain ⟨vs, hvs, rfl⟩ := ih
    exact ⟨v :: vs, List.forall_mem_cons.2 ⟨hv, hvs⟩, rfl⟩

/-! ## Steps that spare the mirror -/

/-- What a pass over the ledger tells of each spell stands for all the entries of the spell. -/
def SparesPass (s : Session) (span : Time) : Prop :=
  Agrees ((s.ledger.entries.take (reach span s.ledger.entries s)).map (·.decay span))
    (worn span (reach span s.ledger.entries s) s.ledger.entries)

/-- The step leaves the spells in effect right, as far as the ledger tells. -/
def Spares (s : Session) : Move → Prop
  | .castStatic spell duration =>
    (s.ledger.addSpell? spell.code duration).isSome = true →
      s.ledger.Keeps spell.code ∨ duration.isZero = false
  | .perform (.setTimeExpiringState .spell flags n duration) =>
    n.toNat < 16 → ∀ l, s.ledger.add? .spell n flags duration = some l →
      (l.Keeps n ↔ s.ledger.Keeps n)
  | .passTime span how => ((dawn span how).run s).1 = .ok () → s.SparesPass span
  | .reduceLedger span => s.SparesPass span
  | .load m => ∀ t, s.loaded m = .ok t → Agrees t.ledger.entries t.ledger.entries
  | _ => True

/-- Every step of a run spares the mirror. -/
def Spared : List Move → Session → Prop
  | [], _ => True
  | v :: rest, s => s.Spares v ∧ Spared rest (v.play.run s).2

/-- A pass keeps the mirror just if what it tells of each spell stands for all of its entries. -/
theorem mirrors_reduceLedger_iff (hs : s.Mirrors) (span : Time) :
    ((reduceLedger span).run s).2.Mirrors ↔ s.SparesPass span := by
  rcases h : (reduceLedger span).run s with ⟨r, t⟩
  obtain ⟨hledger, hspells⟩ := reduceLedger_reach h
  have hkeeps : ∀ n, t.ledger.Keeps n ↔
      (s.ledger.wear span (reach span s.ledger.entries s)).Keeps n := fun n => by
    rcases hledger with hledger | hledger
    · rw [hledger]
    · rw [hledger, Ledger.keeps_removeExpired]
  refine mirrors_iff_agrees hspells (fun n => by rw [hkeeps, Ledger.keeps_iff_isAbout]; rfl) ?_
  intro n hn hunseen
  rw [hs n hn, Ledger.keeps_iff_isAbout]
  generalize reach span s.ledger.entries s = k at hunseen
  -- The entries that the pass did not get to are all that there are of this spell.
  have hnone : ∀ e ∈ s.ledger.entries.take k, ¬e.isAbout .spell n = true := fun e he =>
    List.filter_eq_nil_iff.1 hunseen (e.decay span) (List.mem_map_of_mem he)
  constructor
  · rintro ⟨e, he, habout, hlasts⟩
    rw [← List.take_append_drop k s.ledger.entries] at he
    rcases List.mem_append.1 he with he | he
    · exact absurd habout (hnone e he)
    · exact ⟨e, he, habout, hlasts⟩
  · rintro ⟨e, he, h⟩
    exact ⟨e, List.mem_of_mem_drop he, h⟩

/-- A pass over a ledger with no more than one entry for each spell keeps the mirror. -/
theorem sparesPass_of_distinct (h : s.ledger.Distinct) (span : Time) : s.SparesPass span := by
  refine agrees_of_length_le (List.subset_append_left _ _) fun n hn => ?_
  have hlength := h n hn
  rw [Ledger.ofSpell, ← List.take_append_drop (reach span s.ledger.entries s) s.ledger.entries,
    List.filter_append, List.length_append] at hlength
  rw [worn, List.filter_append, List.length_append, List.filter_map, List.length_map]
  exact hlength

/-- Time that passes comes down to a pass, unless a fault of the party's ends it before. -/
theorem mirrors_passTime_iff (hs : s.Mirrors) (span : Time) (how : Pastime) :
    ((passTime span how).run s).2.Mirrors ↔
      (((dawn span how).run s).1 = .ok () → s.SparesPass span) := by
  obtain ⟨hsave, hledger, hspells⟩ := dawn_frame span how s
  have hdawn : ((dawn span how).run s).2.Mirrors :=
    (mirrors_congr hspells fun n _ => by rw [hledger]).2 hs
  rw [passTime_eq]
  rcases h : (dawn span how).run s with ⟨e | _, u⟩
  all_goals rw [h] at hsave hledger hdawn
  · rw [Step.run_bind_error h]
    exact iff_of_true hdawn fun hok => by cases hok
  · rw [Step.run_bind_ok h, mirrors_reduceLedger_iff hdawn, SparesPass, SparesPass,
      reach_congr hsave, hledger]
    exact ⟨fun hspares _ => hspares, fun hspares => hspares rfl⟩

theorem mirrors_castStatic_iff (hs : s.Mirrors) (spell : StaticSpell) (duration : Time) :
    ((castStatic spell duration).run s).2.Mirrors ↔ s.Spares (.castStatic spell duration) := by
  rw [Spares]
  rcases h : s.ledger.addSpell? spell.code duration with _ | l
  · rw [castStatic, Step.run_update_error (e := .ledgerFull) (by rw [h])]
    exact iff_of_true hs fun hroom => by cases hroom
  · rw [castStatic, Step.run_update_ok (by rw [h])]
    rw [mirrors_cast hs (code_lt spell) h, Ledger.keeps_addSpell? h]
    exact ⟨fun hkeeps _ => hkeeps, fun hkeeps => hkeeps rfl⟩

/-- An action that begins a spell adds to the ledger and does not touch the spells in effect. -/
theorem mirrors_beginSpell_iff (hs : s.Mirrors) (n : UInt16) (flags : UInt8) (duration : Time) :
    ((addEffect .spell n flags duration).run s).2.Mirrors ↔
      (n.toNat < 16 → ∀ l, s.ledger.add? .spell n flags duration = some l →
        (l.Keeps n ↔ s.ledger.Keeps n)) := by
  rcases h : s.ledger.add? .spell n flags duration with _ | l
  · rw [addEffect, Step.run_update_error (e := .ledgerFull) (by rw [h])]
    exact iff_of_true hs fun _ l hl => by cases hl
  · rw [addEffect, Step.run_update_ok (by rw [h])]
    constructor
    · intro ht hn l' hl'
      cases hl'
      exact (ht n hn).symm.trans (hs n hn)
    · intro hkeeps k hk
      -- The spells in effect are what they were, and so has to be what the ledger keeps.
      refine (hs k hk).trans ?_
      by_cases hne : n = k
      · subst hne
        exact (hkeeps hk l rfl).symm
      · rw [Ledger.keeps_congr (Ledger.ofSpell_add?_of_ne h fun hspell => hne hspell.2)]

theorem mirrors_load_iff (hs : s.Mirrors) (m : Image) :
    ((load m).run s).2.Mirrors ↔ s.Spares (.load m) := by
  rw [Spares]
  rcases h : s.loaded m with e | t
  · rw [load, Step.run_update_error h]
    exact iff_of_true hs fun t ht => by cases ht
  · rw [load, Step.run_update_ok h, mirrors_loaded h]
    constructor
    · intro hagrees t' ht'
      cases ht'
      exact hagrees
    · exact fun hagrees => hagrees t rfl

/-- The move touches the spells in effect or the entries of spells. -/
def Move.Stirs : Move → Prop
  | .castStatic _ _ | .passTime _ _ | .reduceLedger _ | .load _ => True
  | .perform (.setTimeExpiringState .spell _ _ _) => True
  | _ => False

/-- An action other than those is made of changes that touch no spell. -/
theorem quiet_of_action {a : Action} (ha : (Move.perform a).IsStep)
    (hstirs : ¬(Move.perform a).Stirs) {d : Deed} (hd : a.Does d) : d.Quiet := by
  cases a with
  | elapseTime span => exact ha.elim
  | setTimeExpiringState kind flags subject duration =>
    cases hd
    rintro ⟨rfl, -⟩
    exact hstirs trivial
  | setFlag write =>
    obtain rfl | ⟨w, -, rfl⟩ := hd
    all_goals trivial
  | setAddResetState event duration =>
    obtain rfl | rfl := hd
    · trivial
    · rintro ⟨h, -⟩
      cases h
  | gainSkill | gainCondition | setTextVariable =>
    obtain rfl | rfl := hd
    all_goals trivial
  | special a x y z => cases hd <;> trivial
  | unknown kind data => exact hd.elim
  | _ =>
    cases hd
    trivial

/-- A step other than those is made of changes that touch no spell. -/
theorem quiet_of_step {v : Move} (hv : v.IsStep) (hstirs : ¬v.Stirs) {d : Deed} (hd : v.Does d) :
    d.Quiet := by
  cases v with
  | perform a => exact quiet_of_action hv hstirs hd
  | performAll | chain | transition | elapse => exact hv.elim
  | castStatic | passTime | reduceLedger | load => exact absurd trivial hstirs
  | noteDialog e | noteScene e | noteSwitch e => cases hd <;> trivial
  | noteCombat combat =>
    obtain ⟨q, -, rfl⟩ := hd
    trivial
  | clearTile | setMark | applyWrite | saveState =>
    obtain ⟨w, h⟩ := hd
    first
    | obtain ⟨rfl, -⟩ := h
      trivial
  | setChapter c =>
    obtain rfl | ⟨w, rfl, -⟩ := hd
    all_goals trivial
  | extinguish =>
    obtain rfl | rfl | rfl := hd
    all_goals trivial
  | putOut | fillUsualRoles | setTextVariable | assignRole | clearDialog =>
    obtain rfl | rfl := hd
    all_goals trivial
  | _ =>
    cases hd
    trivial

/-- From a session in which the mirror holds, it holds after a step just if the step spares it. -/
theorem mirrors_play_iff (hfit : s.FitsLedger) (hs : s.Mirrors) {v : Move} (hv : v.IsStep) :
    (v.play.run s).2.Mirrors ↔ s.Spares v := by
  by_cases hstirs : v.Stirs
  · cases v with
    | castStatic spell duration => exact mirrors_castStatic_iff hs spell duration
    | passTime span how => exact mirrors_passTime_iff hs span how
    | reduceLedger span => exact mirrors_reduceLedger_iff hs span
    | load m => exact mirrors_load_iff hs m
    | perform a =>
      match a with
      | .setTimeExpiringState .spell flags n duration =>
        exact mirrors_beginSpell_iff hs n flags duration
    | _ => exact hstirs.elim
  · obtain ⟨hspells, hledger⟩ :=
      (leads_play (fun d hd => quiet_of_step hv hstirs hd) hfit.length_le).quiet
    refine iff_of_true ((mirrors_congr hspells hledger).2 hs) ?_
    unfold Spares
    split
    all_goals first
    | exact absurd trivial hstirs
    | trivial

/-- Throughout a run of steps the mirror holds just if every step spares it. -/
theorem throughout_mirrors_iff {vs : List Move} (hvs : ∀ v ∈ vs, v.IsStep) (hfit : s.FitsLedger)
    (hs : s.Mirrors) : Throughout Mirrors vs s ↔ Spared vs s := by
  induction vs generalizing s with
  | nil => exact iff_of_true hs trivial
  | cons v rest ih =>
    obtain ⟨hv, hrest⟩ := List.forall_mem_cons.1 hvs
    -- Where the mirror holds after the first step, the rest of the run begins as this one did.
    have hfit' : (v.play.run s).2.FitsLedger :=
      (leads_play (K := fun _ => True) (fun _ _ => trivial) hfit.length_le).fitsLedger hfit
    rw [Throughout, Spared]
    constructor
    · rintro ⟨-, h⟩
      exact ⟨(mirrors_play_iff hfit hs hv).1 h.start, (ih hrest hfit' h.start).1 h⟩
    · rintro ⟨hspares, h⟩
      exact ⟨hs, (ih hrest hfit' ((mirrors_play_iff hfit hs hv).2 hspares)).2 h⟩

/--
Throughout whatever steps are made of a session that has just begun, the spells in effect are those
that the ledger keeps, just if every step spares them; and what a list of actions does, steps do.
So it is after any run of moves that never begins a spell other than by a cast that lasts and that
loads only images with no second entry for a spell.
-/
theorem spells_mirror (settings : Settings) (party : Party) :
    (∀ vs : List Move, (∀ v ∈ vs, v.IsStep) →
      (Throughout Mirrors vs (ofSettings settings party) ↔
        Spared vs (ofSettings settings party))) ∧
    (∀ (s : Session) (as : List Action),
      ∃ vs : List Move, (∀ v ∈ vs, v.IsStep) ∧ after vs s = ((performAll as).run s).2) ∧
    ∀ s, Runs Move.Sparing (ofSettings settings party) s → s.Mirrors := by
  refine ⟨fun vs hvs => ?_, fun s as => ?_, fun s => mirrors_of_runs⟩
  · exact throughout_mirrors_iff hvs (fitsLedger_ofSettings settings party)
      (mirrors_ofSettings settings party)
  · exact (stepwise_performAll as s).1.exists_after

/-- A spell that is cast and runs out is in effect just as long as the ledger keeps it. -/
theorem spells_mirror_cast :
    Throughout Mirrors [.castStatic .union ⟨50⟩, .reduceLedger ⟨49⟩, .reduceLedger ⟨1⟩]
      (ofSettings .usual .initial) := by
  refine ((spells_mirror .usual .initial).1 _ ?_).2 ⟨fun _ => .inr rfl, ?_, ?_, trivial⟩
  · simp [Move.IsStep]
  all_goals exact sparesPass_of_distinct (Ledger.distinct_of_length_le (by decide)) _

/-- An action that begins a spell leaves it out of the spells in effect. -/
theorem spells_mirror_begun :
    ∃ t, (perform (.setTimeExpiringState .spell 0 3 ⟨100⟩)).run (ofSettings .usual .initial) =
        (.ok (), t) ∧
      t.ledger.Keeps 3 ∧ t.spells.isActive 3 = false := by
  refine ⟨_, rfl, ⟨⟨.spell, 0, 3, ⟨100⟩⟩, List.mem_singleton_self _, rfl, rfl, rfl⟩, ?_⟩
  exact ActiveSpells.isActive_none 3

end QuestLogic.Session
